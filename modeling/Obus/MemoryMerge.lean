import Obus.MemoryLemmas

/-!
# Merging in memory

The loop of `obus_struct_merge` and `obus_struct_copy` over the fields: its rule
(`copyFields_rule`), and that it ends exactly on structs with fewer than `2 ^ 16` fields.

A merge frees the strings of the present fields, as `FreedBy` says field by field, and leaves every
other field alone (`Merging`).  Whether it goes right is a matter of the strings that the source and
the destination share (`MergeSafe`).
-/

namespace Obus

namespace Memory

variable {mem : ℕ → Bool} {d : StructDesc}

/-! ## Fields of a struct -/

/-- The cells that a field of a struct points to. -/
def ptrs (st : StructMem d) (k : Fin d.length) : List ℕ := (d.get k).type.ptrs (st.vals k)

/-- The cells that a copy of a field of a struct reads. -/
def sourcePtrs (st : StructMem d) (k : Fin d.length) : List ℕ :=
  (d.get k).type.sourcePtrs (st.vals k)

/-- What a field of a struct denotes. -/
def value (h : StringHeap) (st : StructMem d) (k : Fin d.length) : (d.get k).type.Val :=
  (d.get k).type.denote h (st.vals k)

lemma sourcePtrs_subset {t : FieldType} {v : t.Mem} {l : ℕ} (hl : l ∈ t.sourcePtrs v) :
    l ∈ t.ptrs v := by
  cases t with
  | value t => exact hl
  | array t =>
    obtain ⟨p, hp, hlp⟩ := mem_itemPtrs.mp hl
    exact mem_itemPtrs.mpr ⟨p, List.mem_of_mem_take hp, hlp⟩

/-- A field denotes the same in a heap in which its strings have not changed. -/
lemma fieldDenote_congr {h h' : StringHeap} {t : FieldType} {v : t.Mem}
    (hsame : ∀ l ∈ t.sourcePtrs v, h'.read? l = h.read? l) : t.denote h' v = t.denote h v := by
  cases t with
  | value t => exact denote_congr hsame
  | array t =>
    have hitems : v.sources.map (t.denote h') = v.sources.map (t.denote h) :=
      List.map_congr_left fun p hp => denote_congr fun l hl =>
        hsame l (mem_itemPtrs.mpr ⟨p, hp, hl⟩)
    exact congrArg (fun items => (⟨v.nItems, items⟩ : ArrayVal t)) hitems

/-- A field that has its items can be copied from other memory, and onto itself. -/
lemma readable_of_rep {t : FieldType} {dst src : t.Mem} {shared : Bool} (hrep : t.Rep src)
    (hsame : shared = true → src = dst) : t.Readable shared dst src := by
  cases t with
  | value t => trivial
  | array t => exact ⟨hrep.length.ge, fun h => congrArg ArrayMem.array (hsame h)⟩

@[simp] lemma setVal_self (st : StructMem d) (k : Fin d.length) (v : (d.get k).type.Mem) :
    (setVal st k v).vals k = v := Function.update_self ..

lemma setVal_of_ne (st : StructMem d) {k j : Fin d.length} (h : j ≠ k) (v : (d.get k).type.Mem) :
    (setVal st k v).vals j = st.vals j := Function.update_of_ne h ..

@[simp] lemma setHasField_vals (st : StructMem d) (i : ℕ) : (setHasField st i).vals = st.vals := by
  unfold setHasField
  split <;> rfl

@[simp] lemma hasField_setVal (st : StructMem d) (k : Fin d.length)
    (v : (d.get k).type.Mem) (i : ℕ) : hasField (setVal st k v) i = hasField st i := rfl

/-- A presence bit after another one was set, in whatever words they are. -/
lemma hasField_setHasField (st : StructMem d) {i : ℕ} (hi : i < d.length) (k : ℕ) :
    hasField (setHasField st i) k = (decide (k = i) || hasField st k) := by
  unfold hasField setHasField
  rw [if_pos hi]
  by_cases hk : k < d.length
  · rw [if_pos hk, if_pos hk]
    exact bitTest_bitSet (hi.trans_le st.room) k
  · have hne : k ≠ i := fun h => hk (h ▸ hi)
    rw [if_neg hk, if_neg hk, decide_eq_false hne]
    rfl

@[simp] lemma clearHasField_vals (st : StructMem d) (i : ℕ) :
    (clearHasField st i).vals = st.vals := by
  unfold clearHasField
  split <;> rfl

@[simp] lemma clearHasFields_vals (st : StructMem d) : (clearHasFields st).vals = st.vals := by
  unfold clearHasFields
  induction List.range d.length generalizing st with
  | nil => rfl
  | cons i l ih => rw [List.foldl_cons, ih, clearHasField_vals]

/-! ## The loop -/

section Loop

variable {shared wanted : ℕ → Bool} {mark : Bool} {src : StructMem d}

/-- The struct after a field was copied. -/
def copied (mark : Bool) (dst : StructMem d) (k : Fin d.length) (v : (d.get k).type.Mem) :
    StructMem d :=
  if mark then setHasField (setVal dst k v) k else setVal dst k v

/-- What holds at the start of the loop, and is kept by every field that is copied or passed over,
holds at its end; and where there is no memory for a field, what follows from it holds. -/
lemma copyFields_rule {I : UInt16 → StructMem d → StringHeap → Prop}
    {E : StructMem d → StringHeap → Prop}
    (hskip : ∀ (i : UInt16) dst h, i.toNat < d.length → wanted i.toNat = false → I i dst h →
      I (i + 1) dst h)
    (hstep : ∀ (i : UInt16) (hi : i.toNat < d.length) dst h v h', wanted i.toNat = true →
      I i dst h →
      fieldCopy mem (shared i.toNat) (d.get ⟨i.toNat, hi⟩).type (dst.vals ⟨i.toNat, hi⟩)
        (src.vals ⟨i.toNat, hi⟩) h =
        (.ok (), v, h') → I (i + 1) (copied mark dst ⟨i.toNat, hi⟩ v) h')
    (herror : ∀ (i : UInt16) (hi : i.toNat < d.length) dst h e v h', wanted i.toNat = true →
      I i dst h →
      fieldCopy mem (shared i.toNat) (d.get ⟨i.toNat, hi⟩).type (dst.vals ⟨i.toNat, hi⟩)
        (src.vals ⟨i.toNat, hi⟩) h =
        (.error e, v, h') → E (setVal dst ⟨i.toNat, hi⟩ v) h')
    (n : ℕ) {i : UInt16} {dst dst' : StructMem d} {h h' : StringHeap} {r : Except Errno Unit}
    (hI : I i dst h) (hrun : copyFields mem shared wanted mark src n i dst h = some (r, dst', h')) :
    (r = .ok () ∧ ∃ j : UInt16, d.length ≤ j.toNat ∧ I j dst' h') ∨ (∃ e, r = .error e) ∧
    E dst' h' := by
  induction n generalizing i dst h with
  | zero => cases hrun
  | succ n ih =>
    unfold copyFields at hrun
    split at hrun
    · next hi =>
      split at hrun
      · next hwanted =>
        dsimp only at hrun
        split at hrun
        · next e v h₁ hcopy =>
          cases hrun
          exact Or.inr ⟨⟨e, rfl⟩, herror i hi dst h e v _ hwanted hI hcopy⟩
        · next v h₁ hcopy => exact ih (hstep i hi dst h v h₁ hwanted hI hcopy) hrun
      · next hwanted => exact ih (hskip i dst h hi (Bool.eq_false_iff.mpr hwanted) hI) hrun
    · next hi =>
      cases hrun
      exact Or.inl ⟨rfl, i, not_lt.mp hi, hI⟩

/-- Where the loop ends without an error, the counter has reached the number of fields. -/
lemma length_lt_of_copyFields {n : ℕ} {i : UInt16} {dst dst' : StructMem d} {h h' : StringHeap}
    (hrun : copyFields mem shared wanted mark src n i dst h = some (.ok (), dst', h')) :
    d.length < 2 ^ 16 := by
  have hend := copyFields_rule (I := fun _ _ _ => True) (E := fun _ _ => True)
    (fun _ _ _ _ _ _ => trivial)
    (fun _ _ _ _ _ _ _ _ _ => trivial) (fun _ _ _ _ _ _ _ _ _ _ => trivial) n trivial hrun
  rcases hend with ⟨-, j, hj, -⟩ | ⟨⟨e, he⟩, -⟩
  · exact hj.trans_lt j.toNat_lt
  · cases he

lemma toNat_succ (hd : d.length < 2 ^ 16) {i : UInt16} (hi : i.toNat < d.length) :
    (i + 1).toNat = i.toNat + 1 := by
  have hone : (1 : UInt16).toNat = 1 := rfl
  rw [UInt16.toNat_add, hone, Nat.mod_eq_of_lt (by omega)]

/-- On a struct with fewer than `2 ^ 16` fields the loop ends. -/
lemma copyFields_ends (hd : d.length < 2 ^ 16) (n : ℕ) {i : UInt16} (hi : i.toNat ≤ d.length)
    (hn : d.length - i.toNat < n) (dst : StructMem d) (h : StringHeap) :
    ∃ r, copyFields mem shared wanted mark src n i dst h = some r := by
  induction n generalizing i dst h with
  | zero => exact absurd hn (Nat.not_lt_zero _)
  | succ n ih =>
    unfold copyFields
    split
    · next hlt =>
      have hsucc := toNat_succ hd hlt
      have hnext : (i + 1).toNat ≤ d.length := by omega
      have hfuel : d.length - (i + 1).toNat < n := by omega
      split
      · dsimp only
        split
        · exact ⟨_, rfl⟩
        · exact ih hnext hfuel _ _
      · exact ih hnext hfuel _ _
    · exact ⟨_, rfl⟩

/-- More fuel does not change the result. -/
lemma copyFields_mono {n m : ℕ} (hnm : n ≤ m) {i : UInt16} {dst : StructMem d} {h : StringHeap}
    {r : Except Errno Unit × StructMem d × StringHeap}
    (hrun : copyFields mem shared wanted mark src n i dst h = some r) :
    copyFields mem shared wanted mark src m i dst h = some r := by
  induction n generalizing m i dst h with
  | zero => cases hrun
  | succ n ih =>
    obtain ⟨m, rfl⟩ : ∃ m', m = m' + 1 := ⟨m - 1, by omega⟩
    have hle : n ≤ m := Nat.le_of_succ_le_succ hnm
    unfold copyFields at hrun ⊢
    split at hrun
    · next hi =>
      rw [dif_pos hi]
      split at hrun
      · next hwanted =>
        rw [if_pos hwanted]
        dsimp only at hrun ⊢
        split at hrun
        · exact hrun
        · exact ih hle hrun
      · next hwanted =>
        rw [if_neg hwanted]
        exact ih hle hrun
    · next hi =>
      rw [dif_neg hi]
      exact hrun

/-- On a struct with at least `2 ^ 16` fields of which none is wanted, the loop never ends. -/
lemma copyFields_diverges (hd : 2 ^ 16 ≤ d.length) (hnone : ∀ i, wanted i = false) (n : ℕ)
    (i : UInt16)
    (dst : StructMem d) (h : StringHeap) :
    copyFields mem shared wanted mark src n i dst h = none := by
  induction n generalizing i with
  | zero => rfl
  | succ n ih =>
    have hlt : i.toNat < d.length := i.toNat_lt.trans_le hd
    unfold copyFields
    rw [dif_pos hlt, if_neg (by rw [hnone]; exact Bool.false_ne_true)]
    exact ih _

end Loop

/-! ## The strings in a merge -/

/-- A string that a field frees when it is copied: one of its old strings, unless the new array
takes it over. -/
def FreedBy (dst src : StructMem d) (k : Fin d.length) (l : ℕ) : Prop :=
  l ∈ ptrs dst k ∧ ((d.get k).type.isArray = true → l ∉ sourcePtrs src k)

/-- What a struct must be before it is merged into: it owns its strings, and its arrays have their
items. -/
structure Sound (h : StringHeap) (st : StructMem d) : Prop where
  owned : h.Owned (ptrs st)
  rep : ∀ k, (d.get k).type.Rep (st.vals k)

/-- What a source must be: its items can be read, its strings are live. -/
structure Usable (h : StringHeap) (shared : ℕ → Bool) (dst src : StructMem d) : Prop where
  readable : ∀ k : Fin d.length, (d.get k).type.Readable (shared k) (dst.vals k) (src.vals k)
  live : ∀ k, ∀ l ∈ sourcePtrs src k, h.Live l

/-- What the strings must not share for a merge to go right: no field reads a string that an earlier
one has freed, and where an array of strings is copied onto itself, it has no text. -/
structure MergeSafe (h : StringHeap) (shared wanted : ℕ → Bool) (dst src : StructMem d) : Prop where
  earlier : ∀ j k : Fin d.length, j < k → wanted j = true → wanted k = true →
    ∀ l ∈ sourcePtrs src k, ¬FreedBy dst src j l
  texts : ∀ k : Fin d.length, wanted k = true → KeepsTexts (shared k) (d.get k).type (src.vals k) h

/-- A merge that has got to a field. -/
structure Merging (shared wanted : ℕ → Bool) (mark : Bool) (src dst₀ : StructMem d)
    (h₀ : StringHeap) (i : ℕ) (dst : StructMem d) (h : StringHeap) : Prop where
  sound : Sound h dst
  kept : ∀ k : Fin d.length, (k.val < i → wanted k = false) → dst.vals k = dst₀.vals k
  bits : ∀ k < d.length, hasField dst k = (hasField dst₀ k || (mark && wanted k && decide (k < i)))
  frees : ∃ freed, h₀.Frees h freed ∧
    ∀ l, l ∈ freed ↔ ∃ k : Fin d.length, k.val < i ∧ wanted k = true ∧ FreedBy dst₀ src k l
  denotes : MergeSafe h₀ shared wanted dst₀ src → ∀ k : Fin d.length, k.val < i → wanted k = true →
    (d.get k).type.plain (value h dst k) = Obus.fieldCopy (d.get k).type (value h₀ src k)
  clean : MergeSafe h₀ shared wanted dst₀ src → h₀.fault = none → h.fault = none
  dirty : ∀ j k : Fin d.length, j < k → k.val < i → wanted j = true → wanted k = true →
    ∀ l ∈ sourcePtrs src k, FreedBy dst₀ src j l → h.fault ≠ none
  lost : ∀ k : Fin d.length, k.val < i → wanted k = true → shared k = true →
  (d.get k).type = .array .string →
    ptrs dst k = []
  origin : ∀ k, ∀ l ∈ ptrs dst k, l ∈ ptrs dst₀ k ∨ h₀.cells.length ≤ l

section Merge

variable {shared wanted : ℕ → Bool} {mark : Bool} {src dst₀ dst : StructMem d}
  {h₀ h : StringHeap} {i : ℕ}

lemma Merging.start (hsound : Sound h₀ dst₀) :
    Merging shared wanted mark src dst₀ h₀ 0 dst₀ h₀ where
  sound := hsound
  kept _ _ := rfl
  bits k _ := by simp
  frees := ⟨[], .refl h₀, fun l =>
    ⟨fun hl => absurd hl List.not_mem_nil, fun ⟨_, hk, _⟩ => absurd hk (Nat.not_lt_zero _)⟩⟩
  denotes _ _ hk := absurd hk (Nat.not_lt_zero _)
  clean _ := id
  dirty _ _ _ hk := absurd hk (Nat.not_lt_zero _)
  lost _ hk := absurd hk (Nat.not_lt_zero _)
  origin _ _ hl := Or.inl hl

lemma lt_succ_cases {k : Fin d.length} (hk : k.val < i + 1) : k.val < i ∨ k.val = i :=
  Nat.lt_succ_iff_lt_or_eq.mp hk

/-- A field that is passed over. -/
lemma Merging.skip (hm : Merging shared wanted mark src dst₀ h₀ i dst h)
    (hwanted : wanted i = false) : Merging shared wanted mark src dst₀ h₀ (i + 1) dst h := by
  have hbefore : ∀ k : Fin d.length, k.val < i + 1 → wanted k = true → k.val < i := by
    intro k hk hwant
    rcases lt_succ_cases hk with hlt | heq
    · exact hlt
    · rw [heq, hwanted] at hwant
      cases hwant
  refine ⟨hm.sound, fun k hk => hm.kept k fun hlt => hk (Nat.lt_succ_of_lt hlt), fun k hk => ?_, ?_,
    fun hsafe k hk hwant => hm.denotes hsafe k (hbefore k hk hwant) hwant, hm.clean,
    fun j k hjk hk hj hwant => hm.dirty j k hjk (hbefore k hk hwant) hj hwant,
    fun k hk hwant => hm.lost k (hbefore k hk hwant) hwant, hm.origin⟩
  · rw [hm.bits k hk]
    by_cases heq : k = i
    · rw [heq, hwanted]
      simp
    · have hiff : k < i + 1 ↔ k < i := by omega
      simp only [hiff]
  · obtain ⟨freed, hfrees, hmem⟩ := hm.frees
    refine ⟨freed, hfrees, fun l => (hmem l).trans ⟨?_, ?_⟩⟩
    · rintro ⟨k, hk, hrest⟩
      exact ⟨k, Nat.lt_succ_of_lt hk, hrest⟩
    · rintro ⟨k, hk, hwant, hrest⟩
      exact ⟨k, hbefore k hk hwant, hwant, hrest⟩

section Step

variable {k₀ : Fin d.length} {v : (d.get k₀).type.Mem}

@[simp] lemma copied_vals_self : (copied mark dst k₀ v).vals k₀ = v := by
  unfold copied
  split <;> simp

lemma copied_vals_of_ne {k : Fin d.length} (hk : k ≠ k₀) :
    (copied mark dst k₀ v).vals k = dst.vals k := by
  unfold copied
  split
  · rw [setHasField_vals, setVal_of_ne dst hk]
  · rw [setVal_of_ne dst hk]

lemma ptrs_copied_self : ptrs (copied mark dst k₀ v) k₀ = (d.get k₀).type.ptrs v := by
  rw [ptrs, copied_vals_self]

lemma ptrs_copied_of_ne {k : Fin d.length} (hk : k ≠ k₀) :
    ptrs (copied mark dst k₀ v) k = ptrs dst k := by
  rw [ptrs, copied_vals_of_ne hk, ptrs]

lemma hasField_copied (k : ℕ) :
    hasField (copied mark dst k₀ v) k = (mark && decide (k = k₀.val) || hasField dst k) := by
  unfold copied
  cases mark with
  | true =>
    rw [if_pos rfl, hasField_setHasField _ k₀.isLt]
    rfl
  | false => rfl

/-- A field that is copied, in a struct that is sound. -/
lemma Sound.copied {h' : StringHeap} {freed : List ℕ} (hsound : Sound h dst)
    (hcopy : CopiesField (d.get k₀).type (dst.vals k₀) (src.vals k₀) h v freed h') :
    Sound h' (copied mark dst k₀ v) := by
  have hmoves : h.Moves h' (ptrs dst k₀) (ptrs (Memory.copied mark dst k₀ v) k₀) freed := by
    rw [ptrs_copied_self]
    exact hcopy.moves
  refine ⟨hsound.owned.moves hmoves fun k hk => ptrs_copied_of_ne hk, fun k => ?_⟩
  · by_cases hk : k = k₀
    · subst hk
      rw [copied_vals_self]
      exact hcopy.rep
    · rw [copied_vals_of_ne hk]
      exact hsound.rep k

end Step

/-- A field that is copied. -/
lemma Merging.copy (hsound₀ : Sound h₀ dst₀) (husable : Usable h₀ shared dst₀ src)
    {k₀ : Fin d.length}
    (hm : Merging shared wanted mark src dst₀ h₀ k₀ dst h) (hwanted : wanted k₀ = true)
    {v : (d.get k₀).type.Mem} {h' : StringHeap}
    (hrun : fieldCopy mem (shared k₀) (d.get k₀).type (dst.vals k₀) (src.vals k₀) h =
      (.ok (), v, h')) :
    Merging shared wanted mark src dst₀ h₀ (k₀ + 1) (copied mark dst k₀ v) h' := by
  have hself : dst.vals k₀ = dst₀.vals k₀ := hm.kept k₀ fun hlt => absurd hlt (lt_irrefl _)
  have hreadable : (d.get k₀).type.Readable (shared k₀) (dst.vals k₀) (src.vals k₀) := by
    rw [hself]
    exact husable.readable k₀
  obtain ⟨freed, hcopy, hdenote, hlost⟩ : ∃ freed, CopiesField (d.get k₀).type (dst.vals k₀)
    (src.vals k₀) h v freed h' ∧
      ((∀ l ∈ sourcePtrs src k₀, h.Live l) →
        KeepsTexts (shared k₀) (d.get k₀).type (src.vals k₀) h →
        (d.get k₀).type.plain ((d.get k₀).type.denote h' v) = Obus.fieldCopy (d.get k₀).type
          (value h src k₀)) ∧
      (shared k₀ = true → (d.get k₀).type = .array .string → (d.get k₀).type.ptrs v = []) := by
    rcases fieldCopy_cases mem (hm.sound.rep k₀) hreadable (hm.sound.owned.nodup k₀)
      (hm.sound.owned.live k₀) with
      ⟨v', freed, h₁, hok, hrest⟩ | ⟨v', h₁, herror, -⟩
    · rw [hrun] at hok
      cases hok
      exact ⟨freed, hrest⟩
    · rw [hrun] at herror
      cases herror
  obtain ⟨freed₀, hfrees, hmem⟩ := hm.frees
  have hfreed : ∀ l, l ∈ freed ↔ FreedBy dst₀ src k₀ l := by
    intro l
    rw [hcopy.freed_iff, hself]
    rfl
  -- the strings of the source that no earlier field has freed
  have hkept : MergeSafe h₀ shared wanted dst₀ src → ∀ l ∈ sourcePtrs src k₀, h.read? l =
      h₀.read? l := by
    intro hsafe l hl
    refine hfrees.kept l (husable.live k₀ l hl).lt fun hin => ?_
    obtain ⟨j, hj, hwant, hfree⟩ := (hmem l).mp hin
    exact hsafe.earlier j k₀ hj hwant hwanted l hl hfree
  have hlive : MergeSafe h₀ shared wanted dst₀ src → ∀ l ∈ sourcePtrs src k₀, h.Live l := by
    intro hsafe l hl
    rw [CellHeap.Live, hkept hsafe l hl]
    exact husable.live k₀ l hl
  refine ⟨hm.sound.copied hcopy, fun k hk => ?_, fun k hk => ?_,
    ⟨freed₀ ++ freed, hfrees.trans hcopy.moves.frees, fun l => ?_⟩,
    fun hsafe k hk hwant => ?_, fun hsafe hclean =>
      hcopy.clean (hm.clean hsafe hclean) (hlive hsafe),
    fun j k hjk hk hj hwant l hl hfree => ?_, fun k hk hwant hsh htype => ?_, fun k l hl => ?_⟩
  · have hne : k ≠ k₀ := by
      rintro rfl
      rw [hk (Nat.lt_succ_self _)] at hwanted
      cases hwanted
    rw [copied_vals_of_ne hne]
    exact hm.kept k fun hlt => hk (Nat.lt_succ_of_lt hlt)
  · rw [hasField_copied, hm.bits k hk]
    by_cases heq : k = k₀.val
    · rw [heq, hwanted]
      cases mark <;> simp
    · have hiff : k < k₀.val + 1 ↔ k < k₀.val := by omega
      simp only [hiff, decide_eq_false heq, Bool.and_false, Bool.false_or]
  · rw [List.mem_append, hmem, hfreed]
    constructor
    · rintro (⟨k, hk, hrest⟩ | hfree)
      · exact ⟨k, Nat.lt_succ_of_lt hk, hrest⟩
      · exact ⟨k₀, Nat.lt_succ_self _, hwanted, hfree⟩
    · rintro ⟨k, hk, hwant, hfree⟩
      rcases lt_succ_cases hk with hlt | heq
      · exact Or.inl ⟨k, hlt, hwant, hfree⟩
      · obtain rfl : k = k₀ := Fin.ext heq
        exact Or.inr hfree
  · rcases lt_succ_cases hk with hlt | heq
    · have hne : k ≠ k₀ := fun h => absurd (h ▸ hlt) (lt_irrefl _)
      have hsame : value h' (copied mark dst k₀ v) k = value h dst k := by
        rw [value, copied_vals_of_ne hne]
        refine fieldDenote_congr fun l hl => ?_
        have hin : l ∈ ptrs dst k := sourcePtrs_subset hl
        refine hcopy.moves.frees.kept l (hm.sound.owned.live k l hin).lt fun hfree => ?_
        exact hm.sound.owned.apart k k₀ hne l hin (hcopy.moves.freed_mem l hfree).1
      rw [hsame]
      exact hm.denotes hsafe k hlt hwant
    · obtain rfl : k = k₀ := Fin.ext heq
      have hsource : value h src k = value h₀ src k := fieldDenote_congr (hkept hsafe)
      rw [value, copied_vals_self, ← hsource]
      refine hdenote (hlive hsafe) fun hsh htype l hl => ?_
      rw [hkept hsafe l hl]
      exact hsafe.texts k hwant hsh htype l hl
  · rcases lt_succ_cases hk with hlt | heq
    · exact hcopy.moves.frees.faulted (hm.dirty j k hjk hlt hj hwant l hl hfree)
    · obtain rfl : k = k₀ := Fin.ext heq
      have hlt := (husable.live k l hl).lt
      have hdead : h.read? l = none := hfrees.dead l ((hmem l).mpr ⟨j, hjk, hj, hfree⟩) hlt
      refine hcopy.dirty l hl (hlt.trans_le hfrees.grows) hdead fun hown => ?_
      rw [hself] at hown
      exact hsound₀.owned.apart j k hjk.ne l hfree.1 hown
  · rcases lt_succ_cases hk with hlt | heq
    · have hne : k ≠ k₀ := fun h => absurd (h ▸ hlt) (lt_irrefl _)
      rw [ptrs_copied_of_ne hne]
      exact hm.lost k hlt hwant hsh htype
    · obtain rfl : k = k₀ := Fin.ext heq
      rw [ptrs_copied_self]
      exact hlost hsh htype
  · by_cases hne : k = k₀
    · subst hne
      rw [ptrs_copied_self] at hl
      rcases hcopy.moves.source l hl with hold | hfresh
      · exact hm.origin k l hold
      · exact Or.inr (hfrees.grows.trans hfresh)
    · rw [ptrs_copied_of_ne hne] at hl
      exact hm.origin k l hl

/-- A merge or a copy that has ended. -/
lemma copyFields_merging (hsound : Sound h₀ dst₀) (husable : Usable h₀ shared dst₀ src) {n : ℕ}
    (hrun : copyFields mem shared wanted mark src n 0 dst₀ h₀ = some (.ok (), dst, h)) :
    Merging shared wanted mark src dst₀ h₀ d.length dst h := by
  have hd := length_lt_of_copyFields hrun
  have hend := copyFields_rule
    (I := fun j dst h => j.toNat ≤ d.length ∧ Merging shared wanted mark src dst₀ h₀ j.toNat dst h)
      (E := fun _ _ => True)
    ?_ ?_ (fun _ _ _ _ _ _ _ _ _ _ => trivial) n ⟨Nat.zero_le _, .start hsound⟩ hrun
  · rcases hend with ⟨-, j, hj, hle, hm⟩ | ⟨⟨e, he⟩, -⟩
    · rwa [← le_antisymm hj hle] at hm
    · cases he
  · rintro j dst h hj hwanted ⟨-, hm⟩
    rw [toNat_succ hd hj]
    exact ⟨hj, hm.skip hwanted⟩
  · rintro j hj dst h v h' hwanted ⟨-, hm⟩ hcopy
    rw [toNat_succ hd hj]
    have hnext : Merging shared wanted mark src dst₀ h₀
        ((⟨j.toNat, hj⟩ : Fin d.length).val + 1) _ _ :=
      hm.copy hsound husable hwanted hcopy
    exact ⟨hj, hnext⟩

end Merge

end Memory

end Obus
