import Obus.MemoryMerge

/-!
# Merging a struct that shares strings

An update may be built out of the strings of the object that it is merged into.  An array takes such
a string over from the old array, and a string that it does not find there is duplicated, so that
the order of the items does not matter.  But the fields are copied one after the other: a string
that an earlier field has freed is gone for a later one, and an array of strings that is copied onto
itself loses each string before it takes it over.  Otherwise a merge goes right
(`aliased_merge_right_iff`).
-/

namespace Obus

namespace Memory

variable {mem : ℕ → Bool} {d : StructDesc}

/-- A merge as it should be: the present fields have the content of the source, absent strings taken
for empty ones; every string is live and owned by one field; and no string was used or freed after
it was freed. -/
structure MergedRight (h : StringHeap) (src dst' : StructMem d) (h' : StringHeap) : Prop where
  present : ∀ k : Fin d.length, hasField src k = true → hasField dst' k = true
  content : ∀ k : Fin d.length, hasField src k = true →
    (d.get k).type.plain (value h' dst' k) = Obus.fieldCopy (d.get k).type (value h src k)
  owned : h'.Owned (ptrs dst')
  clean : h'.fault = none

/-- Items without strings of the heap denote empty texts. -/
lemma plain_of_no_ptrs {h : StringHeap} {p : StrPtr} (hp : BaseType.ptrs .string p = []) :
    BaseType.plain .string (BaseType.denote h .string p) = some (CString.ofBytes []) := by
  cases p with
  | cell l => cases hp
  | _ => rfl

/-- A copy that has no strings of the heap has the content of its source only where that has no
text. -/
lemma texts_of_no_ptrs {h h' : StringHeap} {t : FieldType} (ht : t = .array .string) {v src : t.Mem}
    (hptrs : t.ptrs v = []) (hsame : t.plain (t.denote h' v) = Obus.fieldCopy t (t.denote h src))
    (hlive : ∀ l ∈ t.sourcePtrs src, h.Live l) :
    ∀ l ∈ t.sourcePtrs src, h.read? l = some (CString.ofBytes []) := by
  subst ht
  intro l hl
  obtain ⟨p, hp, hlp⟩ := mem_itemPtrs.mp hl
  obtain rfl : p = .cell l := by
    cases p with
    | cell l' => rw [List.mem_singleton.mp hlp]
    | _ => exact absurd hlp List.not_mem_nil
  have hitems : (v.sources.map (BaseType.denote h' .string)).map (BaseType.plain .string) =
      (src.sources.map (BaseType.denote h .string)).map (Obus.copyValue .string) :=
    congrArg ArrayVal.items hsame
  have hmem : some ((h.read? l).getD (CString.ofBytes [])) ∈
      (v.sources.map (BaseType.denote h' .string)).map (BaseType.plain .string) := by
    rw [hitems, List.map_map]
    exact List.mem_map.mpr ⟨_, hp, rfl⟩
  obtain ⟨text, htext, heq⟩ := List.mem_map.mp hmem
  obtain ⟨q, hq, rfl⟩ := List.mem_map.mp htext
  have hnone : BaseType.ptrs .string q = [] := by
    refine List.eq_nil_iff_forall_not_mem.mpr fun l' hl' => ?_
    have hin : l' ∈ (FieldType.array .string).ptrs v :=
      mem_itemPtrs.mpr ⟨q, List.mem_of_mem_take hq, hl'⟩
    rw [hptrs] at hin
    exact List.not_mem_nil hin
  rw [plain_of_no_ptrs hnone] at heq
  obtain ⟨s, hs⟩ := Option.isSome_iff_exists.mp (hlive l hl)
  rw [hs] at heq ⊢
  exact heq.symm

/-- A merge that has ended is right exactly if no field reads a string that an earlier one has
freed, and where an array of strings is copied onto itself, all its strings are empty. -/
theorem aliased_merge_right_iff {shared : ℕ → Bool} {dst src dst' : StructMem d} {h h' : StringHeap}
    {fuel : ℕ} (hsound : Sound h dst) (husable : Usable h shared dst src) (hclean : h.fault = none)
    (hrun : structMerge mem shared fuel dst src h = some (.ok (), dst', h')) :
    MergedRight h src dst' h' ↔ MergeSafe h shared (hasField src) dst src := by
  have hm : Merging shared (hasField src) true src dst h d.length dst' h' :=
    copyFields_merging hsound husable hrun
  constructor
  · intro hright
    refine ⟨fun j k hjk hj hk l hl hfree => ?_, fun k hk hsh htype => ?_⟩
    · exact hm.dirty j k hjk k.isLt hj hk l hl hfree hright.clean
    · exact texts_of_no_ptrs htype (hm.lost k k.isLt hk hsh htype) (hright.content k hk)
        (husable.live k)
  · intro hsafe
    refine ⟨fun k hk => ?_, fun k hk => hm.denotes hsafe k k.isLt hk, hm.sound.owned,
      hm.clean hsafe hclean⟩
    rw [hm.bits k k.isLt, hk, decide_eq_true k.isLt]
    simp

/-! ## Strings that change places -/

/-- A struct with one field, which is present. -/
def oneField (t : FieldType) (v : t.Mem) : StructMem [⟨1, .property, t, none⟩] :=
  ⟨fun | ⟨0, _⟩ => v, [1], Nat.le_of_ble_eq_true rfl⟩

/-- A struct with two texts, which are present. -/
def twoTexts (p q : StrPtr) :
    StructMem [⟨1, .property, .value .string, none⟩, ⟨2, .property, .value .string, none⟩] :=
  ⟨fun | ⟨0, _⟩ => p | ⟨1, _⟩ => q, [3], by decide⟩

/-- A heap with two texts. -/
def twoCells : StringHeap := { cells := [some (CString.ofBytes [97]), some (CString.ofBytes [98])] }

/-- An array of two texts. -/
def pairOf (p q : StrPtr) : ArrayMem .string := ⟨2, some [p, q]⟩

/-- A pointer to one of the two texts. -/
def ToText (p : StrPtr) : Prop := p = .cell 0 ∨ p = .cell 1

lemma ToText.live {p : StrPtr} (hp : ToText p) :
    ∀ l ∈ BaseType.ptrs .string p, CellHeap.Live twoCells l := by
  rcases hp with rfl | rfl
  · exact List.forall_mem_singleton.mpr rfl
  · exact List.forall_mem_singleton.mpr rfl

lemma pairOf_live {p q : StrPtr} (hp : ToText p) (hq : ToText q) :
    ∀ l ∈ itemPtrs (pairOf p q).items, CellHeap.Live twoCells l := by
  intro l hl
  obtain ⟨r, hr, hlr⟩ := mem_itemPtrs.mp hl
  rcases List.mem_cons.mp hr with rfl | hr
  · exact hp.live l hlr
  · rw [List.mem_singleton.mp hr] at hlr
    exact hq.live l hlr

lemma pairOf_sound : Sound twoCells (oneField (.array .string) (pairOf (.cell 0) (.cell 1))) := by
  refine ⟨⟨fun k => ?_, fun k => ?_, fun i j hij => ?_⟩, fun k => ?_⟩
  · obtain rfl : k = 0 := Fin.eq_zero k
    exact (by decide : [0, 1].Nodup)
  · obtain rfl : k = 0 := Fin.eq_zero k
    exact pairOf_live (.inl rfl) (.inr rfl)
  · exact absurd ((Fin.eq_zero i).trans (Fin.eq_zero j).symm) hij
  · obtain rfl : k = 0 := Fin.eq_zero k
    exact ⟨rfl, iff_of_false (Option.some_ne_none _) (by decide)⟩

lemma pairOf_usable (shared : ℕ → Bool) {p q : StrPtr} (hp : ToText p) (hq : ToText q)
    (hshared : shared 0 = true → pairOf p q = pairOf (.cell 0) (.cell 1)) :
    Usable twoCells shared (oneField (.array .string) (pairOf (.cell 0) (.cell 1)))
      (oneField (.array .string) (pairOf p q)) := by
  refine ⟨fun k => ?_, fun k => ?_⟩
  · obtain rfl : k = 0 := Fin.eq_zero k
    exact ⟨le_rfl, fun hsh => congrArg ArrayMem.array (hshared hsh)⟩
  · obtain rfl : k = 0 := Fin.eq_zero k
    exact pairOf_live hp hq

/-- Two strings of an array change places. -/
theorem aliased_merge_right_iff_pair :
    ∃ dst' h', structMerge (fun _ => true) (fun _ => false) 2
      (oneField (.array .string) (pairOf (.cell 0) (.cell 1)))
        (oneField (.array .string) (pairOf (.cell 1) (.cell 0))) twoCells =
          some (.ok (), dst', h') ∧
      MergedRight twoCells (oneField (.array .string) (pairOf (.cell 1) (.cell 0))) dst' h' := by
  obtain ⟨dst', h', hrun⟩ : ∃ dst' h', structMerge (fun _ => true) (fun _ => false) 2
      (oneField (.array .string) (pairOf (.cell 0) (.cell 1)))
        (oneField (.array .string) (pairOf (.cell 1) (.cell 0)))
      twoCells = some (.ok (), dst', h') := ⟨_, _, rfl⟩
  have husable := pairOf_usable (fun _ => false) (.inr rfl) (.inl rfl) fun h =>
    absurd h Bool.false_ne_true
  refine ⟨dst', h', hrun, (aliased_merge_right_iff pairOf_sound husable rfl hrun).mpr
    ⟨fun j k hjk => ?_, fun _ _ h => ?_⟩⟩
  · exact absurd hjk (by rw [Fin.eq_zero j, Fin.eq_zero k]; exact lt_irrefl _)
  · exact absurd h Bool.false_ne_true

lemma twoTexts_sound : Sound twoCells (twoTexts (.cell 0) (.cell 1)) := by
  refine ⟨⟨fun k => ?_, fun k => ?_, fun i j hij => ?_⟩, fun k => ?_⟩
  · rcases k with ⟨_ | _ | k, hk⟩
    · exact List.nodup_singleton 0
    · exact List.nodup_singleton 1
    · exact absurd hk (Nat.not_lt.mpr (Nat.le_add_left 2 k))
  · rcases k with ⟨_ | _ | k, hk⟩
    · exact ToText.live (.inl rfl)
    · exact ToText.live (.inr rfl)
    · exact absurd hk (Nat.not_lt.mpr (Nat.le_add_left 2 k))
  · rcases i with ⟨_ | _ | i, hi⟩ <;> rcases j with ⟨_ | _ | j, hj⟩
    · exact absurd rfl hij
    · exact (by decide : ∀ l ∈ [0], l ∉ [1])
    · exact absurd hj (Nat.not_lt.mpr (Nat.le_add_left 2 j))
    · exact (by decide : ∀ l ∈ [1], l ∉ [0])
    · exact absurd rfl hij
    · exact absurd hj (Nat.not_lt.mpr (Nat.le_add_left 2 j))
    all_goals exact absurd hi (Nat.not_lt.mpr (Nat.le_add_left 2 i))
  · rcases k with ⟨_ | _ | k, hk⟩
    · trivial
    · trivial
    · exact absurd hk (Nat.not_lt.mpr (Nat.le_add_left 2 k))

lemma twoTexts_usable : Usable twoCells (fun _ => false) (twoTexts (.cell 0) (.cell 1))
    (twoTexts (.cell 1) (.cell 0)) := by
  refine ⟨fun k => ?_, fun k => ?_⟩
  · rcases k with ⟨_ | _ | k, hk⟩
    · trivial
    · trivial
    · exact absurd hk (Nat.not_lt.mpr (Nat.le_add_left 2 k))
  · rcases k with ⟨_ | _ | k, hk⟩
    · exact ToText.live (.inr rfl)
    · exact ToText.live (.inl rfl)
    · exact absurd hk (Nat.not_lt.mpr (Nat.le_add_left 2 k))

/-- Where two texts change places, the second one is read after it was freed; and an array of texts
that is copied onto itself loses them. -/
theorem swapped_texts_not_merged :
    (Sound twoCells (twoTexts (.cell 0) (.cell 1)) ∧
      Usable twoCells (fun _ => false) (twoTexts (.cell 0) (.cell 1))
        (twoTexts (.cell 1) (.cell 0)) ∧
      ∃ dst' h', structMerge (fun _ => true) (fun _ => false) 3 (twoTexts (.cell 0) (.cell 1))
          (twoTexts (.cell 1) (.cell 0)) twoCells = some (.ok (), dst', h') ∧
        ¬MergedRight twoCells (twoTexts (.cell 1) (.cell 0)) dst' h') ∧
    Sound twoCells (oneField (.array .string) (pairOf (.cell 0) (.cell 1))) ∧
      Usable twoCells (fun _ => true) (oneField (.array .string) (pairOf (.cell 0) (.cell 1)))
        (oneField (.array .string) (pairOf (.cell 0) (.cell 1))) ∧
      ∃ dst' h', structMerge (fun _ => true) (fun _ => true) 2
          (oneField (.array .string) (pairOf (.cell 0) (.cell 1)))
          (oneField (.array .string) (pairOf (.cell 0) (.cell 1))) twoCells =
            some (.ok (), dst', h') ∧
        ¬MergedRight twoCells (oneField (.array .string) (pairOf (.cell 0) (.cell 1))) dst' h' := by
  refine ⟨⟨twoTexts_sound, twoTexts_usable, _, _, rfl, fun hright => ?_⟩, pairOf_sound,
    pairOf_usable _ (.inl rfl) (.inr rfl) fun _ => rfl, _, _, rfl, fun hright => ?_⟩
  · cases hright.clean
  · have hcontent := hright.content 0 rfl
    cases hcontent

end Memory

end Obus
