import Obus.Memory

/-!
# Copies in memory

What the copies of `Memory.lean` do to the strings of a struct and to their heap.  A field owns the
strings that it points to; after a copy it owns fresh ones, or those that were taken over from its
old array, and the others were freed (`fieldCopy_moves`).  The copy denotes what its source denoted,
and no fault occurs, if the strings that it reads are live (`fieldCopy_denote`, `fieldCopy_clean`).
-/

namespace Obus

/-! ## The strings and the value of a field -/

/-- The cells that a value points to. -/
def BaseType.ptrs : (t : BaseType) → t.Mem → List ℕ
  | .string, .cell l => [l]
  | _, _ => []

/-- The cells that the items of an array point to. -/
def itemPtrs {t : BaseType} (items : List t.Mem) : List ℕ := items.flatMap t.ptrs

/-- The items of an array. -/
def ArrayMem.items {t : BaseType} (v : ArrayMem t) : List t.Mem := v.array.getD []

/-- The cells that a field points to. -/
def FieldType.ptrs : (t : FieldType) → t.Mem → List ℕ
  | .value t, v => t.ptrs v
  | .array _, v => itemPtrs v.items

/-- What a value denotes in a heap. -/
def BaseType.denote (h : StringHeap) : (t : BaseType) → t.Mem → t.Cell
  | .u8, v | .i8, v | .bool, v => v
  | .u16, v | .i16, v => v
  | .u32, v | .i32, v | .enum, v | .f32, v => v
  | .u64, v | .i64, v | .f64, v => v
  | .string, .null => none
  | .string, .empty => some (CString.ofBytes [])
  | .string, .cell l => h.read? l

/-- The items of an array that its count tells of. -/
def ArrayMem.sources {t : BaseType} (v : ArrayMem t) : List t.Mem := v.items.take v.nItems.toNat

/-- What a field denotes in a heap. -/
def FieldType.denote (h : StringHeap) : (t : FieldType) → t.Mem → t.Val
  | .value t, v => t.denote h v
  | .array t, v => ⟨v.nItems, v.sources.map (t.denote h)⟩

/-- The count of an array is the number of its items, and the pointer is `NULL` exactly when it is
0. -/
structure ArrayMem.Rep {t : BaseType} (v : ArrayMem t) : Prop where
  length : v.items.length = v.nItems.toNat
  null : v.array = none ↔ v.nItems = 0

/-- An array field has its items. -/
def FieldType.Rep : (t : FieldType) → t.Mem → Prop
  | .value _, _ => True
  | .array _, v => v.Rep

/-- An absent string is taken for the empty one. -/
def BaseType.plain : (t : BaseType) → t.Cell → t.Cell
  | .string, v => some (Option.getD v (CString.ofBytes []))
  | _, v => v

/-- The value of a field with absent strings taken for empty ones. -/
def FieldType.plain : (t : FieldType) → t.Val → t.Val
  | .value t, v => t.plain v
  | .array t, v => ⟨v.nItems, v.items.map t.plain⟩

def FieldType.isArray : FieldType → Bool
  | .value _ => false
  | .array _ => true

/-- The items of a source can be read; a shared array is the one of the destination. -/
def FieldType.Readable (shared : Bool) : (t : FieldType) → (dst src : t.Mem) → Prop
  | .value _, _, _ => True
  | .array _, dst, src =>
    src.nItems.toNat ≤ src.items.length ∧ (shared = true → src.array = dst.array)

/-- The cells that a copy of a field reads. -/
def FieldType.sourcePtrs : (t : FieldType) → t.Mem → List ℕ
  | .value t, v => t.ptrs v
  | .array _, v => itemPtrs v.sources

namespace Memory

variable (mem : ℕ → Bool) {h : StringHeap}

lemma BaseType.ptrs_of_ne {t : BaseType} (ht : t ≠ .string) (v : t.Mem) : t.ptrs v = [] := by
  cases t with
  | string => exact absurd rfl ht
  | _ => rfl

lemma nodup_ptrs (t : BaseType) (v : t.Mem) : (t.ptrs v).Nodup := by
  cases t with
  | string => cases v <;> simp [BaseType.ptrs]
  | _ => exact List.nodup_nil

/-- A value denotes the same in a heap in which its string has not changed. -/
lemma denote_congr {h h' : StringHeap} {t : BaseType} {v : t.Mem}
    (hsame : ∀ l ∈ t.ptrs v, h'.read? l = h.read? l) : t.denote h' v = t.denote h v := by
  cases t with
  | string =>
    cases v with
    | cell l => exact hsame l List.mem_cons_self
    | _ => rfl
  | _ => rfl

/-! ## Values -/

lemma frees_freeString (p : StrPtr) (h : StringHeap) :
    h.Frees (freeString p h) (BaseType.ptrs .string p) := by
  cases p with
  | cell l => exact CellHeap.frees_free l h
  | _ => exact .refl h

lemma freeString_clean {p : StrPtr} (hclean : h.fault = none)
    (hlive : ∀ l ∈ BaseType.ptrs .string p, h.Live l) : (freeString p h).fault = none := by
  cases p with
  | cell l => exact (CellHeap.free_fault (hlive l List.mem_cons_self)).trans hclean
  | _ => exact hclean

/-- What a copy of a value does: the old string is freed, and the new one is fresh. -/
structure CopiesValue (t : BaseType) (dst src : t.Mem) (h : StringHeap) (v : t.Mem)
    (h' : StringHeap) : Prop where
  moves : h.Moves h' (t.ptrs dst) (t.ptrs v) (t.ptrs dst)
  fresh : ∀ l ∈ t.ptrs v, h.cells.length ≤ l
  denote : (∀ l ∈ t.ptrs src, h.Live l) → t.denote h' v = Obus.copyValue t (t.denote h src)
  clean : h.fault = none → (∀ l ∈ t.ptrs src, h.Live l) → h'.fault = none
  dirty : ∀ l ∈ t.ptrs src, h.read? l = none → h'.fault ≠ none

/-- A string is copied, or there is no memory for the copy. -/
lemma copyString_cases {dst : StrPtr} (src : StrPtr)
    (hdst : ∀ l ∈ BaseType.ptrs .string dst, h.Live l) :
    (∃ v h', copyString mem dst src h = (.ok (), v, h') ∧ CopiesValue .string dst src h v h') ∨
      ∃ h', copyString mem dst src h = (.error .enomem, dst, h') ∧ h.Frees h' [] ∧
        (h.fault = none → (∀ l ∈ BaseType.ptrs .string src, h.Live l) → h'.fault = none) := by
  have hempty : CopiesValue .string dst .empty h .empty (freeString dst h) :=
    ⟨⟨frees_freeString dst h, fun l hl => ⟨hl, List.not_mem_nil⟩, List.nodup_nil,
      fun _ hl => absurd hl List.not_mem_nil,
      fun _ hl => absurd hl List.not_mem_nil⟩, fun _ hl => absurd hl List.not_mem_nil, fun _ => rfl,
      fun hclean _ => freeString_clean hclean hdst, fun _ hl => absurd hl List.not_mem_nil⟩
  cases src with
  | null =>
    exact Or.inl ⟨_, _, rfl, hempty.moves, hempty.fresh, fun _ => rfl, hempty.clean, hempty.dirty⟩
  | empty => exact Or.inl ⟨_, _, rfl, hempty⟩
  | cell l =>
    -- the heap after the string of the source was read
    let h₁ := if (h.read? l).isNone then h.crash .usedFreed else h
    have hread : h.Frees h₁ [] := by
      change h.Frees (if (h.read? l).isNone then h.crash .usedFreed else h) []
      split
      · exact CellHeap.frees_crash _ h
      · exact .refl h
    have hcells : h₁.cells = h.cells := by
      change (if (h.read? l).isNone then h.crash .usedFreed else h).cells = h.cells
      split <;> rfl
    have hlive : (∀ l' ∈ BaseType.ptrs .string (.cell l), h.Live l') → h₁ = h := by
      intro hsrc
      exact if_neg fun hnone =>
        (hsrc l List.mem_cons_self).ne_none (Option.isNone_iff_eq_none.mp hnone)
    let text := (h₁.read? l).getD (CString.ofBytes [])
    have halloc := CellHeap.frees_alloc mem text h₁
    have hfault := CellHeap.alloc_fault mem text h₁
    have hnew : ∀ {l' h₂}, h₁.alloc mem text = (some l', h₂) →
        copyString mem dst (.cell l) h = (.ok (), .cell l', freeString dst h₂) := by
      intro l' h₂ hrun
      simp only [h₁, text] at hrun
      simp only [copyString, hrun]
    have hnone : ∀ {h₂}, h₁.alloc mem text = (none, h₂) →
        copyString mem dst (.cell l) h = (.error .enomem, dst, h₂) := by
      intro h₂ hrun
      simp only [h₁, text] at hrun
      simp only [copyString, hrun]
    rcases CellHeap.alloc_cases mem text h₁ with ⟨-, hsome, hcontent⟩ | ⟨-, hfail⟩
    · refine Or.inl ⟨.cell h.cells.length, freeString dst (h₁.alloc mem text).2, ?_, ?_⟩
      · rw [← hcells]
        exact hnew (Prod.ext hsome rfl)
      · have hfrees : h.Frees (freeString dst (h₁.alloc mem text).2)
            (BaseType.ptrs .string dst) := by
          have hall := (hread.trans halloc).trans (frees_freeString dst (h₁.alloc mem text).2)
          simpa using hall
        have hnot : h.cells.length ∉ BaseType.ptrs .string dst :=
          fun hl => lt_irrefl _ (hdst _ hl).lt
        have hkept : (freeString dst (h₁.alloc mem text).2).read? h.cells.length = some text := by
          rw [← hcells] at hnot ⊢
          have hgrown : h₁.cells.length < (h₁.alloc mem text).2.cells.length :=
            (CellHeap.live_of_ne_none (by rw [hcontent]; exact Option.some_ne_none _)).lt
          rw [(frees_freeString dst (h₁.alloc mem text).2).kept _ hgrown hnot, hcontent]
        refine ⟨⟨hfrees, fun l' hl' => ⟨hl', fun hnew => ?_⟩, List.nodup_singleton _, fun l' hl' =>
          ?_, fun l' hl' => ?_⟩,
          fun l' hl' => ?_, fun hsrc => ?_, fun hclean hsrc => ?_, fun l' hl' hdead => ?_⟩
        · rw [List.mem_singleton.mp hnew] at hl'
          exact hnot hl'
        · rw [List.mem_singleton.mp hl']
          exact CellHeap.live_of_ne_none (by rw [hkept]; exact Option.some_ne_none _)
        · exact Or.inr (List.mem_singleton.mp hl').ge
        · exact (List.mem_singleton.mp hl').ge
        · change (freeString dst (h₁.alloc mem text).2).read? h.cells.length =
              some ((h.read? l).getD _)
          rw [hkept, ← hlive hsrc]
        · refine freeString_clean ?_ fun l' hl' => ?_
          · rw [hfault, hlive hsrc, hclean]
          · exact (hread.trans halloc).stays_live (hdst l' hl') List.not_mem_nil
        · rw [List.mem_singleton.mp hl'] at hdead
          refine (halloc.trans (frees_freeString dst _)).faulted ?_
          change (if (h.read? l).isNone then h.crash .usedFreed else h).fault ≠ none
          rw [hdead]
          exact Option.some_ne_none _
    · refine Or.inr ⟨(h₁.alloc mem text).2, ?_, hread.trans halloc, fun hclean hsrc => ?_⟩
      · exact hnone (Prod.ext hfail rfl)
      · rw [hfault, hlive hsrc, hclean]

/-- A value without a string is stored. -/
lemma CopiesValue.word {t : BaseType} (ht : t ≠ .string) (dst : t.Mem) {src v : t.Mem}
    (hv : t.denote h v = Obus.copyValue t (t.denote h src)) : CopiesValue t dst src h v h := by
  have hnil : ∀ w : t.Mem, t.ptrs w = [] := BaseType.ptrs_of_ne ht
  refine ⟨?_, ?_, fun _ => hv, fun hclean _ => hclean, ?_⟩
  · rw [hnil, hnil]
    exact ⟨.refl h, fun _ hl => absurd hl List.not_mem_nil, List.nodup_nil,
      fun _ hl => absurd hl List.not_mem_nil,
      fun _ hl => absurd hl List.not_mem_nil⟩
  · rw [hnil]
    exact fun _ hl => absurd hl List.not_mem_nil
  · rw [hnil]
    exact fun _ hl => absurd hl List.not_mem_nil

/-- A value is copied, or there is no memory for the copy. -/
lemma copyValue_cases (t : BaseType) {dst : t.Mem} (src : t.Mem)
    (hdst : ∀ l ∈ t.ptrs dst, h.Live l) :
    (∃ v h', copyValue mem t dst src h = (.ok (), v, h') ∧ CopiesValue t dst src h v h') ∨
      ∃ h', copyValue mem t dst src h = (.error .enomem, dst, h') ∧ h.Frees h' [] ∧
        (h.fault = none → (∀ l ∈ t.ptrs src, h.Live l) → h'.fault = none) := by
  cases t with
  | string => exact copyString_cases mem src hdst
  | bool => exact Or.inl ⟨_, h, rfl, .word (by decide) dst rfl⟩
  | _ => exact Or.inl ⟨_, h, rfl, .word (by decide) dst rfl⟩

/-! ## The items of an array -/

lemma itemPtrs_cons {t : BaseType} (v : t.Mem) (items : List t.Mem) :
    itemPtrs (v :: items) = t.ptrs v ++ itemPtrs items := rfl

lemma mem_itemPtrs {t : BaseType} {items : List t.Mem} {l : ℕ} :
    l ∈ itemPtrs items ↔ ∃ v ∈ items, l ∈ t.ptrs v :=
  List.mem_flatMap

/-- Where an item is cleared, the array loses the string of the item. -/
lemma itemPtrs_set {items : List StrPtr} {j : ℕ} {p : StrPtr} (hj : items[j]? = some p) :
    (itemPtrs (t := BaseType.string) items).Perm
      (BaseType.ptrs .string p ++ itemPtrs (t := BaseType.string) (items.set j StrPtr.null)) := by
  induction items generalizing j with
  | nil => cases hj
  | cons q items ih =>
    cases j with
    | zero =>
      cases hj
      exact .refl _
    | succ j =>
      rw [List.set_cons_succ, itemPtrs_cons, itemPtrs_cons, ← List.append_assoc]
      refine ((ih hj).append_left _).trans ?_
      rw [← List.append_assoc]
      exact List.perm_append_comm.append_right _

/-- The fields of an array whose items were changed in place. -/
@[simp] lemma getD_map_set {α : Type} (a : Option (List α)) (j : ℕ) (v : α) :
    (a.map fun items => items.set j v).getD [] = (a.getD []).set j v := by
  cases a <;> rfl

lemma readItem_eq {t : BaseType} {a : Option (List t.Mem)} {i : ℕ} {v : t.Mem}
    (hv : (a.getD [])[i]? = some v) (h : StringHeap) : readItem a i h = (v, h) := by
  rw [readItem, item?, hv]

/-- What one round of the copy of an array does: the new item takes over the pointer of the source
from the old array, or is a copy. -/
structure CopiesItem (t : BaseType) (src : t.Mem) (old : List t.Mem) (h : StringHeap) (v : t.Mem)
    (old' : List t.Mem) (h' : StringHeap) : Prop where
  frees : h.Frees h' []
  length : old'.length = old.length
  taken : ((itemPtrs old).Perm (t.ptrs v ++ itemPtrs old') ∧ h' = h ∧ v = src) ∨
    (old' = old ∧ (∀ l ∈ t.ptrs v, h.cells.length ≤ l ∧ h'.Live l) ∧
      ∀ l ∈ t.ptrs src, l ∉ itemPtrs old)
  denote : (∀ l ∈ t.ptrs src, h.Live l) →
    t.plain (t.denote h' v) = Obus.copyValue t (t.denote h src)
  clean : h.fault = none → (∀ l ∈ t.ptrs src, h.Live l) → h'.fault = none
  dirty : ∀ l ∈ t.ptrs src, h.read? l = none → l ∉ itemPtrs old → h'.fault ≠ none

/-- A copy has no absent string. -/
lemma plain_copyValue (t : BaseType) (v : t.Cell) :
    t.plain (Obus.copyValue t v) = Obus.copyValue t v := by
  cases t <;> rfl

/-- The new item is a copy. -/
lemma CopiesValue.item {t : BaseType} {src v : t.Mem} {h' : StringHeap}
    (hcopy : CopiesValue t t.newItem src h v h')
    {old : List t.Mem} (hsrc : ∀ l ∈ t.ptrs src, l ∉ itemPtrs old) :
    CopiesItem t src old h v old h' := by
  have hnil : t.ptrs t.newItem = [] := by cases t <;> rfl
  have hfrees := hcopy.moves.frees
  rw [hnil] at hfrees
  refine ⟨hfrees, rfl, Or.inr ⟨rfl, fun l hl => ⟨hcopy.fresh l hl, hcopy.moves.live l hl⟩, hsrc⟩,
    fun hlive => ?_,
    hcopy.clean, fun l hl hdead _ => hcopy.dirty l hl hdead⟩
  rw [hcopy.denote hlive, plain_copyValue]

section Items

variable {t : BaseType} {shared : Bool} {src dst : Option (List t.Mem)} {nDst i : ℕ} {p : t.Mem}

/-- Where an item is not taken over, it is copied. -/
lemma copyItem_copied (hp : ((if shared then dst else src).getD [])[i]? = some p)
    (href : fieldArrayRefValue t shared src dst nDst i h = (none, dst, h))
    (hsrc : ∀ l ∈ t.ptrs p, l ∉ itemPtrs (dst.getD [])) :
    (∃ v h', copyItem mem t shared src dst nDst i h = (.ok v, dst, h') ∧
      CopiesItem t p (dst.getD []) h v (dst.getD []) h') ∨
      ∃ h', copyItem mem t shared src dst nDst i h = (.error .enomem, dst, h') ∧ h.Frees h' [] ∧
        (h.fault = none → (∀ l ∈ t.ptrs p, h.Live l) → h'.fault = none) := by
  have hnil : t.ptrs t.newItem = [] := by cases t <;> rfl
  have hnew : ∀ l ∈ t.ptrs t.newItem, h.Live l := by
    rw [hnil]
    exact fun _ hl => absurd hl List.not_mem_nil
  rcases copyValue_cases mem t p hnew with ⟨v, h', hrun, hcopy⟩ | ⟨h', hrun, hfrees, hclean⟩
  · refine Or.inl ⟨v, h', ?_, hcopy.item hsrc⟩
    unfold copyItem
    rw [href]
    simp only [readItem_eq hp, hrun]
  · refine Or.inr ⟨h', ?_, hfrees, hclean⟩
    unfold copyItem
    rw [href]
    simp only [readItem_eq hp, hrun]

/-- One round of the copy of an array that is not the one of the destination, or has no strings. -/
lemma copyItem_cases (hp : ((if shared then dst else src).getD [])[i]? = some p)
    (hlen : (dst.getD []).length = nDst) (hown : shared = true → t ≠ .string) :
    (∃ v dst' h', copyItem mem t shared src dst nDst i h = (.ok v, dst', h') ∧
        CopiesItem t p (dst.getD []) h v (dst'.getD []) h' ∧ dst'.isSome = dst.isSome ∧
          (t ≠ .string → dst' = dst)) ∨
      ∃ h', copyItem mem t shared src dst nDst i h = (.error .enomem, dst, h') ∧ h.Frees h' [] ∧
        (h.fault = none → (∀ l ∈ t.ptrs p, h.Live l) → h'.fault = none) := by
  by_cases ht : t = .string
  · subst ht
    obtain rfl : shared = false := Bool.eq_false_iff.mpr fun hshared => hown hshared rfl
    have hread : ∀ h : StringHeap, readItem src i h = (p, h) := readItem_eq hp
    have htake : (dst.getD []).take nDst = dst.getD [] := by rw [← hlen, List.take_length]
    cases hfind : (dst.getD []).idxOf? p with
    | none =>
      have hnot : p ∉ dst.getD [] := List.idxOf?_eq_none_iff.mp hfind
      have href : fieldArrayRefValue .string false src dst nDst i h = (none, dst, h) := by
        simp only [fieldArrayRefValue, Bool.false_eq_true, if_false, hread, htake, hfind, hlen,
          lt_irrefl]
      have hsrc : ∀ l ∈ BaseType.ptrs .string p, l ∉ itemPtrs (dst.getD []) := by
        intro l hl hold
        obtain ⟨q, hq, hlq⟩ := mem_itemPtrs.mp hold
        have hcell : ∀ r : StrPtr, l ∈ BaseType.ptrs .string r → r = .cell l := by
          intro r hr
          cases r with
          | cell l' => rw [List.mem_singleton.mp hr]
          | _ => exact absurd hr List.not_mem_nil
        rw [hcell q hlq, ← hcell p hl] at hq
        exact hnot hq
      rcases copyItem_copied mem hp href hsrc with ⟨v, h', hrun, hcopy⟩ | herror
      · exact Or.inl ⟨v, dst, h', hrun, hcopy, rfl, fun _ => rfl⟩
      · exact Or.inr herror
    | some j =>
      obtain ⟨hj, hpj, -⟩ := List.idxOf?_eq_some_iff.mp hfind
      have hat : (dst.getD [])[j]? = some p := by
        rw [List.getElem?_eq_getElem hj]
        exact congrArg some (by simpa using hpj)
      refine Or.inl ⟨p, dst.map fun items => items.set j StrPtr.null, h, ?_, ?_, ?_,
        fun hne => absurd rfl hne⟩
      · simp only [copyItem, fieldArrayRefValue, Bool.false_eq_true, if_false, hread, htake, hfind]
      · rw [getD_map_set]
        exact ⟨.refl h, List.length_set .., Or.inl ⟨itemPtrs_set hat, rfl, rfl⟩, fun _ => rfl,
          fun hclean _ => hclean,
          fun l hl _ hold => absurd
            ((itemPtrs_set hat).mem_iff.mpr (List.mem_append_left _ hl)) hold⟩
      · cases dst <;> rfl
  · have href : fieldArrayRefValue t shared src dst nDst i h = (none, dst, h) := by
      cases t with
      | string => exact absurd rfl ht
      | _ => rfl
    have hsrc : ∀ l ∈ t.ptrs p, l ∉ itemPtrs (dst.getD []) := by
      rw [BaseType.ptrs_of_ne ht]
      exact fun _ hl => absurd hl List.not_mem_nil
    rcases copyItem_copied mem hp href hsrc with ⟨v, h', hrun, hcopy⟩ | herror
    · exact Or.inl ⟨v, dst, h', hrun, hcopy, rfl, fun _ => rfl⟩
    · exact Or.inr herror

end Items

/-- A value whose string is live and is not freed denotes the same afterwards. -/
lemma denote_of_frees {h h' : StringHeap} {freed : List ℕ} (hf : h.Frees h' freed) {t : BaseType}
    {v : t.Mem}
    (hlive : ∀ l ∈ t.ptrs v, h.Live l) (hfreed : ∀ l ∈ t.ptrs v, l ∉ freed) :
    t.denote h' v = t.denote h v :=
  denote_congr fun l hl => hf.kept l (hlive l hl).lt (hfreed l hl)

section Loop

variable {t : BaseType} {shared : Bool} {src : Option (List t.Mem)} {nDst : ℕ}

/-- What remains of the old array after a round: the strings that the source does not point to. -/
lemma CopiesItem.rest {p v : t.Mem} {old old' : List t.Mem} {h' : StringHeap}
    (hcopy : CopiesItem t p old h v old' h')
    (hnodup : (itemPtrs old).Nodup) (l : ℕ) : l ∈ itemPtrs old' ↔ l ∈ itemPtrs old ∧
    l ∉ t.ptrs p := by
  rcases hcopy.taken with ⟨hperm, -, rfl⟩ | ⟨rfl, -, hsrc⟩
  · have hdisjoint := List.nodup_append'.mp (hperm.nodup_iff.mp hnodup)
    rw [hperm.mem_iff, List.mem_append]
    constructor
    · exact fun hl => ⟨Or.inr hl, fun hp => hdisjoint.2.2 hp hl⟩
    · exact fun hl => hl.1.resolve_left hl.2
  · exact ⟨fun hl => ⟨hl, fun hp => hsrc l hp hl⟩, And.left⟩

/-- What the loop of the copy of an array does. -/
structure CopiesItems (t : BaseType) (srcs old : List t.Mem) (h : StringHeap) (vs old' : List t.Mem)
    (h' : StringHeap) : Prop where
  frees : h.Frees h' []
  length : vs.length = srcs.length
  oldLength : old'.length = old.length
  nodup : (itemPtrs vs ++ itemPtrs old').Nodup
  source : ∀ l ∈ itemPtrs vs, l ∈ itemPtrs old ∨ h.cells.length ≤ l
  live : ∀ l ∈ itemPtrs vs, h'.Live l
  rest : ∀ l, l ∈ itemPtrs old' ↔ l ∈ itemPtrs old ∧ l ∉ itemPtrs srcs
  clean : h.fault = none → (∀ l ∈ itemPtrs srcs, h.Live l) → h'.fault = none
  dirty : ∀ l ∈ itemPtrs srcs, l < h.cells.length → h.read? l = none → l ∉ itemPtrs old →
  h'.fault ≠ none

/-- The new items denote what the items of the source denoted. -/
def SameItems (t : BaseType) (srcs : List t.Mem) (h : StringHeap) (vs : List t.Mem)
    (h' : StringHeap) : Prop :=
  vs.map (fun v => t.plain (t.denote h' v)) = srcs.map fun p => Obus.copyValue t (t.denote h p)

/-- What the loop leaves when there is no memory for a string. -/
structure FailsItems (t : BaseType) (srcs old : List t.Mem) (h : StringHeap) (old' : List t.Mem)
    (h' : StringHeap) : Prop where
  frees : h.Frees h' []
  oldLength : old'.length = old.length
  nodup : (itemPtrs old').Nodup
  source : ∀ l ∈ itemPtrs old', l ∈ itemPtrs old
  clean : h.fault = none → (∀ l ∈ itemPtrs srcs, h.Live l) → h'.fault = none

lemma CopiesItems.cons {p v : t.Mem} {srcs old old₁ old' vs : List t.Mem} {h₁ h' : StringHeap}
    (hnodup : (itemPtrs old).Nodup) (hlive : ∀ l ∈ itemPtrs old, h.Live l)
    (hcopy : CopiesItem t p old h v old₁ h₁)
    (hrest : CopiesItems t srcs old₁ h₁ vs old' h') :
    CopiesItems t (p :: srcs) old h (v :: vs) old' h' := by
  have hsub : ∀ l ∈ itemPtrs old₁, l ∈ itemPtrs old := fun l hl => ((hcopy.rest hnodup l).mp hl).1
  have hgrows := hcopy.frees.grows
  -- the new item is not among the others, nor in what is left
  have hfirst : ∀ l ∈ t.ptrs v, (l ∈ itemPtrs old ∨ h.cells.length ≤ l) ∧ h₁.Live l ∧
      l ∉ itemPtrs old₁ := by
    intro l hl
    rcases hcopy.taken with ⟨hperm, rfl, rfl⟩ | ⟨rfl, hfresh, -⟩
    · have hold : l ∈ itemPtrs old := hperm.mem_iff.mpr (List.mem_append_left _ hl)
      exact ⟨Or.inl hold, hlive l hold, (List.nodup_append'.mp (hperm.nodup_iff.mp hnodup)).2.2 hl⟩
    · exact ⟨Or.inr (hfresh l hl).1, (hfresh l hl).2, fun hold => absurd (hlive l hold).lt
        (not_lt.mpr (hfresh l hl).1)⟩
  have hnew : ∀ l ∈ t.ptrs v, l ∉ itemPtrs vs ++ itemPtrs old' := by
    intro l hl hmem
    rcases List.mem_append.mp hmem with hvs | hold
    · rcases hrest.source l hvs with hold₁ | hfresh
      · exact (hfirst l hl).2.2 hold₁
      · exact absurd (hfirst l hl).2.1.lt (not_lt.mpr hfresh)
    · exact (hfirst l hl).2.2 ((hrest.rest l).mp hold).1
  refine ⟨by simpa using hcopy.frees.trans hrest.frees, by simp [hrest.length],
    hrest.oldLength.trans hcopy.length, ?_, fun l hl => ?_, fun l hl => ?_, fun l =>
      ?_, fun hclean hsrcs => ?_,
    fun l hl hlt hdead hold => ?_⟩
  · rw [itemPtrs_cons, List.append_assoc]
    exact List.nodup_append'.mpr ⟨nodup_ptrs t v, hrest.nodup, fun l hl => hnew l hl⟩
  · rw [itemPtrs_cons, List.mem_append] at hl
    rcases hl with hl | hl
    · exact (hfirst l hl).1
    · exact (hrest.source l hl).imp (hsub l) hgrows.trans
  · rw [itemPtrs_cons, List.mem_append] at hl
    rcases hl with hl | hl
    · exact hrest.frees.stays_live (hfirst l hl).2.1 List.not_mem_nil
    · exact hrest.live l hl
  · rw [hrest.rest, hcopy.rest hnodup, itemPtrs_cons, List.mem_append, not_or, and_assoc]
  · rw [itemPtrs_cons] at hsrcs
    refine hrest.clean (hcopy.clean hclean fun l hl => hsrcs l (List.mem_append_left _ hl))
      fun l hl => ?_
    exact hcopy.frees.stays_live (hsrcs l (List.mem_append_right _ hl)) List.not_mem_nil
  · rw [itemPtrs_cons, List.mem_append] at hl
    rcases hl with hl | hl
    · exact hrest.frees.faulted (hcopy.dirty l hl hdead hold)
    · refine hrest.dirty l hl (hlt.trans_le hgrows) ?_ fun hold₁ => hold (hsub l hold₁)
      exact hcopy.frees.stays_dead hlt hdead

lemma SameItems.cons {p v : t.Mem} {srcs old old₁ old' vs : List t.Mem} {h₁ h' : StringHeap}
    (hlive : ∀ l ∈ itemPtrs old, h.Live l) (hcopy : CopiesItem t p old h v old₁ h₁)
    (hrest : CopiesItems t srcs old₁ h₁ vs old' h') (hsrcs : ∀ l ∈ itemPtrs (p :: srcs), h.Live l)
    (hsame : (∀ l ∈ itemPtrs srcs, h₁.Live l) → SameItems t srcs h₁ vs h') :
    SameItems t (p :: srcs) h (v :: vs) h' := by
  rw [itemPtrs_cons] at hsrcs
  have hhead := hcopy.denote fun l hl => hsrcs l (List.mem_append_left _ hl)
  have htail := hsame fun l hl =>
    hcopy.frees.stays_live (hsrcs l (List.mem_append_right _ hl)) List.not_mem_nil
  have hvlive : ∀ l ∈ t.ptrs v, h₁.Live l := by
    intro l hl
    rcases hcopy.taken with ⟨hperm, rfl, -⟩ | ⟨-, hfresh, -⟩
    · exact hlive l (hperm.mem_iff.mpr (List.mem_append_left _ hl))
    · exact (hfresh l hl).2
  have hkept : t.denote h' v = t.denote h₁ v :=
    denote_of_frees hrest.frees hvlive fun _ _ => List.not_mem_nil
  have hsources : srcs.map (fun p => Obus.copyValue t (t.denote h₁ p)) =
      srcs.map fun p => Obus.copyValue t (t.denote h p) := by
    refine List.map_congr_left fun q hq => ?_
    rw [denote_of_frees hcopy.frees
      (fun l hl => hsrcs l (List.mem_append_right _ (mem_itemPtrs.mpr ⟨q, hq, hl⟩)))
      fun _ _ => List.not_mem_nil]
  rw [SameItems, List.map_cons, List.map_cons, hkept, hhead, htail, hsources]

/-- The loop of the copy of an array that is not the one of the destination, or has no strings. -/
lemma copyItems_cases {srcs : List t.Mem} {i : ℕ} {dst : Option (List t.Mem)} {h : StringHeap}
    (hread : ∀ k p, srcs[k]? = some p → ((if shared then dst else src).getD [])[i + k]? = some p)
    (hlen : (dst.getD []).length = nDst) (hown : shared = true → t ≠ .string)
    (hnodup : (itemPtrs (dst.getD [])).Nodup) (hlive : ∀ l ∈ itemPtrs (dst.getD []), h.Live l) :
    (∃ vs dst' h', copyItems mem t shared src nDst srcs.length i dst h = (.ok vs, dst', h') ∧
        CopiesItems t srcs (dst.getD []) h vs (dst'.getD []) h' ∧ dst'.isSome = dst.isSome ∧
        ((∀ l ∈ itemPtrs srcs, h.Live l) → SameItems t srcs h vs h')) ∨
      ∃ dst' h', copyItems mem t shared src nDst srcs.length i dst h = (.error .enomem, dst', h') ∧
        FailsItems t srcs (dst.getD []) h (dst'.getD []) h' ∧ dst'.isSome = dst.isSome := by
  induction srcs generalizing i dst h with
  | nil =>
    refine Or.inl ⟨[], dst, h, rfl,
      ⟨.refl h, rfl, rfl, hnodup, fun _ hl => absurd hl List.not_mem_nil,
      fun _ hl => absurd hl List.not_mem_nil, fun l => ?_, fun hclean _ => hclean,
        fun _ hl => absurd hl List.not_mem_nil⟩,
      rfl, fun _ => rfl⟩
    exact ⟨fun hl => ⟨hl, List.not_mem_nil⟩, And.left⟩
  | cons p srcs ih =>
    rcases copyItem_cases mem (h := h) (hread 0 p rfl) hlen hown with
      ⟨v, dst₁, h₁, hrun, hcopy, hsome, hsame⟩ | ⟨h', hrun, hfrees, hclean⟩ <;>
        rw [Nat.add_zero] at hrun
    · have hread₁ : ∀ k q, srcs[k]? = some q →
          ((if shared then dst₁ else src).getD [])[i + 1 + k]? = some q := by
        intro k q hq
        have hat := hread (k + 1) q hq
        rw [← Nat.add_assoc, Nat.add_right_comm] at hat
        cases hshared : shared with
        | false =>
          rw [hshared] at hat
          exact hat
        | true =>
          rw [hshared] at hat
          rw [hsame (hown hshared)]
          exact hat
      have hold : ∀ l ∈ itemPtrs (dst₁.getD []), l ∈ itemPtrs (dst.getD []) := fun l hl =>
        ((hcopy.rest hnodup l).mp hl).1
      have hlive₁ : ∀ l ∈ itemPtrs (dst₁.getD []), h₁.Live l := fun l hl =>
        hcopy.frees.stays_live (hlive l (hold l hl)) List.not_mem_nil
      have hnodup₁ : (itemPtrs (dst₁.getD [])).Nodup := by
        rcases hcopy.taken with ⟨hperm, -, -⟩ | ⟨heq, -, -⟩
        · exact (List.nodup_append'.mp (hperm.nodup_iff.mp hnodup)).2.1
        · rwa [heq]
      rcases ih hread₁ (hcopy.length.trans hlen) hnodup₁ hlive₁ with
        ⟨vs, dst', h', hrest, hcopies, hsome', hdenote⟩ | ⟨dst', h', hrest, hfails, hsome'⟩
      · refine Or.inl ⟨v :: vs, dst', h', ?_, hcopies.cons hnodup hlive hcopy, hsome'.trans hsome,
          fun hsrcs => ?_⟩
        · rw [List.length_cons, copyItems, hrun]
          simp only [hrest]
        · exact .cons hlive hcopy hcopies hsrcs hdenote
      · refine Or.inr ⟨dst', h', ?_, ⟨?_, ?_, ?_, ?_, ?_⟩, hsome'.trans hsome⟩
        · rw [List.length_cons, copyItems, hrun]
          simp only [hrest]
        · simpa using hcopy.frees.trans hfails.frees
        · exact hfails.oldLength.trans hcopy.length
        · exact hfails.nodup
        · exact fun l hl => hold l (hfails.source l hl)
        · intro hclean hsrcs
          rw [itemPtrs_cons] at hsrcs
          refine hfails.clean (hcopy.clean hclean fun l hl => hsrcs l (List.mem_append_left _ hl))
            fun l hl => ?_
          exact hcopy.frees.stays_live (hsrcs l (List.mem_append_right _ hl)) List.not_mem_nil
    · refine Or.inr ⟨dst, h', ?_, ⟨hfrees, rfl, hnodup, fun _ => id, fun hfault hsrcs => ?_⟩, rfl⟩
      · rw [List.length_cons, copyItems, hrun]
      · exact hclean hfault fun l hl => hsrcs l (List.mem_append_left _ hl)

end Loop

section Shared

variable {src dst : Option (List StrPtr)} {nDst i : ℕ} {p : StrPtr} {rest : List StrPtr}

/-- One round of the copy of the array of strings of the destination itself: the item is cleared
before it is read again. -/
lemma copyItem_shared (hitems : dst.getD [] = List.replicate i .null ++ p :: rest)
    (hlen : (dst.getD []).length = nDst) :
    ∃ dst', copyItem mem .string true src dst nDst i h = (.ok .null, dst', h) ∧
      dst'.getD [] = List.replicate (i + 1) .null ++ rest ∧ dst'.isSome = dst.isSome := by
  have hat : (dst.getD [])[i]? = some p := by
    rw [hitems, List.getElem?_append_right (by simp)]
    simp
  have hmem : p ∈ dst.getD [] := List.mem_of_getElem? hat
  have htake : (dst.getD []).take nDst = dst.getD [] := by rw [← hlen, List.take_length]
  obtain ⟨j, hfind⟩ : ∃ j, (dst.getD []).idxOf? p = some j := by
    cases hfind : (dst.getD []).idxOf? p with
    | none => exact absurd hmem (List.idxOf?_eq_none_iff.mp hfind)
    | some j => exact ⟨j, rfl⟩
  obtain ⟨hj, hpj, hbefore⟩ := List.idxOf?_eq_some_iff.mp hfind
  have hpj : (dst.getD [])[j] = p := by simpa using hpj
  have hcleared : (dst.getD []).set j .null = List.replicate (i + 1) .null ++ rest := by
    have hsucc : List.replicate (i + 1) StrPtr.null ++ rest = List.replicate i .null ++ .null ::
        rest := by
      rw [List.replicate_succ', List.append_assoc]
      rfl
    by_cases hp : p = .null
    · -- an item that is absent already stays so
      have hself : (dst.getD []).set j .null = dst.getD [] := by
        conv_lhs => rw [← hp, ← hpj]
        exact List.set_getElem_self hj
      rw [hself, hitems, hp, hsucc]
    · have hle : j ≤ i := by
        by_contra hlt
        have hi : i < (dst.getD []).length := (not_le.mp hlt).trans hj
        have hpi : (dst.getD [])[i] = p :=
          Option.some.inj ((List.getElem?_eq_getElem hi).symm.trans hat)
        exact hbefore i (not_le.mp hlt) (by simp [hpi])
      have hge : ¬j < i := by
        intro hlt
        have hnull : (dst.getD [])[j]? = some .null := by
          rw [hitems, List.getElem?_append_left (by simpa using hlt), List.getElem?_replicate,
            if_pos hlt]
        rw [List.getElem?_eq_getElem hj, hpj] at hnull
        exact hp (Option.some.inj hnull)
      obtain rfl : j = i := le_antisymm hle (not_lt.mp hge)
      rw [hitems, List.set_append_right _ _ (by simp), hsucc]
      simp
  have hread : ∀ h : StringHeap, readItem (t := BaseType.string) dst i h = (p, h) := readItem_eq hat
  have hagain : ∀ h : StringHeap,
      readItem (t := BaseType.string) (dst.map fun items => items.set j .null) i h =
        (.null, h) := by
    refine readItem_eq ?_
    rw [getD_map_set, hcleared, List.getElem?_append_left (by simp), List.getElem?_replicate,
      if_pos (Nat.lt_succ_self i)]
  refine ⟨dst.map fun items => items.set j .null, ?_, ?_, ?_⟩
  · simp only [copyItem, fieldArrayRefValue, if_true, hread, htake, hfind, hagain]
  · rw [getD_map_set, hcleared]
  · cases dst <;> rfl

/-- The copy of the array of strings of the destination itself: all items are lost. -/
lemma copyItems_shared (n : ℕ) (hitems : dst.getD [] = List.replicate i .null ++ rest)
    (hn : n ≤ rest.length) (hlen : (dst.getD []).length = nDst) :
    ∃ dst', copyItems mem .string true src nDst n i dst h =
      (.ok (List.replicate n .null), dst', h) ∧
      dst'.getD [] = List.replicate (i + n) .null ++ rest.drop n ∧ dst'.isSome = dst.isSome := by
  induction n generalizing i dst rest with
  | zero => exact ⟨dst, rfl, hitems, rfl⟩
  | succ n ih =>
    obtain ⟨p, rest, rfl⟩ := List.exists_cons_of_length_pos (Nat.zero_lt_of_lt hn)
    have hround : ∃ dst', copyItem mem .string true src dst nDst i h = (.ok .null, dst', h) ∧ _ :=
      copyItem_shared mem hitems hlen
    obtain ⟨dst₁, hrun, hitems₁, hsome⟩ := hround
    have hlen₁ : (dst₁.getD []).length = nDst := by
      rw [← hlen, hitems₁, hitems]
      simp only [List.length_append, List.length_replicate, List.length_cons]
      omega
    obtain ⟨dst', hrest, hitems', hsome'⟩ := ih hitems₁ (Nat.le_of_succ_le_succ hn) hlen₁
    refine ⟨dst', ?_, ?_, hsome'.trans hsome⟩
    · rw [copyItems, hrun]
      simp only [hrest]
      rfl
    · rw [hitems', Nat.add_assoc, Nat.add_comm 1 n]
      rfl

end Shared

/-! ## Arrays and fields -/

section Fields

/-- Destroying a value frees its string. -/
lemma frees_destroyValue (t : BaseType) (v : t.Mem) (h : StringHeap) :
    h.Frees (destroyValue t (some v) h) (t.ptrs v) := by
  cases t with
  | string => exact frees_freeString v h
  | _ => exact .refl h

lemma destroyValue_clean {t : BaseType} {v : t.Mem} (hclean : h.fault = none)
    (hlive : ∀ l ∈ t.ptrs v, h.Live l) : (destroyValue t (some v) h).fault = none := by
  cases t with
  | string => exact freeString_clean hclean hlive
  | _ => exact hclean

variable {t : BaseType}

/-- The loop of the destruction of an array frees the strings of its items. -/
lemma destroyItems_frees {a : Option (List t.Mem)} {items : List t.Mem} {i : ℕ}
    (hitems : (a.getD []).drop i = items)
    (h : StringHeap) : h.Frees (destroyItems a items.length i h) (itemPtrs items) ∧
      (h.fault = none → (itemPtrs items).Nodup → (∀ l ∈ itemPtrs items, h.Live l) →
        (destroyItems a items.length i h).fault = none) := by
  induction items generalizing i h with
  | nil => exact ⟨.refl h, fun hclean _ _ => hclean⟩
  | cons v items ih =>
    have hat : item? a i = some v := by
      rw [item?, ← Nat.add_zero i, ← List.getElem?_drop, hitems]
      rfl
    have hsome : ¬(a.isNone = true ∧ i = 0) := by
      rintro ⟨hnone, -⟩
      rw [Option.isNone_iff_eq_none.mp hnone] at hat
      cases hat
    have hrest : (a.getD []).drop (i + 1) = items := by
      rw [← List.drop_drop, hitems]
      rfl
    have hstep : destroyItems a (v :: items).length i h =
        destroyItems a items.length (i + 1) (destroyValue t (some v) h) := by
      rw [List.length_cons, destroyItems, if_neg hsome, hat]
    have hfirst := frees_destroyValue t v h
    obtain ⟨hfrees, hclean⟩ := ih hrest (destroyValue t (some v) h)
    rw [hstep, itemPtrs_cons]
    refine ⟨hfirst.trans hfrees, fun hfault hnodup hlive => ?_⟩
    obtain ⟨-, hnodup', hdisjoint⟩ := List.nodup_append'.mp hnodup
    refine hclean (destroyValue_clean hfault fun l hl => hlive l (List.mem_append_left _ hl))
      hnodup' fun l hl => ?_
    exact hfirst.stays_live (hlive l (List.mem_append_right _ hl)) fun hv => hdisjoint hv hl

/-- Destroying an array that has its items frees their strings. -/
lemma fieldArrayDestroy_frees {v : ArrayMem t} (hlen : v.items.length = v.nItems.toNat)
    (h : StringHeap) : h.Frees (fieldArrayDestroy v h) (itemPtrs v.items) ∧
      (h.fault = none → (itemPtrs v.items).Nodup → (∀ l ∈ itemPtrs v.items, h.Live l) →
        (fieldArrayDestroy v h).fault = none) := by
  have hloop : fieldArrayDestroy v h = destroyItems v.array v.items.length 0 h := by
    rw [fieldArrayDestroy, hlen]
  rw [hloop]
  exact destroyItems_frees List.drop_zero h

/-- Destroying a field frees its strings. -/
lemma fieldDestroy_frees {t : FieldType} {v : t.Mem} (hrep : t.Rep v) (h : StringHeap) :
    h.Frees (fieldDestroy t v h) (t.ptrs v) ∧
      (h.fault = none → (t.ptrs v).Nodup → (∀ l ∈ t.ptrs v, h.Live l) →
        (fieldDestroy t v h).fault = none) := by
  cases t with
  | value t =>
    exact ⟨frees_destroyValue t v h, fun hclean _ hlive => destroyValue_clean hclean hlive⟩
  | array t => exact fieldArrayDestroy_frees hrep.length h

/-- What the copy of a field does.  The strings of the old field that the source does not point to
are freed, except that a value is copied before it is freed. -/
structure CopiesField (t : FieldType) (dst src : t.Mem) (h : StringHeap) (v : t.Mem)
    (freed : List ℕ) (h' : StringHeap) : Prop where
  moves : h.Moves h' (t.ptrs dst) (t.ptrs v) freed
  freed_iff : ∀ l, l ∈ freed ↔ l ∈ t.ptrs dst ∧ (t.isArray = true → l ∉ t.sourcePtrs src)
  rep : t.Rep v
  clean : h.fault = none → (∀ l ∈ t.sourcePtrs src, h.Live l) → h'.fault = none
  dirty : ∀ l ∈ t.sourcePtrs src, l < h.cells.length → h.read? l = none → l ∉ t.ptrs dst →
  h'.fault ≠ none

/-- The allocation of an array has nothing to do with the strings. -/
lemma fieldArrayAlloc_cases (t : BaseType) (n : UInt32) (h : StringHeap) :
    (∃ new h', fieldArrayAlloc mem t n.toNat h = (some new, h') ∧ h.Frees h' [] ∧
      h'.fault = h.fault ∧
        h'.cells = h.cells ∧ (new = none ↔ n = 0)) ∨
      ∃ h', fieldArrayAlloc mem t n.toNat h = (none, h') ∧ h.Frees h' [] ∧ h'.fault = h.fault := by
  unfold fieldArrayAlloc
  have hzero : n.toNat = 0 ↔ n = 0 := by rw [← UInt32.toNat_inj, UInt32.toNat_zero]
  by_cases hn : n.toNat = 0
  · rw [if_pos hn]
    exact Or.inl ⟨none, h, rfl, .refl h, rfl, rfl, iff_of_true rfl (hzero.mp hn)⟩
  · rw [if_neg hn]
    have hne : n ≠ 0 := fun h0 => hn (hzero.mpr h0)
    have htick := CellHeap.frees_tick mem h
    unfold CellHeap.tick at htick ⊢
    cases mem h.ticks with
    | true => exact Or.inl ⟨_, _, rfl, htick, rfl, rfl, iff_of_false (Option.some_ne_none _) hne⟩
    | false => exact Or.inr ⟨_, rfl, htick, rfl⟩

/-- The items that are stored into a new array. -/
lemma items_map {new : Option (List t.Mem)} {n : UInt32} {vs : List t.Mem}
    (hnew : new = none ↔ n = 0)
    (hlen : vs.length = n.toNat) : (⟨n, new.map fun _ => vs⟩ : ArrayMem t).items = vs := by
  cases hnone : new with
  | none =>
    rw [hnew.mp hnone] at hlen
    exact (List.length_eq_zero_iff.mp hlen).symm
  | some items => rfl

lemma rep_map {new : Option (List t.Mem)} {n : UInt32} {vs : List t.Mem} (hnew : new = none ↔ n = 0)
    (hlen : vs.length = n.toNat) : (⟨n, new.map fun _ => vs⟩ : ArrayMem t).Rep :=
  ⟨(congrArg List.length (items_map hnew hlen)).trans hlen, Option.map_eq_none_iff.trans hnew⟩

/-- Where the array of strings of the destination itself is copied, its strings are empty. -/
def KeepsTexts (shared : Bool) (t : FieldType) (src : t.Mem) (h : StringHeap) : Prop :=
  shared = true → t = .array .string → ∀ l ∈ t.sourcePtrs src, h.read? l = some (CString.ofBytes [])

lemma itemPtrs_replicate_null (n : ℕ) :
    itemPtrs (t := BaseType.string) (List.replicate n StrPtr.null) = [] :=
  List.flatMap_eq_nil_iff.mpr fun v hv => by rw [List.eq_of_mem_replicate hv]; rfl

/-- The loop of the copy of an array field. -/
lemma copyItems_field {shared : Bool} {dst src : ArrayMem t}
    (hlen : dst.items.length = dst.nItems.toNat)
    (hsrc : (FieldType.array t).Readable shared dst src) (hnodup : (itemPtrs dst.items).Nodup)
    (hlive : ∀ l ∈ itemPtrs dst.items, h.Live l) :
    (∃ vs old h', copyItems mem t shared src.array dst.nItems.toNat src.nItems.toNat 0 dst.array h =
      (.ok vs, old, h') ∧
        CopiesItems t src.sources dst.items h vs (old.getD []) h' ∧ old.isSome = dst.array.isSome ∧
        ((∀ l ∈ itemPtrs src.sources, h.Live l) → KeepsTexts shared (.array t) src h →
          SameItems t src.sources h vs h') ∧
        (shared = true → t = .string → itemPtrs vs = [])) ∨
      ∃ old h', copyItems mem t shared src.array dst.nItems.toNat src.nItems.toNat 0 dst.array h =
          (.error .enomem, old, h') ∧
        FailsItems t src.sources dst.items h (old.getD []) h' ∧ old.isSome = dst.array.isSome := by
  obtain ⟨hle, hsame⟩ := hsrc
  have hcount : src.sources.length = src.nItems.toNat := by
    rw [ArrayMem.sources, List.length_take, Nat.min_eq_left hle]
  by_cases hown : shared = true ∧ t = .string
  · obtain ⟨rfl, rfl⟩ := hown
    have heq : src.items = dst.items := by rw [ArrayMem.items, ArrayMem.items, hsame rfl]
    rw [heq] at hle
    have hloop : ∃ old, copyItems mem .string true src.array dst.nItems.toNat src.nItems.toNat 0
        dst.array h =
        (.ok (List.replicate src.nItems.toNat .null), old, h) ∧ _ :=
      copyItems_shared mem src.nItems.toNat (List.nil_append dst.items).symm hle hlen
    obtain ⟨old, hrun, hitems, hsome⟩ := hloop
    rw [Nat.zero_add] at hitems
    have hold : itemPtrs (old.getD []) = itemPtrs (t := BaseType.string)
        (dst.items.drop src.nItems.toNat) := by
      rw [hitems, itemPtrs, List.flatMap_append]
      exact congrArg (· ++ _) (itemPtrs_replicate_null _)
    have hsplit : itemPtrs src.sources ++ itemPtrs (t := BaseType.string)
        (dst.items.drop src.nItems.toNat) =
        itemPtrs dst.items := by
      rw [ArrayMem.sources, heq, itemPtrs, itemPtrs, ← List.flatMap_append, List.take_append_drop]
      rfl
    rw [← hsplit] at hnodup
    obtain ⟨-, hnodup', hdisjoint⟩ := List.nodup_append'.mp hnodup
    refine Or.inl ⟨_, old, h, hrun,
      ⟨.refl h, ?_, ?_, ?_, ?_, ?_, fun l => ?_, fun hclean _ => hclean, ?_⟩, hsome,
      fun _ hkeeps => ?_, fun _ _ => itemPtrs_replicate_null _⟩
    · rw [List.length_replicate, hcount]
    · rw [hitems, List.length_append, List.length_replicate, List.length_drop]
      exact Nat.add_sub_cancel' hle
    · rw [itemPtrs_replicate_null, List.nil_append, hold]
      exact hnodup'
    · rw [itemPtrs_replicate_null]
      exact fun _ hl => absurd hl List.not_mem_nil
    · rw [itemPtrs_replicate_null]
      exact fun _ hl => absurd hl List.not_mem_nil
    · rw [hold, ← hsplit, List.mem_append]
      constructor
      · exact fun hl => ⟨Or.inr hl, fun hs => hdisjoint hs hl⟩
      · exact fun hl => hl.1.resolve_left hl.2
    · intro l hl _ _ hnot
      rw [← hsplit] at hnot
      exact absurd (List.mem_append_left _ hl) hnot
    · have hempty : ∀ p ∈ src.sources, Obus.copyValue .string (BaseType.denote h .string p) =
          some (CString.ofBytes []) := by
        intro p hp
        cases p with
        | cell l =>
          have hread := hkeeps rfl rfl l (mem_itemPtrs.mpr ⟨_, hp, List.mem_cons_self⟩)
          change some ((h.read? l).getD (CString.ofBytes [])) = _
          rw [hread]
          rfl
        | _ => rfl
      rw [SameItems, List.map_replicate, List.map_congr_left hempty, List.map_const', hcount]
      rfl
  · have hreads : ∀ k p, src.sources[k]? = some p →
        ((if shared then dst.array else src.array).getD [])[0 + k]? = some p := by
      intro k p hp
      have hat : src.items[k]? = some p := by
        rw [ArrayMem.sources, List.getElem?_take] at hp
        split at hp
        · exact hp
        · cases hp
      have harray : (if shared then dst.array else src.array) = src.array := by
        cases hshared : shared with
        | false => rfl
        | true => exact (hsame hshared).symm
      rw [harray, Nat.zero_add]
      exact hat
    rw [← hcount]
    have hnot : shared = true → t ≠ .string := fun hshared ht => hown ⟨hshared, ht⟩
    rcases copyItems_cases mem hreads hlen hnot hnodup hlive with
      ⟨vs, old, h', hrun, hcopies, hsome, hdenote⟩ | herror
    · exact Or.inl ⟨vs, old, h', hrun, hcopies, hsome, fun hsrcs _ => hdenote hsrcs,
        fun hshared ht => absurd ht (hnot hshared)⟩
    · exact Or.inr herror

/-- The copy of an array field, or what is left of the old array where there is no memory. -/
lemma fieldArrayCopy_cases {shared : Bool} {dst src : ArrayMem t} (hrep : dst.Rep)
    (hsrc : (FieldType.array t).Readable shared dst src) (hnodup : (itemPtrs dst.items).Nodup)
    (hlive : ∀ l ∈ itemPtrs dst.items, h.Live l) :
    (∃ v freed h', fieldArrayCopy mem shared dst src h = (.ok (), v, h') ∧
        CopiesField (.array t) dst src h v freed h' ∧
        ((∀ l ∈ itemPtrs src.sources, h.Live l) → KeepsTexts shared (.array t) src h →
          (FieldType.array t).plain ((FieldType.array t).denote h' v) =
            Obus.fieldCopy (.array t) ((FieldType.array t).denote h src)) ∧
        (shared = true → t = .string → itemPtrs v.items = [])) ∨
      ∃ v h', fieldArrayCopy mem shared dst src h = (.error .enomem, v, h') ∧
        h.Moves h' (itemPtrs dst.items) (itemPtrs v.items) [] ∧ v.Rep ∧
        (h.fault = none → (∀ l ∈ itemPtrs src.sources, h.Live l) → h'.fault = none) := by
  rcases fieldArrayAlloc_cases mem t src.nItems h with
    ⟨new, h₁, halloc, hfrees₁, hfault₁, hcells₁, hnew⟩ | ⟨h₁, halloc, hfrees₁, hfault₁⟩
  · have hlive₁ : ∀ l, h.Live l → h₁.Live l := fun l hl => hfrees₁.stays_live hl List.not_mem_nil
    rcases copyItems_field mem hrep.length hsrc hnodup (fun l hl => hlive₁ l (hlive l hl)) with
      ⟨vs, old, h₂, hloop, hcopies, hsome, hdenote, hlost⟩ | ⟨old, h₂, hloop, hfails, hsome⟩
    · have hold : (⟨dst.nItems, old⟩ : ArrayMem t).items.length = dst.nItems.toNat :=
        hcopies.oldLength.trans hrep.length
      obtain ⟨hdestroy, hdestroyed⟩ := fieldArrayDestroy_frees hold h₂
      have hrun : fieldArrayCopy mem shared dst src h =
          (.ok (), ⟨src.nItems, new.map fun _ => vs⟩,
            fieldArrayDestroy { dst with array := old } h₂) := by
        unfold fieldArrayCopy
        simp only [halloc, hloop]
      have hlen : vs.length = src.nItems.toNat := by
        rw [hcopies.length, ArrayMem.sources, List.length_take, Nat.min_eq_left hsrc.1]
      have hitems : (⟨src.nItems, new.map fun _ => vs⟩ : ArrayMem t).items = vs :=
        items_map hnew hlen
      obtain ⟨hnodup', hnodupOld, hdisjoint⟩ := List.nodup_append'.mp hcopies.nodup
      have hfrees : h.Frees (fieldArrayDestroy { dst with array := old } h₂)
          (itemPtrs (old.getD [])) :=
        (hfrees₁.trans hcopies.frees).trans hdestroy
      refine Or.inl ⟨_, itemPtrs (old.getD []), _, hrun,
        ⟨⟨hfrees, fun l hl => ?_, ?_, fun l hl => ?_, fun l hl => ?_⟩,
        fun l => ?_, rep_map hnew hlen, fun hclean hsrcs => ?_, fun l hl hlt hdead hnot => ?_⟩,
          fun hsrcs hkeeps => ?_, ?_⟩
      · change l ∈ itemPtrs dst.items ∧ l ∉ itemPtrs (ArrayMem.items _)
        rw [hitems]
        exact ⟨((hcopies.rest l).mp hl).1, fun hvs => hdisjoint hvs hl⟩
      · change (itemPtrs (ArrayMem.items _)).Nodup
        rw [hitems]
        exact hnodup'
      · change l ∈ itemPtrs (ArrayMem.items _) at hl
        rw [hitems] at hl
        exact hdestroy.stays_live (hcopies.live l hl) fun hold' => hdisjoint hl hold'
      · change l ∈ itemPtrs (ArrayMem.items _) at hl
        rw [hitems] at hl
        rw [← hcells₁]
        exact hcopies.source l hl
      · exact (hcopies.rest l).trans (and_congr_right fun _ => ⟨fun hl _ => hl, fun hl => hl rfl⟩)
      · have hclean₂ := hcopies.clean (hfault₁.trans hclean) fun l hl => hlive₁ l (hsrcs l hl)
        refine hdestroyed hclean₂ hnodupOld fun l hl => ?_
        exact hcopies.frees.stays_live (hlive₁ l (hlive l ((hcopies.rest l).mp hl).1))
          List.not_mem_nil
      · refine hdestroy.faulted (hcopies.dirty l hl (hlt.trans_le hfrees₁.grows) ?_ hnot)
        exact hfrees₁.stays_dead hlt hdead
      · have hsame := hdenote (fun l hl => hlive₁ l (hsrcs l hl)) fun hshared ht l hl => by
          rw [hfrees₁.kept l (hsrcs l hl).lt List.not_mem_nil]
          exact hkeeps hshared ht l hl
        have hnew' : vs.map (t.denote (fieldArrayDestroy { dst with array := old } h₂)) =
            vs.map (t.denote h₂) := by
          refine List.map_congr_left fun v hv => ?_
          have hmem : ∀ l ∈ t.ptrs v, l ∈ itemPtrs vs := fun l hl => mem_itemPtrs.mpr ⟨v, hv, hl⟩
          exact denote_of_frees hdestroy (fun l hl => hcopies.live l (hmem l hl))
            fun l hl hold' => hdisjoint (hmem l hl) hold'
        have hsources : src.sources.map (t.denote h₁) = src.sources.map (t.denote h) := by
          refine List.map_congr_left fun p hp => ?_
          exact denote_of_frees hfrees₁ (fun l hl => hsrcs l (mem_itemPtrs.mpr ⟨p, hp, hl⟩))
            fun _ _ => List.not_mem_nil
        have hall : (⟨src.nItems, new.map fun _ => vs⟩ : ArrayMem t).sources = vs := by
          rw [ArrayMem.sources, hitems, ← hlen, List.take_length]
        change (⟨src.nItems, ((ArrayMem.sources _).map _).map t.plain⟩ : ArrayVal t) =
          ⟨src.nItems, (src.sources.map (t.denote h)).map (Obus.copyValue t)⟩
        rw [hall, hnew', ← hsources, List.map_map, List.map_map]
        exact congrArg (fun items => (⟨src.nItems, items⟩ : ArrayVal t)) hsame
      · intro hshared ht
        rw [hitems]
        exact hlost hshared ht
    · refine Or.inr ⟨{ dst with array := old }, h₂, ?_, ⟨hfrees₁.trans hfails.frees,
        fun _ hl => absurd hl List.not_mem_nil, hfails.nodup, fun l hl => ?_,
          fun l hl => Or.inl (hfails.source l hl)⟩,
        ⟨hfails.oldLength.trans hrep.length, ?_⟩, fun hclean hsrcs => ?_⟩
      · unfold fieldArrayCopy
        simp only [halloc, hloop]
      · exact hfails.frees.stays_live (hlive₁ l (hlive l (hfails.source l hl))) List.not_mem_nil
      · rw [← hrep.null, ← Option.not_isSome_iff_eq_none, ← Option.not_isSome_iff_eq_none, hsome]
      · exact hfails.clean (hfault₁.trans hclean) fun l hl => hlive₁ l (hsrcs l hl)
  · refine Or.inr ⟨dst, h₁, ?_,
      ⟨hfrees₁, fun _ hl => absurd hl List.not_mem_nil, hnodup, fun l hl => ?_,
      fun l hl => Or.inl hl⟩, hrep, fun hclean _ => hfault₁.trans hclean⟩
    · unfold fieldArrayCopy
      simp only [halloc]
    · exact hfrees₁.stays_live (hlive l hl) List.not_mem_nil

/-- The copy of a field, or what is left of it where there is no memory. -/
lemma fieldCopy_cases {t : FieldType} {shared : Bool} {dst src : t.Mem} (hrep : t.Rep dst)
    (hsrc : t.Readable shared dst src) (hnodup : (t.ptrs dst).Nodup)
    (hlive : ∀ l ∈ t.ptrs dst, h.Live l) :
    (∃ v freed h', fieldCopy mem shared t dst src h = (.ok (), v, h') ∧
      CopiesField t dst src h v freed h' ∧
        ((∀ l ∈ t.sourcePtrs src, h.Live l) → KeepsTexts shared t src h →
          t.plain (t.denote h' v) = Obus.fieldCopy t (t.denote h src)) ∧
        (shared = true → t = .array .string → t.ptrs v = [])) ∨
      ∃ v h', fieldCopy mem shared t dst src h = (.error .enomem, v, h') ∧
      h.Moves h' (t.ptrs dst) (t.ptrs v) [] ∧
        t.Rep v ∧ (h.fault = none → (∀ l ∈ t.sourcePtrs src, h.Live l) → h'.fault = none) := by
  cases t with
  | value t =>
    rcases copyValue_cases mem t src hlive with ⟨v, h', hrun, hcopy⟩ | ⟨h', hrun, hfrees, hclean⟩
    · refine Or.inl ⟨v, t.ptrs dst, h', hrun, ⟨hcopy.moves, fun l => ?_, trivial, hcopy.clean,
        fun l hl _ hdead _ => hcopy.dirty l hl hdead⟩, fun hsrcs _ => ?_, fun _ harray =>
          nomatch harray⟩
      · exact (and_iff_left (fun harray => absurd harray Bool.false_ne_true)).symm
      · change t.plain (t.denote h' v) = Obus.copyValue t (t.denote h src)
        rw [hcopy.denote hsrcs, plain_copyValue]
    · exact Or.inr ⟨dst, h', hrun, ⟨hfrees, fun _ hl => absurd hl List.not_mem_nil, hnodup,
        fun l hl => hfrees.stays_live (hlive l hl) List.not_mem_nil, fun _ hl => Or.inl hl⟩,
          hrep, hclean⟩
  | array t =>
    rcases fieldArrayCopy_cases mem hrep hsrc hnodup hlive with
      ⟨v, freed, h', hrun, hcopy, hdenote, hlost⟩ | ⟨v, h', hrun, hmoves, hrep', hclean⟩
    · exact Or.inl ⟨v, freed, h', hrun, hcopy, hdenote, fun hshared ht => hlost hshared
        (FieldType.array.inj ht)⟩
    · exact Or.inr ⟨v, h', hrun, hmoves, hrep', hclean⟩

end Fields

/-! ## New fields -/

/-- A new field has no strings of the heap. -/
lemma ptrs_fieldInit (drv : Option EnumDriver) (t : FieldType) : t.ptrs (fieldInit drv t) = [] := by
  cases t with
  | value t => cases t <;> rfl
  | array t => rfl

lemma rep_fieldInit (drv : Option EnumDriver) (t : FieldType) : t.Rep (fieldInit drv t) := by
  cases t with
  | value t => trivial
  | array t => exact ⟨rfl, iff_of_true rfl rfl⟩

/-! ## Copies without memory shortage -/

section Enough

variable {mem : ℕ → Bool} (hmem : ∀ n, mem n = true)

include hmem

lemma copyValue_ok (t : BaseType) (dst src : t.Mem) (h : StringHeap) :
    (copyValue mem t dst src h).1 = .ok () := by
  cases t with
  | string =>
    cases src with
    | cell l =>
      change (copyString mem dst (.cell l) h).1 = .ok ()
      unfold copyString CellHeap.alloc
      simp only [hmem, if_true]
    | _ => rfl
  | _ => rfl

lemma copyItem_ok (t : BaseType) (shared : Bool) (src dst : Option (List t.Mem)) (nDst i : ℕ)
    (h : StringHeap) : ∃ v, (copyItem mem t shared src dst nDst i h).1 = .ok v := by
  unfold copyItem
  split
  · exact ⟨_, rfl⟩
  · next dst h' _ =>
    have hok := copyValue_ok hmem t t.newItem (readItem (if shared then dst else src) i h').1
      (readItem (if shared then dst else src) i h').2
    dsimp only
    split
    · exact ⟨_, rfl⟩
    · next heq =>
      rw [heq] at hok
      cases hok

lemma copyItems_ok (t : BaseType) (shared : Bool) (src : Option (List t.Mem)) (nDst n i : ℕ)
    (dst : Option (List t.Mem)) (h : StringHeap) :
    ∃ vs, (copyItems mem t shared src nDst n i dst h).1 = .ok vs := by
  induction n generalizing i dst h with
  | zero => exact ⟨[], rfl⟩
  | succ n ih =>
    obtain ⟨v, hv⟩ := copyItem_ok hmem t shared src dst nDst i h
    unfold copyItems
    split
    · next heq =>
      rw [heq] at hv
      cases hv
    · next w dst' h' _ =>
      obtain ⟨vs, hvs⟩ := ih (i + 1) dst' h'
      split
      · next heq =>
        rw [heq] at hvs
        cases hvs
      · exact ⟨_, rfl⟩

/-- Where every allocation succeeds, so does the copy of a field. -/
lemma fieldCopy_ok (t : FieldType) (shared : Bool) (dst src : t.Mem) (h : StringHeap) :
    (fieldCopy mem shared t dst src h).1 = .ok () := by
  cases t with
  | value t => exact copyValue_ok hmem t dst src h
  | array t =>
    change (fieldArrayCopy mem shared dst src h).1 = .ok ()
    unfold fieldArrayCopy
    split
    · next heq =>
      unfold fieldArrayAlloc CellHeap.tick at heq
      simp only [hmem] at heq
      split at heq <;> cases heq
    · next new h' _ =>
      obtain ⟨vs, hvs⟩ := copyItems_ok hmem t shared src.array dst.nItems.toNat src.nItems.toNat 0
        dst.array h'
      split
      · next heq =>
        rw [heq] at hvs
        cases hvs
      · rfl

end Enough

end Memory

end Obus
