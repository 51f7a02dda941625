import Obus.FieldArrival
import Obus.MemoryMerge
import Obus.Lib.Run

/-!
# Array fields keep their items

A pool is a set of structs with the heap of their strings.  Structs are initialised, decoded,
merged, copied, encoded, formatted and destroyed in any order.  As long as every array whose count
is decoded arrives, each array keeps its items and each string its one owner, and no item is
accessed beyond an allocation (`array_fields_represented`).  Where the items of a decoded array are
missing, the count is left without them, and destroying the struct goes beyond the allocation
(`missing_items_not_represented`).
-/

namespace Obus

namespace Memory

/-! ## Encoding and formatting -/

section Access

variable {h : StringHeap}

lemma loadValue_eq {t : BaseType} {v : t.Mem} (hlive : ∀ l ∈ t.ptrs v, h.Live l) :
    loadValue t v h = (t.denote h v, h) := by
  cases t with
  | string =>
    cases v with
    | cell l =>
      obtain ⟨text, htext⟩ := Option.isSome_iff_exists.mp (hlive l List.mem_cons_self)
      simp only [loadValue, BaseType.denote, htext]
    | _ => rfl
  | _ => rfl

/-- The next item of an array that has more. -/
lemma item?_of_drop {t : BaseType} {a : Option (List t.Mem)} {i : ℕ} {v : t.Mem}
    {items : List t.Mem}
    (hitems : (a.getD []).drop i = v :: items) : (a.getD [])[i]? = some v ∧
    (a.getD []).drop (i + 1) = items := by
  constructor
  · rw [← Nat.add_zero i, ← List.getElem?_drop, hitems]
    rfl
  · rw [← List.drop_drop, hitems]
    rfl

variable (realloc : Realloc)

/-- The loop of the encoding of an array writes what its items denote. -/
lemma encodeItems_eq {t : BaseType} {a : Option (List t.Mem)} {items : List t.Mem} {i : ℕ}
    (hitems : (a.getD []).drop i = items) (hlive : ∀ l ∈ itemPtrs items, h.Live l) (b : Buffer) :
    ∃ r b', Enc.on (Prog.each (Obus.encodeValue t) (items.map (t.denote h))) realloc b = (r, b') ∧
      encodeItems realloc a items.length i b h = (r, b', h) := by
  induction items generalizing i b with
  | nil => exact ⟨_, _, rfl, rfl⟩
  | cons v items ih =>
    obtain ⟨hat, hrest⟩ := item?_of_drop hitems
    have hsome : ¬(a.isNone = true ∧ i = 0) := by
      rintro ⟨hnone, -⟩
      rw [Option.isNone_iff_eq_none.mp hnone] at hat
      cases hat
    have hfirst := loadValue_eq fun l hl => hlive l (mem_itemPtrs.mpr ⟨v, List.mem_cons_self, hl⟩)
    rw [List.length_cons, encodeItems, if_neg hsome, readItem_eq hat]
    dsimp only
    rw [encodeValue, hfirst]
    rcases hrun : (Obus.encodeValue t (t.denote h v)).on realloc b with ⟨e | u, b₁⟩
    · refine ⟨.error e, b₁, Prog.run_bind_error _ hrun, ?_⟩
      simp only [hrun]
    · obtain ⟨r, b', hitems, htail⟩ :=
        ih hrest (fun l hl => hlive l (List.mem_append_right _ hl)) b₁
      refine ⟨r, b', (Prog.run_bind_ok _ hrun).trans hitems, ?_⟩
      simp only [hrun]
      exact htail

/-- A field that has its items and owns live strings is encoded as what it denotes. -/
lemma fieldEncodeVal_eq {t : FieldType} {v : t.Mem} (hrep : t.Rep v)
    (hlive : ∀ l ∈ t.ptrs v, h.Live l) (b : Buffer) :
    ∃ r b', (Obus.fieldEncodeVal t (t.denote h v)).on realloc b = (r, b') ∧
      fieldEncodeVal realloc t v b h = (r, b', h) := by
  cases t with
  | value t =>
    change ∃ r b', _ ∧ encodeValue realloc t v b h = (r, b', h)
    rw [encodeValue, loadValue_eq hlive]
    exact ⟨_, _, rfl, rfl⟩
  | array t =>
    have hlen : v.items.length = v.nItems.toNat := hrep.length
    have hsources : v.sources = v.items := by rw [ArrayMem.sources, ← hlen, List.take_length]
    have hcount : (v.items.map (t.denote h)).length = v.nItems.toNat := by
      rw [List.length_map, hlen]
    change ∃ r b', (arrayEncode t ⟨v.nItems, v.sources.map (t.denote h)⟩).on realloc b = (r, b') ∧
      fieldEncodeVal realloc (.array t) v b h = (r, b', h)
    rw [hsources, arrayEncode, ← hcount, List.take_length, if_neg (lt_irrefl _), fieldEncodeVal]
    rcases hrun : (appendU32 v.nItems).on realloc b with ⟨e | u, b₁⟩
    · exact ⟨.error e, b₁, Prog.run_bind_error _ hrun, rfl⟩
    · obtain ⟨r, b', hitems, hloop⟩ := encodeItems_eq realloc List.drop_zero hlive b₁
      refine ⟨r, b', (Prog.run_bind_ok _ hrun).trans ?_, hlen ▸ hloop⟩
      cases r with
      | error e => exact Prog.run_bind_error _ hitems
      | ok u => exact Prog.run_bind_ok _ hitems

variable (print : (t : BaseType) → t.Cell → List UInt8) (size : ℕ)

/-- The loop of the formatting of an array leaves the heap alone. -/
lemma formatItems_heap {t : BaseType} {a : Option (List t.Mem)} {items : List t.Mem} {i : ℕ}
    (hitems : (a.getD []).drop i = items) (hlive : ∀ l ∈ itemPtrs items, h.Live l)
    (text : List UInt8) : (formatItems print size a items.length i text h).2 = h := by
  induction items generalizing i text with
  | nil => rfl
  | cons v items ih =>
    obtain ⟨hat, hrest⟩ := item?_of_drop hitems
    have hfirst := loadValue_eq fun l hl => hlive l (mem_itemPtrs.mpr ⟨v, List.mem_cons_self, hl⟩)
    rw [List.length_cons, formatItems, readItem_eq hat]
    dsimp only
    rw [hfirst]
    dsimp only
    split
    · rfl
    · exact ih hrest (fun l hl => hlive l (List.mem_append_right _ hl)) _

/-- The formatting of a field that has its items and owns live strings leaves the heap alone. -/
lemma fieldFormat_heap (head : UInt32 → List UInt8) {t : FieldType} {v : t.Mem} (hrep : t.Rep v)
    (hlive : ∀ l ∈ t.ptrs v, h.Live l) : (fieldFormat print size head t v h).2 = h := by
  cases t with
  | value t =>
    change (loadValue t v h).2 = h
    rw [loadValue_eq hlive]
  | array t =>
    change (formatItems print size v.array v.nItems.toNat 0 _ h).2 = h
    rw [← hrep.length]
    exact formatItems_heap print size List.drop_zero hlive _

end Access

/-! ## A pool of structs -/

/-- Structs in memory, each with its descriptor, and the heap of their strings. -/
structure Pool where
  structs : ℕ → Option ((d : StructDesc) × StructMem d)
  heap : StringHeap

/-- A pool without structs. -/
def Pool.empty : Pool := ⟨fun _ => none, {}⟩

/-- Put a struct into a pool, or take one out, with the heap as it is now. -/
def Pool.put (p : Pool) (i : ℕ) (s : Option ((d : StructDesc) × StructMem d))
    (h : StringHeap) : Pool :=
  ⟨Function.update p.structs i s, h⟩

/-- What is done with the structs of a pool. -/
inductive StructOp where
  /-- Initialise the memory of a struct, whatever is in it. -/
  | init (i : ℕ) (st : (d : StructDesc) × StructMem d)
  | decode (i : ℕ) (b : Buffer)
  | merge (dst src : ℕ)
  | copy (dst src : ℕ)
  | encode (i : ℕ) (realloc : Realloc) (b : Buffer)
  /-- Format a field into a text of a size. -/
  | format (i k size : ℕ)
  | destroy (i : ℕ)

section Steps

variable (mem : ℕ → Bool) (print : (t : BaseType) → t.Cell → List UInt8)
  (head : UInt32 → List UInt8) (fuel : ℕ)

/-- Merge or copy a struct of a pool into another one or itself; structs with different descriptors
are left alone. -/
def Pool.transfer (p : Pool) (i j : ℕ)
    (other : (d : StructDesc) → StructMem d → StructMem d → StringHeap →
      Option (Except Errno Unit × StructMem d × StringHeap))
    (own : (d : StructDesc) → StructMem d → StringHeap →
      Option (Except Errno Unit × StructMem d × StringHeap)) :
    Option Pool :=
  match p.structs i, p.structs j with
  | some ⟨d, dst⟩, some ⟨d', src⟩ =>
    if i = j then (own d dst p.heap).map fun r => p.put i (some ⟨d, r.2.1⟩) r.2.2
    else if hd : d' = d then (other d dst (hd ▸ src) p.heap).map fun r =>
      p.put i (some ⟨d, r.2.1⟩) r.2.2
    else some p
  | _, _ => none

/-- A step of a pool.  A function that does not return has no result. -/
def Pool.step (p : Pool) : StructOp → Option Pool
  | .init i st => some (p.put i (some ⟨st.1, structInit st.2⟩) p.heap)
  | .decode i b =>
    match p.structs i with
    | some ⟨d, st⟩ =>
      (structDecode mem fuel st b p.heap).map fun r => p.put i (some ⟨d, r.2.1⟩) r.2.2.2
    | none => none
  | .merge i j =>
    p.transfer i j (fun _ => structMerge mem (fun _ => false) fuel) fun _ =>
      copyOwnFields mem hasField true fuel 0
  | .copy i j =>
    p.transfer i j (fun _ => structCopy mem (fun _ => false) fuel)
      fun _ => copyOwnFields mem (fun _ _ => true) false fuel 0
  | .encode i realloc b =>
    match p.structs i with
    | some ⟨_, st⟩ => (structEncode realloc fuel st b p.heap).map fun r => { p with heap := r.2.2 }
    | none => none
  | .format i k size =>
    match p.structs i with
    | some ⟨d, st⟩ =>
      if hk : k < d.length then
        some { p with
          heap := (fieldFormat print size head (d.get ⟨k, hk⟩).type (st.vals ⟨k, hk⟩) p.heap).2 }
      else none
    | none => none
  | .destroy i =>
    match p.structs i with
    | some ⟨_, st⟩ => some (p.put i none (structDestroy st p.heap))
    | none => none

/-- Every array whose count is decoded arrives. -/
def Pool.Arrives (p : Pool) : StructOp → Prop
  | .decode i b => ∀ d st, p.structs i = some ⟨d, st⟩ → b.pos + 2 ≤ b.length →
      FieldsArrive mem fuel d b (u16At b b.pos).toNat (b.pos + 2) p.heap.ticks
  | _ => True

end Steps

/-! ## The invariant -/

/-- The cells that the field at an index of a struct of the pool points to. -/
def slotPtrs : Option ((d : StructDesc) × StructMem d) → ℕ → List ℕ
  | some ⟨d, st⟩, k => if hk : k < d.length then ptrs st ⟨k, hk⟩ else []
  | none, _ => []

/-- Every array of a pool has its items, every string is absent, the static empty one, or live with
one owner, and nothing was used that must not be. -/
structure Pool.Ok (p : Pool) : Prop where
  rep : ∀ i d st, p.structs i = some ⟨d, st⟩ → ∀ k, (d.get k).type.Rep (st.vals k)
  owned : p.heap.Owned fun slot : ℕ × ℕ => slotPtrs (p.structs slot.1) slot.2
  clean : p.heap.fault = none

lemma Pool.empty_ok : Pool.empty.Ok :=
  ⟨fun _ _ _ h => (nomatch h), ⟨fun _ => List.nodup_nil, fun _ _ hl => absurd hl List.not_mem_nil,
    fun _ _ _ _ hl => absurd hl List.not_mem_nil⟩, rfl⟩

section Put

variable {p : Pool} {i : ℕ} {d : StructDesc} {st st' : StructMem d} {h h' : StringHeap}

@[simp] lemma Pool.put_self (s : Option ((d : StructDesc) × StructMem d)) :
    (p.put i s h).structs i = s :=
  Function.update_self ..

lemma Pool.put_of_ne (s : Option ((d : StructDesc) × StructMem d)) {j : ℕ} (hj : j ≠ i) :
    (p.put i s h).structs j = p.structs j := Function.update_of_ne hj ..

lemma Pool.put_eq (hi : p.structs i = some ⟨d, st⟩) : p.put i (some ⟨d, st⟩) p.heap = p := by
  rw [Pool.put, ← hi, Function.update_eq_self]

lemma slotPtrs_some (k : Fin d.length) : slotPtrs (some ⟨d, st⟩) k = ptrs st k := dif_pos k.isLt

/-- A struct whose fields have not changed. -/
lemma Pool.Ok.vals (hp : (p.put i (some ⟨d, st⟩) h).Ok) (hvals : st'.vals = st.vals) :
    (p.put i (some ⟨d, st'⟩) h).Ok := by
  have hptrs : ∀ j k, slotPtrs ((p.put i (some ⟨d, st'⟩) h).structs j) k =
      slotPtrs ((p.put i (some ⟨d, st⟩) h).structs j) k := by
    intro j k
    by_cases hj : j = i
    · rw [hj, put_self, put_self]
      simp only [slotPtrs, ptrs, hvals]
    · rw [put_of_ne _ hj, put_of_ne _ hj]
  refine ⟨fun j d' s hs k => ?_, ?_, hp.clean⟩
  · by_cases hj : j = i
    · rw [hj, put_self] at hs
      cases hs
      rw [hvals]
      exact hp.rep i d st (put_self _) k
    · rw [put_of_ne _ hj] at hs
      exact hp.rep j d' s ((put_of_ne _ hj).trans hs) k
  · have hsame : (fun slot : ℕ × ℕ => slotPtrs
        ((p.put i (some ⟨d, st'⟩) h).structs slot.1) slot.2) =
        fun slot => slotPtrs ((p.put i (some ⟨d, st⟩) h).structs slot.1) slot.2 :=
          funext fun _ => hptrs _ _
    rw [hsame]
    exact hp.owned

/-- A field of a struct that gets new memory. -/
lemma Pool.Ok.setVal (hp : (p.put i (some ⟨d, st⟩) h).Ok) {k : Fin d.length}
    {v : (d.get k).type.Mem}
    {freed : List ℕ} (hm : h.Moves h' (ptrs st k) ((d.get k).type.ptrs v) freed)
    (hrep : (d.get k).type.Rep v)
    (hclean : h'.fault = none) : (p.put i (some ⟨d, Memory.setVal st k v⟩) h').Ok := by
  refine ⟨fun j d' s hs k' => ?_, ?_, hclean⟩
  · by_cases hj : j = i
    · rw [hj, put_self] at hs
      cases hs
      by_cases hk : k' = k
      · subst hk
        rw [setVal_self]
        exact hrep
      · rw [setVal_of_ne st hk]
        exact hp.rep i d st (put_self _) k'
    · rw [put_of_ne _ hj] at hs
      exact hp.rep j d' s ((put_of_ne _ hj).trans hs) k'
  · have hmoves : h.Moves h' (slotPtrs ((p.put i (some ⟨d, st⟩) h).structs i) k)
        (slotPtrs ((p.put i (some ⟨d, Memory.setVal st k v⟩) h').structs i) k) freed := by
      simp only [put_self, slotPtrs_some, ptrs, setVal_self]
      exact hm
    refine hp.owned.moves (k := (i, k.val)) hmoves fun slot hslot => ?_
    obtain ⟨j, k'⟩ := slot
    by_cases hj : j = i
    · subst hj
      have hk : k' ≠ k.val := fun hk => hslot (by rw [hk])
      simp only [put_self, slotPtrs]
      split
      · next hlt =>
        have hne : (⟨k', hlt⟩ : Fin d.length) ≠ k := fun h => hk (congrArg Fin.val h)
        rw [ptrs, ptrs, setVal_of_ne st hne]
      · rfl
    · simp only [put_of_ne _ hj]

/-- The strings of a field of a struct of the pool are live, and each is pointed to once. -/
lemma Pool.Ok.field (hp : p.Ok) (hi : p.structs i = some ⟨d, st⟩) (k : Fin d.length) :
    (ptrs st k).Nodup ∧ ∀ l ∈ ptrs st k, p.heap.Live l := by
  have hnodup := hp.owned.nodup (i, k.val)
  have hlive := hp.owned.live (i, k.val)
  simp only [hi, slotPtrs_some] at hnodup hlive
  exact ⟨hnodup, hlive⟩

end Put

/-! ## What the steps keep -/

section Keep

variable {mem : ℕ → Bool} {fuel : ℕ} {p : Pool} {i : ℕ} {d : StructDesc} {st st' : StructMem d}
  {b b' : Buffer} {h h' : StringHeap}

/-- A struct that is initialised, or taken out of the pool, gives up the strings that were in its
memory. -/
lemma Pool.Ok.giveUp (hp : p.Ok) {s : Option ((d : StructDesc) × StructMem d)}
    (hnil : ∀ k, slotPtrs s k = [])
    (hrep : ∀ d st, s = some ⟨d, st⟩ → ∀ k, (d.get k).type.Rep (st.vals k)) :
    (p.put i s p.heap).Ok := by
  refine ⟨fun j d st hs => ?_, hp.owned.mono fun slot => ?_, hp.clean⟩
  · by_cases hj : j = i
    · rw [hj, put_self] at hs
      exact hrep d st hs
    · rw [put_of_ne _ hj] at hs
      exact hp.rep j d st hs
  · obtain ⟨j, k⟩ := slot
    by_cases hj : j = i
    · simp only [hj, put_self, hnil]
      exact List.nil_sublist _
    · simp only [put_of_ne _ hj]
      exact List.Sublist.refl _

lemma Pool.Ok.init (hp : p.Ok) (st : StructMem d) :
    (p.put i (some ⟨d, structInit st⟩) p.heap).Ok := by
  refine hp.giveUp (fun k => ?_) fun d' s hs k => ?_
  · simp only [slotPtrs]
    split
    · change FieldType.ptrs _ ((structInit st).vals _) = []
      rw [structInit, clearHasFields_vals]
      exact ptrs_fieldInit _ _
    · rfl
  · cases hs
    rw [structInit, clearHasFields_vals]
    exact rep_fieldInit _ _

/-- The decoding of a field. -/
lemma Pool.Ok.fieldDecode {pos : ℕ} (hp : (p.put i (some ⟨d, st⟩) h).Ok)
    (harrives : FieldArrives mem fuel d b pos h.ticks) {k : Option (Fin d.length)}
    (hrun : Memory.fieldDecode mem fuel st (b.seek pos) h = some (k, st', b', h')) :
    (p.put i (some ⟨d, st'⟩) h').Ok := by
  unfold Memory.fieldDecode at hrun
  rw [bufferReadU16_seek] at hrun
  by_cases huid : b.length < pos + 2
  · rw [if_pos huid] at hrun
    cases hrun
    exact hp
  · rw [if_neg huid] at hrun
    simp only [bufferReadU8_seek] at hrun
    by_cases htype : b.length < pos + 2 + 1
    · rw [if_pos htype] at hrun
      cases hrun
      exact hp
    · rw [if_neg htype] at hrun
      simp only at hrun
      split at hrun
      · cases hrun
      · cases hrun
        exact hp
      · next k₀ hdesc =>
        split at hrun
        · cases hrun
          exact hp
        · next hcode =>
          -- whatever comes of the decoding, the new memory of the field is stored
          have hstored : ∀ r v b₃ h₃, fieldDecodeVal mem (d.get k₀).type (st.vals k₀)
              (b.seek (pos + 3)) h =
              (r, v, b₃, h₃) → (p.put i (some ⟨d, Memory.setVal st k₀ v⟩) h₃).Ok := by
            intro r v b₃ h₃ hval
            obtain ⟨hnodup, hlive⟩ := hp.field (put_self _) k₀
            have hdecoded := fieldDecodeVal_decoded hnodup hlive hval
            refine hp.setVal hdecoded.moves ?_ (hdecoded.fault.trans hp.clean)
            refine rep_fieldDecodeVal (hp.rep i d st (put_self _) k₀) (fun t ht => ?_) hval
            exact (harrives (not_lt.mp htype) k₀ t hdesc ht (not_not.mp hcode)).seek (pos + 3)
          split at hrun
          · next hval =>
            cases hrun
            exact hstored _ _ _ _ hval
          · next hval =>
            cases hrun
            exact hstored _ _ _ _ hval

lemma Pool.Ok.structDecodeField {pos : ℕ} (hp : (p.put i (some ⟨d, st⟩) h).Ok)
    (harrives : FieldArrives mem fuel d b pos h.ticks)
    (hrun : Memory.structDecodeField mem fuel st (b.seek pos) h = some (st', b', h')) :
    (p.put i (some ⟨d, st'⟩) h').Ok := by
  obtain ⟨⟨k, st₁, b₁, h₁⟩, hfield, heq⟩ := Option.map_eq_some_iff.mp hrun
  have hstored := hp.fieldDecode harrives hfield
  cases k with
  | none =>
    cases heq
    exact hstored
  | some k =>
    cases heq
    exact hstored.vals (setHasField_vals _ _)

/-- The loop over the fields of a buffer. -/
lemma Pool.Ok.decodeFields (n : ℕ) {pos : ℕ} (hp : (p.put i (some ⟨d, st⟩) h).Ok)
    (harrive : FieldsArrive mem fuel d b n pos h.ticks)
    (hrun : Memory.decodeFields mem fuel n st (b.seek pos) h = some (st', b', h')) :
    (p.put i (some ⟨d, st'⟩) h').Ok := by
  induction n generalizing st pos h with
  | zero =>
    cases hrun
    exact hp
  | succ n ih =>
    unfold Memory.decodeFields at hrun
    split at hrun
    · cases hrun
    · next st₁ b₁ h₁ hfield =>
      obtain ⟨pos₁, hnext, rfl⟩ := structDecodeField_next harrive.1 hfield
      exact ih (hp.structDecodeField harrive.1 hfield) (harrive.2 _ hnext) hrun

lemma Pool.Ok.structDecode (hp : p.Ok) (hi : p.structs i = some ⟨d, st⟩)
    (harrive : b.pos + 2 ≤ b.length → FieldsArrive mem fuel d b (u16At b b.pos).toNat
      (b.pos + 2) p.heap.ticks)
    {r : Except Errno Unit} (hrun : Memory.structDecode mem fuel st b p.heap =
      some (r, st', b', h')) :
    (p.put i (some ⟨d, st'⟩) h').Ok := by
  have hclear : (p.put i (some ⟨d, clearHasFields st⟩) p.heap).Ok := by
    refine Pool.Ok.vals ?_ (clearHasFields_vals st)
    rw [put_eq hi]
    exact hp
  have hcount := bufferReadU16_seek b b.pos
  change bufferReadU16 b = _ at hcount
  unfold Memory.structDecode at hrun
  rw [hcount] at hrun
  by_cases hlt : b.length < b.pos + 2
  · rw [if_pos hlt] at hrun
    cases hrun
    exact hclear
  · rw [if_neg hlt] at hrun
    obtain ⟨⟨st₁, b₁, h₁⟩, hfields, heq⟩ := Option.map_eq_some_iff.mp hrun
    cases heq
    exact hclear.decodeFields _ (harrive (not_lt.mp hlt)) hfields

/-- The copy of a field, with or without memory for it. -/
lemma Pool.Ok.fieldCopy (hp : (p.put i (some ⟨d, st⟩) h).Ok) {k : Fin d.length} {shared : Bool}
    {src v : (d.get k).type.Mem} (hread : (d.get k).type.Readable shared (st.vals k) src)
    (hlive : ∀ l ∈ (d.get k).type.sourcePtrs src, h.Live l) {r : Except Errno Unit}
    (hrun : Memory.fieldCopy mem shared (d.get k).type (st.vals k) src h = (r, v, h')) :
    (p.put i (some ⟨d, Memory.setVal st k v⟩) h').Ok := by
  obtain ⟨hnodup, howned⟩ := hp.field (put_self _) k
  rcases fieldCopy_cases mem (h := h) (hp.rep i d st (put_self _) k) hread hnodup howned with
    ⟨w, freed, h₁, hcopied, hcopy, -⟩ | ⟨w, h₁, hfailed, hmoves, hrep, hclean⟩
  · rw [hcopied] at hrun
    cases hrun
    exact hp.setVal hcopy.moves hcopy.rep (hcopy.clean hp.clean hlive)
  · rw [hfailed] at hrun
    cases hrun
    exact hp.setVal hmoves hrep (hclean hp.clean hlive)

/-- A merge or a copy of another struct of the pool. -/
lemma Pool.Ok.copyFields {j : ℕ} (hij : j ≠ i) {src : StructMem d}
    (hp : (p.put i (some ⟨d, st⟩) h).Ok)
    (hj : p.structs j = some ⟨d, src⟩) {wanted : ℕ → Bool} {mark : Bool} {n : ℕ} {c : UInt16}
    {r : Except Errno Unit}
    (hrun : Memory.copyFields mem (fun _ => false) wanted mark src n c st h = some (r, st', h')) :
    (p.put i (some ⟨d, st'⟩) h').Ok := by
  have hsrc : ∀ s h, (p.put i s h).structs j = some ⟨d, src⟩ :=
    fun s h => (put_of_ne s hij).trans hj
  have hfield : ∀ (k : Fin d.length) dst h r v h', (p.put i (some ⟨d, dst⟩) h).Ok →
      Memory.fieldCopy mem false (d.get k).type (dst.vals k) (src.vals k) h = (r, v, h') →
        (p.put i (some ⟨d, Memory.setVal dst k v⟩) h').Ok := by
    intro k dst h r v h' hdst hcopy
    have hread : (d.get k).type.Readable false (dst.vals k) (src.vals k) :=
      readable_of_rep (hdst.rep j d src (hsrc _ h) k) fun hfalse => absurd hfalse Bool.false_ne_true
    exact hdst.fieldCopy hread
      (fun l hl => (hdst.field (hsrc _ h) k).2 l (sourcePtrs_subset hl)) hcopy
  have hend := copyFields_rule (I := fun _ dst h => (p.put i (some ⟨d, dst⟩) h).Ok)
    (E := fun dst h => (p.put i (some ⟨d, dst⟩) h).Ok) (fun _ _ _ _ _ hdst => hdst)
    (fun c hc dst h v h' _ hdst hcopy => ?_)
      (fun c hc dst h e v h' _ hdst hcopy => hfield _ dst h _ v h' hdst hcopy) n hp hrun
  · rcases hend with ⟨-, _, -, hdone⟩ | ⟨-, hdone⟩ <;> exact hdone
  · have hstored := hfield _ dst h _ v h' hdst hcopy
    unfold copied
    split
    · exact hstored.vals (setHasField_vals _ _)
    · exact hstored

/-- A merge or a copy of a struct onto itself. -/
lemma Pool.Ok.copyOwnFields (hp : (p.put i (some ⟨d, st⟩) h).Ok) {wanted : StructMem d → ℕ → Bool}
    {mark : Bool} (n : ℕ) {c : UInt16} {r : Except Errno Unit}
    (hrun : Memory.copyOwnFields mem wanted mark n c st h = some (r, st', h')) :
    (p.put i (some ⟨d, st'⟩) h').Ok := by
  induction n generalizing c st h with
  | zero => cases hrun
  | succ n ih =>
    unfold Memory.copyOwnFields at hrun
    split at hrun
    · next hc =>
      have hfield : ∀ r v h', Memory.fieldCopy mem true (d.get ⟨c.toNat, hc⟩).type
          (st.vals ⟨c.toNat, hc⟩)
          (st.vals ⟨c.toNat, hc⟩) h = (r, v, h') →
          (p.put i (some ⟨d, Memory.setVal st ⟨c.toNat, hc⟩ v⟩) h').Ok := by
        intro r v h' hcopy
        have hread : (d.get ⟨c.toNat, hc⟩).type.Readable true (st.vals ⟨c.toNat, hc⟩)
            (st.vals ⟨c.toNat, hc⟩) :=
          readable_of_rep (hp.rep i d st (put_self _) _) fun _ => rfl
        exact hp.fieldCopy hread (fun l hl => (hp.field (put_self _) _).2 l
          (sourcePtrs_subset hl)) hcopy
      split at hrun
      · dsimp only at hrun
        split at hrun
        · next hcopy =>
          cases hrun
          exact hfield _ _ _ hcopy
        · next v h₁ hcopy =>
          refine ih ?_ hrun
          split
          · exact (hfield _ _ _ hcopy).vals (setHasField_vals _ _)
          · exact hfield _ _ _ hcopy
      · exact ih hp hrun
    · cases hrun
      exact hp

/-- The encoding of a struct leaves the heap alone. -/
lemma Pool.Ok.encodeFields (hp : p.Ok) (hi : p.structs i = some ⟨d, st⟩) {realloc : Realloc} (n : ℕ)
    {c : UInt16}
    {r : Except Errno Unit} (hrun : Memory.encodeFields realloc st n c b p.heap = some (r, b', h'))
      : h' = p.heap := by
  induction n generalizing c b with
  | zero => cases hrun
  | succ n ih =>
    unfold Memory.encodeFields at hrun
    split at hrun
    · next hc =>
      split at hrun
      · have hfield : ∀ r b₁ h₁, fieldEncode realloc (d.get ⟨c.toNat, hc⟩)
            (st.vals ⟨c.toNat, hc⟩) b p.heap =
            (r, b₁, h₁) → h₁ = p.heap := by
          intro r b₁ h₁ hencode
          unfold fieldEncode at hencode
          split at hencode
          · cases hencode
            rfl
          · next b₂ _ =>
            obtain ⟨_, _, -, hval⟩ :=
              fieldEncodeVal_eq realloc (hp.rep i d st hi ⟨c.toNat, hc⟩) (hp.field hi _).2 b₂
            rw [hval] at hencode
            cases hencode
            rfl
        split at hrun
        · next hencode =>
          cases hrun
          exact hfield _ _ _ hencode
        · next b₁ h₁ hencode =>
          obtain rfl := hfield _ _ _ hencode
          exact ih hrun
      · exact ih hrun
    · cases hrun
      rfl

lemma Pool.Ok.structEncode (hp : p.Ok) (hi : p.structs i = some ⟨d, st⟩) {realloc : Realloc}
    {r : Except Errno Unit}
    (hrun : Memory.structEncode realloc fuel st b p.heap = some (r, b', h')) : h' = p.heap := by
  unfold Memory.structEncode at hrun
  split at hrun
  · cases hrun
  · split at hrun
    · cases hrun
      rfl
    · exact hp.encodeFields hi fuel hrun

/-- Destroying fields of a struct frees the strings that they own, and no others. -/
lemma destroyFields_owned {cells : ℕ × ℕ → List ℕ} {ks : List (Fin d.length)} (hks : ks.Nodup)
    (hcells : ∀ k ∈ ks, cells (i, k.val) = ptrs st k) (hrep : ∀ k, (d.get k).type.Rep (st.vals k))
    (howned : h.Owned cells) (hclean : h.fault = none) :
    ∃ cells', CellHeap.Owned (ks.foldl (fun h k => fieldDestroy (d.get k).type (st.vals k) h) h)
      cells' ∧
      (ks.foldl (fun h k => fieldDestroy (d.get k).type (st.vals k) h) h).fault = none ∧
      ∀ slot, slot.1 ≠ i → cells' slot = cells slot := by
  induction ks generalizing h cells with
  | nil => exact ⟨cells, howned, hclean, fun _ _ => rfl⟩
  | cons k ks ih =>
    obtain ⟨hk, hks⟩ := List.nodup_cons.mp hks
    have hat := hcells k List.mem_cons_self
    obtain ⟨hfrees, hdestroyed⟩ := fieldDestroy_frees (hrep k) h
    have hnodup : (ptrs st k).Nodup := hat ▸ howned.nodup (i, k.val)
    have hlive : ∀ l ∈ ptrs st k, h.Live l := hat ▸ howned.live (i, k.val)
    have hmoves : h.Moves (fieldDestroy (d.get k).type (st.vals k) h) (cells (i, k.val))
        (Function.update cells (i, k.val) [] (i, k.val)) (ptrs st k) := by
      rw [hat, Function.update_self]
      exact CellHeap.Frees.all hfrees
    have hrest : ∀ k' ∈ ks, Function.update cells (i, k.val) [] (i, k'.val) = ptrs st k' := by
      intro k' hk'
      have hne : (i, k'.val) ≠ (i, k.val) := by
        intro heq
        rw [Fin.ext (congrArg Prod.snd heq)] at hk'
        exact hk hk'
      rw [Function.update_of_ne hne, hcells k' (List.mem_cons_of_mem _ hk')]
    obtain ⟨cells', howned', hclean', hother⟩ := ih hks hrest
      (howned.moves hmoves fun slot hslot => Function.update_of_ne hslot _ _)
        (hdestroyed hclean hnodup hlive)
    refine ⟨cells', howned', hclean', fun slot hslot => (hother slot hslot).trans ?_⟩
    exact Function.update_of_ne (fun heq => hslot (congrArg Prod.fst heq)) _ _

lemma Pool.Ok.structDestroy (hp : p.Ok) (hi : p.structs i = some ⟨d, st⟩) :
    (p.put i none (Memory.structDestroy st p.heap)).Ok := by
  have hcells : ∀ k ∈ List.finRange d.length, slotPtrs (p.structs i) k.val = ptrs st k := by
    intro k _
    rw [hi, slotPtrs_some]
  obtain ⟨cells', howned, hclean, hother⟩ :=
    destroyFields_owned (List.nodup_finRange _) hcells (hp.rep i d st hi)
    hp.owned hp.clean
  refine ⟨fun j d' s hs => ?_, howned.mono fun slot => ?_, hclean⟩
  · by_cases hj : j = i
    · rw [hj, put_self] at hs
      cases hs
    · rw [put_of_ne _ hj] at hs
      exact hp.rep j d' s hs
  · by_cases hj : slot.1 = i
    · rw [hj, put_self]
      exact List.nil_sublist _
    · rw [put_of_ne _ hj, hother slot hj]

end Keep

/-- A merge or a copy of a struct of the pool, whatever is wanted. -/
lemma Pool.Ok.transfer {p p' : Pool} (hp : p.Ok) {i j : ℕ}
    {other : (d : StructDesc) → StructMem d → StructMem d → StringHeap →
      Option (Except Errno Unit × StructMem d × StringHeap)}
    {own : (d : StructDesc) → StructMem d → StringHeap →
      Option (Except Errno Unit × StructMem d × StringHeap)}
    (hother : ∀ d dst src r st' h', j ≠ i → p.structs i = some ⟨d, dst⟩ →
      p.structs j = some ⟨d, src⟩ →
      other d dst src p.heap = some (r, st', h') → (p.put i (some ⟨d, st'⟩) h').Ok)
    (hown : ∀ d dst r st' h', p.structs i = some ⟨d, dst⟩ → own d dst p.heap = some (r, st', h') →
      (p.put i (some ⟨d, st'⟩) h').Ok)
    (hrun : p.transfer i j other own = some p') : p'.Ok := by
  unfold Pool.transfer at hrun
  split at hrun
  · next d dst d' src hi hj =>
    split at hrun
    · obtain ⟨⟨r, st', h'⟩, hcopy, rfl⟩ := Option.map_eq_some_iff.mp hrun
      exact hown d dst r st' h' hi hcopy
    · next hij =>
      split at hrun
      · next hd =>
        subst hd
        obtain ⟨⟨r, st', h'⟩, hcopy, rfl⟩ := Option.map_eq_some_iff.mp hrun
        exact hother d' dst src r st' h' (Ne.symm hij) hi hj hcopy
      · cases hrun
        exact hp
  · cases hrun

section Runs

variable {mem : ℕ → Bool} {print : (t : BaseType) → t.Cell → List UInt8}
  {head : UInt32 → List UInt8} {fuel : ℕ} {p p' : Pool}

/-- A step of a pool in which what is decoded arrives. -/
lemma Pool.Ok.step (hp : p.Ok) {op : StructOp} (harrives : p.Arrives mem fuel op)
    (hstep : p.step mem print head fuel op = some p') : p'.Ok := by
  have hput : ∀ {i d st}, p.structs i = some ⟨d, st⟩ → (p.put i (some ⟨d, st⟩) p.heap).Ok := by
    intro i d st hi
    rw [put_eq hi]
    exact hp
  cases op with
  | init i st =>
    cases hstep
    exact hp.init st.2
  | decode i b =>
    simp only [Pool.step] at hstep
    split at hstep
    · next d st hi =>
      obtain ⟨⟨r, st', b', h'⟩, hdecode, rfl⟩ := Option.map_eq_some_iff.mp hstep
      exact hp.structDecode hi (harrives d st hi) hdecode
    · cases hstep
  | merge i j =>
    refine hp.transfer (fun d dst src r st' h' hij hi hj hrun => ?_)
      (fun d dst r st' h' hi hrun => ?_) hstep
    · exact (hput hi).copyFields hij hj hrun
    · exact (hput hi).copyOwnFields fuel hrun
  | copy i j =>
    refine hp.transfer (fun d dst src r st' h' hij hi hj hrun => ?_)
      (fun d dst r st' h' hi hrun => ?_) hstep
    · exact (hput hi).copyFields hij hj hrun
    · exact (hput hi).copyOwnFields fuel hrun
  | encode i realloc b =>
    simp only [Pool.step] at hstep
    split at hstep
    · next d st hi =>
      obtain ⟨⟨r, b', h'⟩, hencode, rfl⟩ := Option.map_eq_some_iff.mp hstep
      rw [hp.structEncode hi hencode]
      exact hp
    · cases hstep
  | format i k size =>
    simp only [Pool.step] at hstep
    split at hstep
    · next d st hi =>
      split at hstep
      · next hk =>
        cases hstep
        rw [fieldFormat_heap print size head (hp.rep i d st hi ⟨k, hk⟩) (hp.field hi ⟨k, hk⟩).2]
        exact hp
      · cases hstep
    · cases hstep
  | destroy i =>
    simp only [Pool.step] at hstep
    split at hstep
    · next d st hi =>
      cases hstep
      exact hp.structDestroy hi
    · cases hstep

/-- In every run whose decodings find every array whose count they read, with memory for it, every
array keeps its items, every string keeps its one owner, and nothing is accessed beyond an
allocation. -/
theorem array_fields_represented {ops : List StructOp} (hp : p.Ok)
    (harrive : MeetsAll (Pool.step mem print head fuel) (Pool.Arrives mem fuel) ops p)
    (hrun : runs (Pool.step mem print head fuel) ops p = some p') : p'.Ok :=
  runs_invariant (fun _ _ _ hok hcond hstep => Pool.Ok.step hok hcond hstep) hp harrive hrun

end Runs

/-! ## Items that are missing -/

/-- The memory of a struct with an array of strings, before it is initialised. -/
def stringsMem : (d : StructDesc) × StructMem d :=
  ⟨[⟨1, .property, .array .string, none⟩], fun | ⟨0, _⟩ => (⟨7, none⟩ : ArrayMem .string), [0],
    Nat.le_of_ble_eq_true rfl⟩

/-- A buffer with a struct: one array of strings with a count, and the bytes of its items. -/
def stringsBuffer (count : UInt8) (items : List UInt8) : Buffer :=
  ⟨[0, 1, 0, 1, 0x89, 0, 0, 0, count] ++ items, 9 + items.length, 0⟩

/-- A struct is decoded and merged into another one, which is encoded, and both are destroyed. -/
def decodeAndMerge : List StructOp :=
  [.init 0 stringsMem, .decode 0 (stringsBuffer 1 [0, 0, 0, 2, 97, 0]), .init 1 stringsMem,
    .merge 1 0,
    .encode 1 (fun _ => some fun _ => 0) ⟨[], 0, 0⟩, .destroy 0, .destroy 1]

/-- A pool without memory shortage, and without anything to print. -/
def plainStep : Pool → StructOp → Option Pool :=
  Pool.step (fun _ => true) (fun _ _ => []) (fun _ => []) 2

theorem array_fields_represented_decodeAndMerge :
    ∃ p, runs plainStep decodeAndMerge Pool.empty = some p ∧ p.Ok := by
  have harrive : MeetsAll plainStep (Pool.Arrives (fun _ => true) 2) decodeAndMerge Pool.empty := by
    refine ⟨trivial, fun p hp => ⟨?_, fun p _ => meetsAll_of_forall (fun op hop q => ?_) p⟩⟩
    · cases hp
      intro d st hi hin
      cases hi
      refine ⟨fun hhead k t hk ht hcode => ?_, fun _ _ => trivial⟩
      cases hk
      cases ht
      exact fun _ _ => ⟨rfl, rfl⟩
    · simp only [List.mem_cons, List.not_mem_nil, or_false] at hop
      rcases hop with rfl | rfl | rfl | rfl | rfl <;> trivial
  obtain ⟨p, hrun⟩ : ∃ p, runs plainStep decodeAndMerge Pool.empty = some p := ⟨_, rfl⟩
  exact ⟨p, hrun, array_fields_represented Pool.empty_ok harrive hrun⟩

/-- Where the items of an array are missing, its count is left beside a `NULL` pointer, and when the
struct is destroyed, an item is accessed beyond the allocation. -/
theorem missing_items_not_represented :
    ∃ p st, runs plainStep [.init 0 stringsMem, .decode 0 (stringsBuffer 2 [])]
      Pool.empty = some p ∧
      p.structs 0 = some ⟨stringsMem.1, st⟩ ∧
      ¬FieldType.Rep (.array .string) (st.vals ⟨0, Nat.zero_lt_one⟩) ∧
      ∃ p', plainStep p (.destroy 0) = some p' ∧ p'.heap.fault = some .outside := by
  refine ⟨_, _, rfl, rfl, fun hrep => ?_, _, rfl, rfl⟩
  have hlength := hrep.length
  cases hlength

end Memory

end Obus
