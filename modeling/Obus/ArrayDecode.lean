import Obus.MemoryCodec
import Obus.MemoryLemmas

/-!
# Decoded array fields

What a decoding does to the strings of a field: it frees nothing, and the strings in the memory
afterwards are fresh (`fieldDecodeVal_decoded`).

The count and the pointer of an array field are written one after the other.  An array that is
decoded has its items exactly where all of them are in the buffer and there is memory for them
(`rep_fieldArrayDecode_iff`); otherwise the count is left beside a `NULL` pointer.
-/

namespace Obus

namespace Memory

variable {mem : ℕ → Bool} {h : StringHeap} {b : Buffer}

/-! ## Decoded values -/

@[simp] lemma ptrs_newItem (t : BaseType) : t.ptrs t.newItem = [] := by
  cases t <;> rfl

/-- A decoding frees nothing; the strings in the memory afterwards are fresh ones, or those that
were there. -/
structure Decoded (h : StringHeap) (old new : List ℕ) (h' : StringHeap) : Prop where
  moves : h.Moves h' old new []
  fault : h'.fault = h.fault

lemma decoded_nil {h' : StringHeap} (hf : h.Frees h' []) (hfault : h'.fault = h.fault)
    (old : List ℕ) : Decoded h old [] h' :=
  ⟨⟨hf, fun _ hl => absurd hl List.not_mem_nil, List.nodup_nil,
    fun _ hl => absurd hl List.not_mem_nil,
    fun _ hl => absurd hl List.not_mem_nil⟩, hfault⟩

lemma readString_decoded {old : StrPtr} (hlive : ∀ l ∈ BaseType.ptrs .string old, h.Live l)
    {r : Except Errno Unit} {v : StrPtr} {b' : Buffer} {h' : StringHeap}
    (hrun : readString mem old b h = (r, v, b', h')) :
    Decoded h (BaseType.ptrs .string old) (BaseType.ptrs .string v) h' := by
  unfold readString at hrun
  split at hrun
  · cases hrun
    exact ⟨CellHeap.Frees.keeps (.refl h) (nodup_ptrs .string old) hlive, rfl⟩
  · split at hrun
    · cases hrun
      exact decoded_nil (.refl h) rfl _
    · split at hrun
      · cases hrun
        exact decoded_nil (.refl h) rfl _
      · split at hrun
        · next halloc =>
          cases hrun
          exact decoded_nil (CellHeap.alloc_eq halloc).1 (CellHeap.alloc_eq halloc).2 _
        · next halloc =>
          cases hrun
          exact ⟨(CellHeap.moves_alloc halloc).leak _, (CellHeap.alloc_eq halloc).2⟩

/-- A word is decoded without the heap. -/
lemma readInto_decoded {t : BaseType} (ht : t ≠ .string) {read : Except Errno t.Mem × Buffer}
    {old v : t.Mem}
    {r : Except Errno Unit} {b' : Buffer} {h' : StringHeap}
    (hrun : readInto read old h = (r, v, b', h')) : Decoded h (t.ptrs old) (t.ptrs v) h' := by
  rw [BaseType.ptrs_of_ne ht v]
  unfold readInto at hrun
  split at hrun <;> cases hrun <;> exact decoded_nil (.refl h) rfl _

/-- What the decoding of a value does. -/
lemma decodeValue_decoded {t : BaseType} {old v : t.Mem} (hlive : ∀ l ∈ t.ptrs old, h.Live l)
    {r : Except Errno Unit}
    {b' : Buffer} {h' : StringHeap} (hrun : decodeValue mem t old b h = (r, v, b', h')) :
    Decoded h (t.ptrs old) (t.ptrs v) h' := by
  cases t with
  | string => exact readString_decoded hlive hrun
  | _ => exact readInto_decoded (by decide) hrun

/-- What the decoding of the items of an array does. -/
lemma decodeItems_decoded {t : BaseType} (n : ℕ) {b b' : Buffer} {h h' : StringHeap}
    {r : Except Errno (List t.Mem)} (hrun : decodeItems mem t n b h = (r, b', h')) :
    (∃ vs, r = .ok vs ∧ vs.length = n ∧ Decoded h [] (itemPtrs vs) h') ∨ (∃ e, r = .error e) ∧
    Decoded h [] [] h' := by
  induction n generalizing b h r with
  | zero =>
    cases hrun
    exact Or.inl ⟨[], rfl, rfl, decoded_nil (.refl _) rfl _⟩
  | succ n ih =>
    unfold decodeItems at hrun
    have hnew : ∀ l ∈ t.ptrs t.newItem, h.Live l := by
      rw [ptrs_newItem]
      exact fun _ hl => absurd hl List.not_mem_nil
    split at hrun
    · next e v b₁ h₁ hvalue =>
      cases hrun
      have hdecoded := decodeValue_decoded hnew hvalue
      exact Or.inr ⟨⟨e, rfl⟩, decoded_nil hdecoded.moves.frees hdecoded.fault _⟩
    · next v b₁ h₁ hvalue =>
      have hfirst := decodeValue_decoded hnew hvalue
      rw [ptrs_newItem] at hfirst
      split at hrun
      · next e b₂ h₂ hitems =>
        cases hrun
        rcases ih hitems with ⟨vs, herror, -⟩ | ⟨-, hrest⟩
        · cases herror
        · exact Or.inr ⟨⟨e, rfl⟩, decoded_nil (hfirst.moves.frees.trans hrest.moves.frees)
            (hrest.fault.trans hfirst.fault) _⟩
      · next vs b₂ h₂ hitems =>
        cases hrun
        rcases ih hitems with ⟨vs, hok, hlength, hrest⟩ | ⟨⟨e, herror⟩, -⟩
        · cases hok
          refine Or.inl ⟨v :: vs, rfl, by rw [List.length_cons, hlength], ?_,
            hrest.fault.trans hfirst.fault⟩
          exact hfirst.moves.append hrest.moves
        · cases herror

/-- What the decoding of a field does. -/
lemma fieldDecodeVal_decoded {t : FieldType} {old v : t.Mem} (hnodup : (t.ptrs old).Nodup)
    (hlive : ∀ l ∈ t.ptrs old, h.Live l) {r : Except Errno Unit} {b' : Buffer} {h' : StringHeap}
    (hrun : fieldDecodeVal mem t old b h = (r, v, b', h')) :
    Decoded h (t.ptrs old) (t.ptrs v) h' := by
  cases t with
  | value t => exact decodeValue_decoded hlive hrun
  | array t =>
    change fieldArrayDecode mem old b h = _ at hrun
    unfold fieldArrayDecode at hrun
    split at hrun
    · cases hrun
      exact ⟨CellHeap.Frees.keeps (.refl _) hnodup hlive, rfl⟩
    · next n b₁ _ =>
      rcases fieldArrayAlloc_cases mem t n h with
        ⟨new, h₁, halloc, hfrees₁, hfault₁, -, hnew⟩ | ⟨h₁, halloc, hfrees₁, hfault₁⟩ <;>
          rw [halloc] at hrun
      · dsimp only at hrun
        split at hrun
        · next e b₂ h₂ hitems =>
          cases hrun
          rcases decodeItems_decoded _ hitems with ⟨_, herror, -⟩ | ⟨-, hrest⟩
          · cases herror
          · exact decoded_nil (hfrees₁.trans hrest.moves.frees) (hrest.fault.trans hfault₁) _
        · next vs b₂ h₂ hitems =>
          cases hrun
          rcases decodeItems_decoded _ hitems with ⟨vs, hok, hlength, hrest⟩ | ⟨⟨e, herror⟩, -⟩
          · cases hok
            change Decoded h _ (itemPtrs (ArrayMem.items _)) _
            rw [items_map hnew hlength]
            have hfirst : h.Moves h₁ [] [] [] := (decoded_nil hfrees₁ hfault₁ []).moves
            exact ⟨(hfirst.append hrest.moves).leak _, hrest.fault.trans hfault₁⟩
          · cases herror
      · cases hrun
        exact decoded_nil hfrees₁ hfault₁ _

/-! ## What arrives -/

section Arriving

/-- Where the string that starts at a position ends, and the number of the allocation after it, if
all its bytes are in the buffer and there is memory for it. -/
def stringEnd (mem : ℕ → Bool) (b : Buffer) (pos ticks : ℕ) : Option (ℕ × ℕ) :=
  let size := ofBigEndian ((b.data.drop pos).take 4)
  if b.length < pos + 4 then none
  else if size = 0 then some (pos + 4, ticks)
  else if b.length < pos + 4 + size then none
  else if mem ticks then some (pos + 4 + size, ticks + 1)
  else none

/-- Where the value that starts at a position ends, and the number of the allocation after it, if it
arrives. -/
def valueEnd (mem : ℕ → Bool) (b : Buffer) : BaseType → ℕ → ℕ → Option (ℕ × ℕ)
  | .u8, pos, ticks | .i8, pos, ticks | .bool, pos, ticks =>
    if b.length < pos + 1 then none else some (pos + 1, ticks)
  | .u16, pos, ticks | .i16, pos, ticks =>
    if b.length < pos + 2 then none else some (pos + 2, ticks)
  | .u32, pos, ticks | .i32, pos, ticks | .enum, pos, ticks | .f32, pos, ticks =>
    if b.length < pos + 4 then none else some (pos + 4, ticks)
  | .u64, pos, ticks | .i64, pos, ticks | .f64, pos, ticks =>
    if b.size < pos + 8 then none else some (pos + 8, ticks)
  | .string, pos, ticks => stringEnd mem b pos ticks

/-- The number of the allocation after a value that does not arrive: memory is asked for only where
all bytes of a string are in the buffer. -/
def triedTicks (b : Buffer) (t : BaseType) (pos ticks : ℕ) : ℕ :=
  ((valueEnd (fun _ => true) b t pos ticks).map Prod.snd).getD ticks

/-- Where the values that start at a position end, and the number of the allocation after them, if
they arrive. -/
def itemsEnd (mem : ℕ → Bool) (b : Buffer) (t : BaseType) : ℕ → ℕ → ℕ → Option (ℕ × ℕ)
  | 0, pos, ticks => some (pos, ticks)
  | n + 1, pos, ticks =>
    (valueEnd mem b t pos ticks).bind fun next => itemsEnd mem b t n next.1 next.2

/-- Values that start at a position are all in the buffer, and there is memory for their strings. -/
def ItemsArrive (mem : ℕ → Bool) (b : Buffer) (t : BaseType) (n pos ticks : ℕ) : Prop :=
  (itemsEnd mem b t n pos ticks).isSome = true

/-- If the buffer has the count of an array and it is not 0, there is memory for the array, and its
items arrive. -/
def ArrayArrives (mem : ℕ → Bool) (b : Buffer) (t : BaseType) (pos ticks : ℕ) : Prop :=
  pos + 4 ≤ b.length → ofBigEndian ((b.data.drop pos).take 4) ≠ 0 →
    mem ticks = true ∧ ItemsArrive mem b t (ofBigEndian ((b.data.drop pos).take 4)) (pos + 4)
      (ticks + 1)

/-- Four bytes of a buffer as a word. -/
lemma toNat_slice (b : Buffer) :
    (UInt32.ofNat (ofBigEndian (b.slice 4))).toNat = ofBigEndian (b.slice 4) := by
  have hlen : (b.slice 4).length ≤ 4 := List.length_take_le _ _
  have hlt : ofBigEndian (b.slice 4) < 256 ^ 4 :=
    (ofBigEndian_lt _).trans_le (Nat.pow_le_pow_right (by decide) hlen)
  exact UInt32.toNat_ofNat_of_lt' hlt

/-- A word is read into memory exactly if all its bytes are in the buffer. -/
lemma readInto_ends {α : Type} (f : ℕ → α) (limit k : ℕ) (e : Errno) (old : α) (b : Buffer)
    (h : StringHeap) :
    (∃ v pos h', readInto ((bufferReadWord limit k e b).map (Except.map f) id) old h =
          (.ok (), v, { b with pos := pos }, h') ∧
        (if limit < b.pos + k then none else some (b.pos + k, h.ticks)) = some (pos, h'.ticks)) ∨
      (∃ e' v, readInto ((bufferReadWord limit k e b).map (Except.map f) id) old h =
        (.error e', v, b, h)) ∧
        (if limit < b.pos + k then none else some (b.pos + k, h.ticks)) = none := by
  unfold bufferReadWord
  by_cases hlt : limit < b.pos + k
  · rw [if_pos hlt, if_pos hlt]
    exact Or.inr ⟨⟨e, old, rfl⟩, rfl⟩
  · rw [if_neg hlt, if_neg hlt]
    exact Or.inl ⟨_, _, h, rfl, rfl⟩

lemma bufferReadU32_eq (b : Buffer) :
    bufferReadU32 b = if b.length < b.pos + 4 then (.error .eagain, b)
    else (.ok (UInt32.ofNat (ofBigEndian (b.slice 4))), { b with pos := b.pos + 4 }) := by
  unfold bufferReadU32 bufferReadWord
  split <;> rfl

/-- A string is decoded exactly if it arrives. -/
lemma readString_ends (old : StrPtr) (b : Buffer) (h : StringHeap) :
    (∃ v pos h', readString mem old b h = (.ok (), v, { b with pos := pos }, h') ∧
        stringEnd mem b b.pos h.ticks = some (pos, h'.ticks)) ∨
      ∃ e v pos h', readString mem old b h = (.error e, v, { b with pos := pos }, h') ∧
        stringEnd mem b b.pos h.ticks = none ∧ h'.ticks = triedTicks b .string b.pos h.ticks := by
  have hread := bufferReadU32_eq b
  have hsize := toNat_slice b
  have hend : ∀ mem : ℕ → Bool, stringEnd mem b b.pos h.ticks = if b.length < b.pos + 4 then none
      else if ofBigEndian (b.slice 4) = 0 then some (b.pos + 4, h.ticks)
      else if b.length < b.pos + 4 + ofBigEndian (b.slice 4) then none
      else if mem h.ticks then some (b.pos + 4 + ofBigEndian (b.slice 4), h.ticks + 1) else none :=
        fun _ => rfl
  have htried : triedTicks b .string b.pos h.ticks =
      ((stringEnd (fun _ => true) b b.pos h.ticks).map Prod.snd).getD h.ticks := rfl
  by_cases hlt : b.length < b.pos + 4
  · rw [if_pos hlt] at hread
    have hnone : ∀ mem : ℕ → Bool, stringEnd mem b b.pos h.ticks = none :=
      fun mem => (hend mem).trans (if_pos hlt)
    refine Or.inr ⟨.eagain, old, b.pos, h, ?_, hnone mem, ?_⟩
    · rw [readString, hread]
    · rw [htried, hnone]
      rfl
  · rw [if_neg hlt] at hread
    simp only [if_neg hlt] at hend
    generalize UInt32.ofNat (ofBigEndian (b.slice 4)) = size at hread hsize
    simp only [← hsize] at hend
    by_cases hzero : size = 0
    · subst hzero
      refine Or.inl ⟨.null, b.pos + 4, h, ?_, hend mem⟩
      rw [readString, hread]
      rfl
    · have hne : size.toNat ≠ 0 := fun h0 => hzero (UInt32.toNat_inj.mp h0)
      simp only [if_neg hne] at hend
      have hdup : bufferDup size.toNat { b with pos := b.pos + 4 } =
          if b.length < b.pos + 4 + size.toNat then (.error .eagain, { b with pos := b.pos + 4 })
          else (.ok (({ b with pos := b.pos + 4 } : Buffer).slice size.toNat),
            { b with pos := b.pos + 4 + size.toNat }) := if_neg hne
      by_cases hshort : b.length < b.pos + 4 + size.toNat
      · rw [if_pos hshort] at hdup
        simp only [if_pos hshort] at hend
        refine Or.inr ⟨.eagain, .null, b.pos + 4, h, ?_, hend mem, ?_⟩
        · simp only [readString, hread, if_neg hzero, hdup]
        · rw [htried, hend]
          rfl
      · rw [if_neg hshort] at hdup
        simp only [if_neg hshort] at hend
        generalize ({ b with pos := b.pos + 4 } : Buffer).slice size.toNat = data at hdup
        let text := CString.ofBytes (data.set (size.toNat - 1) 0)
        by_cases hmem : mem h.ticks = true
        · let h' : StringHeap := { h with cells := h.cells ++ [some text], ticks := h.ticks + 1 }
          have halloc : h.alloc mem text = (some h.cells.length, h') := if_pos hmem
          refine Or.inl ⟨.cell h.cells.length, b.pos + 4 + size.toNat, h', ?_, ?_⟩
          · simp only [readString, hread, if_neg hzero, hdup]
            rw [halloc]
          · rw [hend, if_pos hmem]
        · have halloc : h.alloc mem text = (none, _) := if_neg hmem
          refine Or.inr ⟨.enomem, .null, b.pos + 4, { h with ticks := h.ticks + 1 }, ?_, ?_, ?_⟩
          · simp only [readString, hread, if_neg hzero, hdup]
            rw [halloc]
          · rw [hend, if_neg hmem]
          · rw [htried, hend]
            rfl

/-- A value is decoded exactly if it arrives. -/
lemma decodeValue_ends (mem : ℕ → Bool) (t : BaseType) (old : t.Mem) (b : Buffer) (h : StringHeap) :
    (∃ v pos h', decodeValue mem t old b h = (.ok (), v, { b with pos := pos }, h') ∧
        valueEnd mem b t b.pos h.ticks = some (pos, h'.ticks)) ∨
      ∃ e v pos h', decodeValue mem t old b h = (.error e, v, { b with pos := pos }, h') ∧
        valueEnd mem b t b.pos h.ticks = none ∧ h'.ticks = triedTicks b t b.pos h.ticks := by
  -- without the heap, memory is not asked for
  have hword : t ≠ .string →
      (∃ v pos h', decodeValue mem t old b h = (.ok (), v, { b with pos := pos }, h') ∧
        valueEnd mem b t b.pos h.ticks = some (pos, h'.ticks)) ∨
      (∃ e v, decodeValue mem t old b h = (.error e, v, b, h)) ∧ valueEnd mem b t b.pos h.ticks =
        none := by
    intro ht
    cases t with
    | u8 | i8 => exact readInto_ends UInt8.ofNat b.length 1 .eagain old b h
    | bool =>
      have hbool : decodeValue mem .bool old b h =
          readInto ((bufferReadWord b.length 1 .eagain b).map
            (Except.map fun n => if UInt8.ofNat n = 0 then (0 : UInt8) else 1) id) old h := by
        change readInto (((bufferReadWord b.length 1 .eagain b).map _ id).map _ id) old h = _
        generalize bufferReadWord b.length 1 .eagain b = r
        rcases r with ⟨_ | _, _⟩ <;> rfl
      rw [hbool]
      exact readInto_ends _ b.length 1 .eagain old b h
    | u16 | i16 => exact readInto_ends UInt16.ofNat b.length 2 .einval old b h
    | u32 | i32 | enum | f32 => exact readInto_ends UInt32.ofNat b.length 4 .eagain old b h
    | u64 | i64 | f64 => exact readInto_ends UInt64.ofNat b.size 8 .einval old b h
    | string => exact absurd rfl ht
  by_cases ht : t = .string
  · subst ht
    exact readString_ends old b h
  · rcases hword ht with hok | ⟨⟨e, v, hvalue⟩, hnone⟩
    · exact Or.inl hok
    · refine Or.inr ⟨e, v, b.pos, h, hvalue, hnone, ?_⟩
      have hsame : valueEnd (fun _ => true) b t b.pos h.ticks = valueEnd mem b t b.pos h.ticks := by
        cases t <;> first | rfl | exact absurd rfl ht
      rw [triedTicks, hsame, hnone]
      rfl

@[simp] lemma valueEnd_seek (mem : ℕ → Bool) (b : Buffer) (p : ℕ) (t : BaseType) (pos ticks : ℕ) :
    valueEnd mem { b with pos := p } t pos ticks = valueEnd mem b t pos ticks := by
  cases t <;> rfl

/-- The items of an array are decoded exactly if they arrive. -/
lemma decodeItems_ends (mem : ℕ → Bool) (b : Buffer) (t : BaseType) (n pos : ℕ) (h : StringHeap) :
    (∃ vs pos' h', decodeItems mem t n { b with pos := pos } h =
      (.ok vs, { b with pos := pos' }, h') ∧
        itemsEnd mem b t n pos h.ticks = some (pos', h'.ticks)) ∨
      (∃ e b' h', decodeItems mem t n { b with pos := pos } h = (.error e, b', h')) ∧
        itemsEnd mem b t n pos h.ticks = none := by
  induction n generalizing pos h with
  | zero => exact Or.inl ⟨[], pos, h, rfl, rfl⟩
  | succ n ih =>
    unfold decodeItems itemsEnd
    rcases decodeValue_ends mem t t.newItem { b with pos := pos } h with
      ⟨v, pos₁, h₁, hvalue, hnext⟩ | ⟨e, v, pos₁, h₁, hvalue, hnext, -⟩ <;>
        rw [valueEnd_seek] at hnext
    · rw [hvalue, hnext, Option.bind_some]
      rcases ih pos₁ h₁ with ⟨vs, pos₂, h₂, hitems, hend⟩ | ⟨⟨e, b₂, h₂, hitems⟩, hend⟩
      · exact Or.inl ⟨v :: vs, pos₂, h₂, by simp only [hitems], hend⟩
      · exact Or.inr ⟨⟨e, b₂, h₂, by simp only [hitems]⟩, hend⟩
    · rw [hvalue, hnext]
      exact Or.inr ⟨⟨e, _, h₁, rfl⟩, rfl⟩

lemma decodeItems_ok_iff (mem : ℕ → Bool) (b : Buffer) (t : BaseType) (n pos : ℕ) (h : StringHeap) :
    (∃ vs, (decodeItems mem t n { b with pos := pos } h).1 = .ok vs) ↔
    ItemsArrive mem b t n pos h.ticks := by
  unfold ItemsArrive
  rcases decodeItems_ends mem b t n pos h with ⟨vs, pos', h', hitems, hend⟩ |
    ⟨⟨e, b', h', hitems⟩, hend⟩
  · rw [hitems, hend]
    exact iff_of_true ⟨vs, rfl⟩ rfl
  · rw [hitems, hend]
    refine iff_of_false ?_ Bool.false_ne_true
    rintro ⟨vs, hok⟩
    cases hok

/-- An array that is decoded has its items exactly if they arrive. -/
theorem rep_fieldArrayDecode_iff {t : BaseType} {old : ArrayMem t} (hold : old.Rep) (b : Buffer)
    (h : StringHeap) :
    (fieldArrayDecode mem old b h).2.1.Rep ↔ ArrayArrives mem b t b.pos h.ticks := by
  have hread := bufferReadU32_eq b
  have hsize := toNat_slice b
  have harrives : ArrayArrives mem b t b.pos h.ticks ↔
      (b.pos + 4 ≤ b.length → ofBigEndian (b.slice 4) ≠ 0 →
      mem h.ticks = true ∧ ItemsArrive mem b t (ofBigEndian (b.slice 4)) (b.pos + 4)
        (h.ticks + 1)) := Iff.rfl
  rw [harrives]
  by_cases hlt : b.length < b.pos + 4
  · rw [if_pos hlt] at hread
    have hrun : fieldArrayDecode mem old b h = (.error .eagain, old, b, h) := by
      rw [fieldArrayDecode, hread]
    rw [hrun]
    exact iff_of_true hold fun hle => absurd hlt (not_lt.mpr hle)
  · rw [if_neg hlt] at hread
    rw [← hsize]
    generalize UInt32.ofNat (ofBigEndian (b.slice 4)) = n at hread
    have hzero : n.toNat = 0 ↔ n = 0 := by rw [← UInt32.toNat_inj, UInt32.toNat_zero]
    by_cases hn : n.toNat = 0
    · have hrun : fieldArrayDecode mem old b h =
          (.ok (), ⟨n, none⟩, { b with pos := b.pos + 4 }, h) := by
        simp only [fieldArrayDecode, hread, fieldArrayAlloc, hn, if_true]
        rfl
      rw [hrun]
      exact iff_of_true ⟨hn.symm, iff_of_true rfl (hzero.mp hn)⟩ fun _ hne => absurd hn hne
    · have hlost : ¬(⟨n, none⟩ : ArrayMem t).Rep := fun hrep => hn (hzero.mpr (hrep.null.mp rfl))
      by_cases hmem : mem h.ticks = true
      · let h₁ : StringHeap := { h with ticks := h.ticks + 1 }
        have halloc : fieldArrayAlloc mem t n.toNat h =
            (some (some (List.replicate n.toNat t.newItem)), h₁) := by
          simp only [fieldArrayAlloc, if_neg hn, CellHeap.tick, hmem]
          rfl
        have hitems := decodeItems_ok_iff mem b t n.toNat (b.pos + 4) h₁
        rcases hloop : decodeItems mem t n.toNat { b with pos := b.pos + 4 } h₁ with
          ⟨e | vs, b₂, h₂⟩ <;>
          rw [hloop] at hitems <;> simp only [fieldArrayDecode, hread, halloc, hloop]
        · refine iff_of_false hlost fun harr => ?_
          obtain ⟨vs, hok⟩ := hitems.mpr (harr (not_lt.mp hlt) hn).2
          cases hok
        · have hlen : vs.length = n.toNat := by
            rcases decodeItems_decoded _ hloop with ⟨vs', hok, hlength, -⟩ | ⟨⟨e, herror⟩, -⟩
            · cases hok
              exact hlength
            · cases herror
          refine iff_of_true ⟨hlen, iff_of_false (Option.some_ne_none vs) fun h0 =>
            hn (hzero.mpr h0)⟩ fun _ _ => ?_
          exact ⟨hmem, hitems.mp ⟨vs, rfl⟩⟩
      · have hrun : fieldArrayDecode mem old b h =
            (.error .enomem, ⟨n, none⟩, { b with pos := b.pos + 4 },
            { h with ticks := h.ticks + 1 }) := by
          simp only [fieldArrayDecode, hread, fieldArrayAlloc, if_neg hn, CellHeap.tick,
            Bool.eq_false_iff.mpr hmem]
        rw [hrun]
        exact iff_of_false hlost fun harr => hmem (harr (not_lt.mp hlt) hn).1

/-- A field that is decoded keeps its items if they arrive. -/
lemma rep_fieldDecodeVal {t : FieldType} {old v : t.Mem} {b b' : Buffer} {h h' : StringHeap}
    {r : Except Errno Unit}
    (hold : t.Rep old) (harrives : ∀ t', t = .array t' → ArrayArrives mem b t' b.pos h.ticks)
    (hrun : fieldDecodeVal mem t old b h = (r, v, b', h')) : t.Rep v := by
  cases t with
  | value t => trivial
  | array t =>
    have hrep := (rep_fieldArrayDecode_iff hold b h).mpr (harrives t rfl)
    change fieldArrayDecode mem old b h = _ at hrun
    rw [hrun] at hrep
    exact hrep

end Arriving

end Memory

end Obus
