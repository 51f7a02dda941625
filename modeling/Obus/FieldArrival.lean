import Obus.ArrayDecode
import Obus.DecoderLemmas

/-!
# What arrives of a struct

The fields of an encoded struct follow each other, and how far each of them reaches can be told from
the bytes of the buffer, the descriptor and the memory that is left (`fieldNext`): a field that the
struct has ends where its value ends, and any other one, or one whose value does not arrive, is
skipped.  The decoding of a field goes there (`fieldDecode_next`), unless it leaves the count of an
array without its items; `FieldsArrive` says that no field of a struct is such an array.
-/

namespace Obus

namespace Memory

/-! ## Where the fields end -/

section Ends

variable (mem : ℕ → Bool) (fuel : ℕ) (d : StructDesc) (b : Buffer)

/-- Bytes are skipped if all of them are in the buffer. -/
def skipBytes (k pos : ℕ) : ℕ := if b.length < pos + k then pos else pos + k

/-- Where a value is skipped to, if its type is known. -/
def skipValue : Option BaseType → ℕ → ℕ
  | some .u8, pos | some .i8, pos | some .bool, pos => skipBytes b 1 pos
  | some .u16, pos | some .i16, pos => skipBytes b 2 pos
  | some .u32, pos | some .i32, pos | some .enum, pos | some .f32, pos => skipBytes b 4 pos
  | some .u64, pos | some .i64, pos | some .f64, pos => skipBytes b 8 pos
  | some .string, pos =>
    if b.length < pos + 4 then pos
      else skipBytes b (ofBigEndian ((b.data.drop pos).take 4)) (pos + 4)
  | none, pos => pos

/-- Where the content of a field is skipped to, by its type byte. -/
def skipEnd (type : UInt8) (pos : ℕ) : ℕ :=
  let t := BaseType.ofCode? (maskCode type)
  if isArrayCode type then
    if b.length < pos + 4 then pos
    else (skipValue b t)^[ofBigEndian ((b.data.drop pos).take 4)] (pos + 4)
  else skipValue b t pos

/-- Where the content of a field ends, and the number of the allocation after it, if it arrives. -/
def contentNext : FieldType → ℕ → ℕ → Option (ℕ × ℕ)
  | .value t, pos, ticks => valueEnd mem b t pos ticks
  | .array t, pos, ticks =>
    let n := ofBigEndian ((b.data.drop pos).take 4)
    if b.length < pos + 4 then none
    else itemsEnd mem b t n (pos + 4) (if n = 0 then ticks else ticks + 1)

/-- The number of the allocation after the content of a field that does not arrive; of an array, the
count is missing. -/
def contentTried : FieldType → ℕ → ℕ → ℕ
  | .value t, pos, ticks => triedTicks b t pos ticks
  | .array _, _, ticks => ticks

/-- The two bytes at a position, as the uid of a field or the number of the fields. -/
def u16At (pos : ℕ) : UInt16 := UInt16.ofNat (ofBigEndian ((b.data.drop pos).take 2))

/-- The type byte of a field. -/
def typeByte (pos : ℕ) : UInt8 := UInt8.ofNat (ofBigEndian ((b.data.drop (pos + 2)).take 1))

/-- Where the next field of a struct ends, and the number of the allocation after it. -/
def fieldNext (pos ticks : ℕ) : Option (ℕ × ℕ) :=
  if b.length < pos + 2 then some (pos, ticks)
  else if b.length < pos + 2 + 1 then some (pos + 2, ticks)
  else
    let skipped := skipEnd b (typeByte b pos) (pos + 3)
    (structGetFieldDesc d (u16At b pos) fuel 0).map fun
      | none => (skipped, ticks)
      | some k =>
        if (d.get k).type.code ≠ typeByte b pos then (skipped, ticks)
        else
          (contentNext mem b (d.get k).type (pos + 3) ticks).getD
            (skipped, contentTried b (d.get k).type (pos + 3) ticks)

/-- The next field of a struct is no array whose count is there without its items. -/
def FieldArrives (pos ticks : ℕ) : Prop :=
  pos + 3 ≤ b.length → ∀ k t, structGetFieldDesc d (u16At b pos) fuel 0 = some (some k) →
  (d.get k).type = .array t →
    (d.get k).type.code = typeByte b pos → ArrayArrives mem b t (pos + 3) ticks

/-- Of the next fields of a struct, none is an array whose count is there without its items. -/
def FieldsArrive : ℕ → ℕ → ℕ → Prop
  | 0, _, _ => True
  | n + 1, pos, ticks => FieldArrives mem fuel d b pos ticks ∧
      ∀ next ∈ fieldNext mem fuel d b pos ticks, FieldsArrive n next.1 next.2

end Ends

/-! ## Skipping -/

section Skips

open Prog

variable {b : Buffer} {pos : ℕ}

lemma on_skipBytes (k : ℕ) (b : Buffer) (pos : ℕ) :
    Dec.on (do let _ ← (incReadPosition k).attempt) (b.seek pos) =
      (.ok (), b.seek (skipBytes b k pos)) := by
  have hrun : (incReadPosition k).attempt.run readHandler (b.seek pos) =
      (.ok (bufferIncReadPosition k (b.seek pos)).1, (bufferIncReadPosition k (b.seek pos)).2) := by
    rw [run_attempt, incReadPosition, run_perform]
    rfl
  refine (run_bind_ok _ hrun).trans ?_
  unfold bufferIncReadPosition skipBytes
  rw [Nat.add_comm k (b.seek pos).pos]
  change _ = (_, b.seek (if (b.seek pos).length < (b.seek pos).pos + k then _ else _))
  split <;> rfl

lemma on_readU32_attempt {α : Type} (b : Buffer) (pos : ℕ) (f : Except Errno UInt32 → Dec α) :
    Dec.on (readU32.attempt >>= f) (b.seek pos) = if b.length < pos + 4
      then Dec.on (f (.error .eagain)) (b.seek pos)
      else Dec.on (f (.ok (UInt32.ofNat (ofBigEndian ((b.data.drop pos).take 4)))))
        (b.seek (pos + 4)) := by
  have hrun : readU32.attempt.run readHandler (b.seek pos) =
      (.ok (bufferReadU32 (b.seek pos)).1, (bufferReadU32 (b.seek pos)).2) := by
    rw [run_attempt, readU32, run_perform]
    rfl
  refine (run_bind_ok _ hrun).trans ?_
  rw [bufferReadU32_eq]
  change _ = if (b.seek pos).length < (b.seek pos).pos + 4 then _ else _
  split <;> rfl

lemma toNat_word (b : Buffer) (pos : ℕ) :
    (UInt32.ofNat (ofBigEndian ((b.data.drop pos).take 4))).toNat =
    ofBigEndian ((b.data.drop pos).take 4) := toNat_slice (b.seek pos)

lemma on_fieldSkipValue (type : UInt8) (b : Buffer) (pos : ℕ) :
    (fieldSkipValue type).on (b.seek pos) =
      (.ok (), b.seek (skipValue b (BaseType.ofCode? (maskCode type)) pos)) := by
  unfold fieldSkipValue
  cases BaseType.ofCode? (maskCode type) with
  | none => rfl
  | some t =>
    cases t with
    | u8 | i8 | bool => exact on_skipBytes 1 b pos
    | u16 | i16 => exact on_skipBytes 2 b pos
    | u32 | i32 | enum | f32 => exact on_skipBytes 4 b pos
    | u64 | i64 | f64 => exact on_skipBytes 8 b pos
    | string =>
      refine (on_readU32_attempt b pos _).trans ?_
      simp only [skipValue, toNat_word]
      split
      · rfl
      · exact on_skipBytes _ b (pos + 4)

/-- A field that is skipped ends where its bytes say. -/
lemma on_skipField (type : UInt8) (b : Buffer) (pos : ℕ) :
    (skipField type).on (b.seek pos) = (.ok (), b.seek (skipEnd b type pos)) := by
  unfold skipField skipEnd
  simp only
  split
  · refine (on_readU32_attempt b pos _).trans ?_
    split
    · rfl
    · change Dec.on (iter _ _ ()) _ = _
      rw [toNat_word]
      generalize ofBigEndian ((b.data.drop pos).take 4) = n
      generalize pos + 4 = start
      induction n generalizing start with
      | zero => rfl
      | succ n ih =>
        rw [Function.iterate_succ_apply]
        exact (run_bind_ok _ (on_fieldSkipValue type b start)).trans (ih _)
  · exact on_fieldSkipValue type b pos

end Skips

/-! ## Decoding -/

lemma itemsEnd_seek (mem : ℕ → Bool) (b : Buffer) (p : ℕ) (t : BaseType) (n pos ticks : ℕ) :
    itemsEnd mem (b.seek p) t n pos ticks = itemsEnd mem b t n pos ticks := by
  induction n generalizing pos ticks with
  | zero => rfl
  | succ n ih =>
    unfold itemsEnd
    rw [Buffer.seek, valueEnd_seek]
    exact congrArg _ (funext fun next => ih next.1 next.2)

/-- What arrives does not depend on the read position. -/
lemma ArrayArrives.seek {mem : ℕ → Bool} {b : Buffer} {t : BaseType} {pos ticks : ℕ}
    (h : ArrayArrives mem b t pos ticks) (p : ℕ) : ArrayArrives mem (b.seek p) t pos ticks := by
  intro hin hcount
  obtain ⟨hmem, hitems⟩ := h hin hcount
  refine ⟨hmem, ?_⟩
  rw [ItemsArrive, itemsEnd_seek]
  exact hitems

section Decoding

variable {mem : ℕ → Bool} {fuel : ℕ} {d : StructDesc} {b b' : Buffer} {h h' : StringHeap}
  {st st' : StructMem d}

/-- The content of a field is decoded to where it ends, or not at all. -/
lemma fieldDecodeVal_ends {t : FieldType} (old : t.Mem) (pos : ℕ)
    (harrives : ∀ t', t = .array t' → ArrayArrives mem b t' pos h.ticks) :
    (∃ v pos' h', fieldDecodeVal mem t old (b.seek pos) h = (.ok (), v, b.seek pos', h') ∧
        contentNext mem b t pos h.ticks = some (pos', h'.ticks)) ∨
      ∃ e v pos' h', fieldDecodeVal mem t old (b.seek pos) h = (.error e, v, b.seek pos', h') ∧
        contentNext mem b t pos h.ticks = none ∧ h'.ticks = contentTried b t pos h.ticks := by
  cases t with
  | value t =>
    have hend := decodeValue_ends mem t old (b.seek pos) h
    unfold triedTicks at hend
    unfold Buffer.seek at hend
    simp only [valueEnd_seek] at hend
    exact hend
  | array t =>
    have hread : bufferReadU32 (b.seek pos) = if b.length < pos + 4
        then (.error .eagain, b.seek pos)
        else (.ok (UInt32.ofNat (ofBigEndian ((b.data.drop pos).take 4))), b.seek (pos + 4)) :=
          bufferReadU32_eq _
    have hsize := toNat_word b pos
    have harrive : pos + 4 ≤ b.length → ofBigEndian ((b.data.drop pos).take 4) ≠ 0 →
        mem h.ticks = true ∧
          ItemsArrive mem b t (ofBigEndian ((b.data.drop pos).take 4)) (pos + 4) (h.ticks + 1) :=
            harrives t rfl
    simp only [contentNext, contentTried]
    by_cases hlt : b.length < pos + 4
    · rw [if_pos hlt] at hread
      refine Or.inr ⟨.eagain, old, pos, h, ?_, if_pos hlt, rfl⟩
      simp only [fieldDecodeVal, fieldArrayDecode, hread]
    · rw [if_neg hlt] at hread
      generalize UInt32.ofNat (ofBigEndian ((b.data.drop pos).take 4)) = n at hread hsize
      rw [← hsize] at harrive
      rw [← hsize, if_neg hlt]
      by_cases hn : n.toNat = 0
      · refine Or.inl ⟨⟨n, none⟩, pos + 4, h, ?_, ?_⟩
        · simp only [fieldDecodeVal, fieldArrayDecode, hread, fieldArrayAlloc, hn, if_true]
          rfl
        · rw [if_pos hn, hn]
          rfl
      · obtain ⟨hmem, hitems⟩ := harrive (not_lt.mp hlt) hn
        let h₁ : StringHeap := { h with ticks := h.ticks + 1 }
        have halloc : fieldArrayAlloc mem t n.toNat h =
            (some (some (List.replicate n.toNat t.newItem)), h₁) := by
          simp only [fieldArrayAlloc, if_neg hn, CellHeap.tick, hmem]
          rfl
        rcases decodeItems_ends mem b t n.toNat (pos + 4) h₁ with
          ⟨vs, pos', h', hloop, hend⟩ | ⟨-, hend⟩
        · refine Or.inl ⟨⟨n, some vs⟩, pos', h', ?_, ?_⟩
          · simp only [fieldDecodeVal, fieldArrayDecode, hread, halloc]
            rw [Buffer.seek, hloop]
            rfl
          · rw [if_neg hn]
            exact hend
        · have hsome : (itemsEnd mem b t n.toNat (pos + 4) h₁.ticks).isSome = true := hitems
          rw [hend] at hsome
          cases hsome

/-- Two bytes, and then a type byte, are read if they are in the buffer. -/
lemma bufferReadU16_seek (b : Buffer) (pos : ℕ) : bufferReadU16 (b.seek pos) =
    if b.length < pos + 2 then (.error .einval, b.seek pos)
      else (.ok (u16At b pos), b.seek (pos + 2)) := by
  change (bufferReadWord b.length 2 .einval (b.seek pos)).map _ id = _
  unfold bufferReadWord
  change Prod.map _ id (if b.length < pos + 2 then _ else _) = _
  split <;> rfl

lemma bufferReadU8_seek (b : Buffer) (pos : ℕ) : bufferReadU8 (b.seek (pos + 2)) =
    if b.length < pos + 2 + 1 then (.error .eagain, b.seek (pos + 2))
    else (.ok (typeByte b pos), b.seek (pos + 3)) := by
  change (bufferReadWord b.length 1 .eagain (b.seek (pos + 2))).map _ id = _
  unfold bufferReadWord
  change Prod.map _ id (if b.length < pos + 2 + 1 then _ else _) = _
  split <;> rfl

/-- The decoding of a field goes to where the field ends. -/
lemma structDecodeField_next {pos : ℕ} (harrives : FieldArrives mem fuel d b pos h.ticks)
    (hrun : structDecodeField mem fuel st (b.seek pos) h = some (st', b', h')) :
    ∃ pos', fieldNext mem fuel d b pos h.ticks = some (pos', h'.ticks) ∧ b' = b.seek pos' := by
  unfold structDecodeField fieldDecode at hrun
  unfold fieldNext
  rw [bufferReadU16_seek] at hrun
  by_cases huid : b.length < pos + 2
  · rw [if_pos huid] at hrun
    rw [if_pos huid]
    cases hrun
    exact ⟨pos, rfl, rfl⟩
  · rw [if_neg huid] at hrun
    rw [if_neg huid]
    simp only [bufferReadU8_seek] at hrun
    by_cases htype : b.length < pos + 2 + 1
    · rw [if_pos htype] at hrun
      rw [if_pos htype]
      cases hrun
      exact ⟨pos + 2, rfl, rfl⟩
    · rw [if_neg htype] at hrun
      rw [if_neg htype]
      simp only [on_skipField] at hrun
      cases hdesc : structGetFieldDesc d (u16At b pos) fuel 0 with
      | none =>
        rw [hdesc] at hrun
        cases hrun
      | some k =>
        rw [hdesc] at hrun
        cases k with
        | none =>
          cases hrun
          exact ⟨_, rfl, rfl⟩
        | some k =>
          simp only [Option.map_some] at hrun ⊢
          by_cases hcode : (d.get k).type.code = typeByte b pos
          · rw [if_neg (not_not.mpr hcode)] at hrun ⊢
            have hcontent : ∀ t, (d.get k).type = .array t →
                ArrayArrives mem b t (pos + 3) h.ticks :=
              fun t ht => harrives (not_lt.mp htype) k t hdesc ht hcode
            rcases fieldDecodeVal_ends (st.vals k) (pos + 3) hcontent with
              ⟨v, pos', h₁, hval, hend⟩ | ⟨e, v, pos', h₁, hval, hend, hticks⟩
            · rw [hval] at hrun
              cases hrun
              exact ⟨pos', by rw [hend]; rfl, rfl⟩
            · -- the position that is set is in the buffer, since the head of the field was read
              have hback : (bufferSetReadPosition (b.seek (pos + 3)).pos (b.seek pos')).2 =
                  b.seek (pos + 3) :=
                congrArg Prod.snd (if_neg htype)
              rw [hval] at hrun
              simp only [hback, on_skipField] at hrun
              cases hrun
              exact ⟨_, by rw [hend, hticks]; rfl, rfl⟩
          · rw [if_pos hcode] at hrun ⊢
            cases hrun
            exact ⟨_, rfl, rfl⟩

end Decoding

end Memory

end Obus
