import Obus.DecoderLemmas
import Obus.FrameLayout
import Obus.StructCodec

/-!
# Decoding a packet that lies in its bytes

On every buffer that starts with the bytes of a packet, a decoder of a part that ends in the packet
gives one and the same value and goes to the end of the part (`GoesTo`); where only the value is the
same, the decoder `Reads` it.
-/

namespace Obus

open Prog

/-- A buffer that starts with some bytes, read up to a position. -/
structure Buffer.At (data : List UInt8) (pos : ℕ) (b : Buffer) : Prop where
  ok : b.Ok
  starts : data <+: b.content
  pos : b.pos = pos

/-- A buffer that holds some bytes and nothing else. -/
def exactly (data : List UInt8) (pos : ℕ) : Buffer := ⟨data, data.length, pos⟩

/-- On every buffer that starts with the bytes, the program reads a value and goes to a position. -/
def GoesTo {α : Type} (data : List UInt8) (p : Dec α) (pos : ℕ) (a : α) (pos' : ℕ) : Prop :=
  ∀ b, b.At data pos → p.on b = (.ok a, b.seek pos')

/-- On every buffer that starts with the bytes, the program reads a value. -/
def Reads {α : Type} (data : List UInt8) (p : Dec α) (pos : ℕ) (a : α) : Prop :=
  ∀ b, b.At data pos → (p.on b).1 = .ok a

section Buffers

variable {data : List UInt8} {pos : ℕ} {b : Buffer}

lemma exactly_at (t : List UInt8) : (exactly (data ++ t) pos).At data pos := by
  refine ⟨le_rfl, ?_, rfl⟩
  rw [exactly, Buffer.content, List.take_length]
  exact List.prefix_append data t

lemma exactly_at_self : (exactly data pos).At data pos := by
  have h : (exactly (data ++ []) pos).At data pos := exactly_at []
  rwa [List.append_nil] at h

lemma Buffer.At.seek (h : b.At data pos) (pos' : ℕ) : (b.seek pos').At data pos' :=
  ⟨h.ok, h.starts, rfl⟩

lemma Buffer.At.length_le (h : b.At data pos) : data.length ≤ b.length := by
  rw [← Buffer.content_length h.ok]
  exact h.starts.length_le

lemma Buffer.At.slice {k : ℕ} (h : b.At data pos) (hk : pos + k ≤ data.length) :
    b.slice k = (data.drop pos).take k := by
  obtain ⟨t, ht⟩ := h.starts
  have hle := h.length_le
  rw [Buffer.slice_eq_content (by rw [h.pos]; omega), ← ht, h.pos,
    List.drop_append_of_le_length (by omega),
    List.take_append_of_le_length (by rw [List.length_drop]; omega)]

/-- A number in the packet is read. -/
lemma Buffer.At.readWord {limit k : ℕ} {e : Errno} (h : b.At data pos) (hk : pos + k ≤ data.length)
    (hlimit : b.length ≤ limit) :
    bufferReadWord limit k e b = (.ok (wordAt data k pos), b.seek (pos + k)) := by
  have hle := h.length_le
  have hpos := h.pos
  rw [bufferReadWord, if_neg (by omega), h.slice hk, hpos]
  rfl

/-- Decoding moves the read position and nothing else. -/
lemma Dec.on_seek {α : Type} (p : Dec α) (b : Buffer) : (p.on b).2 = b.seek (p.on b).2.pos := by
  obtain ⟨hdata, hlength⟩ := Dec.on_frame p b
  cases hb : (p.on b).2
  rw [hb] at hdata hlength
  subst hdata hlength
  rfl

end Buffers

section Rules

variable {α β : Type} {data : List UInt8} {p : Dec α} {f : α → Dec β} {pos pos' pos'' : ℕ}
  {a : α} {c : β}

lemma goesTo_pure (a : α) : GoesTo data (pure a) pos a pos := by
  intro b hb
  rw [← hb.pos]
  rfl

lemma GoesTo.bind (hp : GoesTo data p pos a pos') (hf : GoesTo data (f a) pos' c pos'') :
    GoesTo data (p >>= f) pos c pos'' := by
  intro b hb
  rw [Dec.on, run_bind_ok _ (hp b hb)]
  exact hf (b.seek pos') (hb.seek pos')

lemma GoesTo.bind_reads (hp : GoesTo data p pos a pos') (hf : Reads data (f a) pos' c) :
    Reads data (p >>= f) pos c := by
  intro b hb
  rw [Dec.on, run_bind_ok _ (hp b hb)]
  exact hf (b.seek pos') (hb.seek pos')

lemma GoesTo.reads (hp : GoesTo data p pos a pos') : Reads data p pos a := by
  intro b hb
  rw [hp b hb]

lemma GoesTo.map (hp : GoesTo data p pos a pos') (g : α → β) :
    GoesTo data (g <$> p) pos (g a) pos' :=
  hp.bind (goesTo_pure (g a))

lemma GoesTo.attempt (hp : GoesTo data p pos a pos') : GoesTo data p.attempt pos (.ok a) pos' := by
  intro b hb
  rw [Dec.on, run_attempt, ← Dec.on, hp b hb]

lemma Reads.bind (hp : Reads data p pos a) (hf : ∀ pos', Reads data (f a) pos' c) :
    Reads data (p >>= f) pos c := by
  intro b hb
  have hrun : p.run readHandler b = (.ok a, b.seek (p.on b).2.pos) :=
    Prod.ext (hp b hb) (Dec.on_seek p b)
  rw [Dec.on, run_bind_ok _ hrun]
  exact hf _ _ (hb.seek _)

lemma Reads.map (hp : Reads data p pos a) (g : α → β) : Reads data (g <$> p) pos (g a) :=
  hp.bind fun _ => (goesTo_pure (g a)).reads

lemma Reads.attempt (hp : Reads data p pos a) : Reads data p.attempt pos (.ok a) := by
  intro b hb
  rw [Dec.on, run_attempt, ← Dec.on, hp b hb]

/-- The program fails on no buffer. -/
def Total (p : Dec α) : Prop := ∀ b, ∃ a, (p.on b).1 = .ok a

lemma total_pure (a : α) : Total (pure a) := fun _ => ⟨a, rfl⟩

lemma total_attempt (p : Dec α) : Total p.attempt := by
  intro b
  exact ⟨(p.on b).1, congrArg Prod.fst (run_attempt readHandler p b)⟩

lemma total_getReadPosition : Total getReadPosition := fun b => ⟨b.pos, rfl⟩

lemma Total.bind (hp : Total p) (hf : ∀ a, Total (f a)) : Total (p >>= f) := by
  intro b
  obtain ⟨a, ha⟩ := hp b
  have hrun : p.run readHandler b = (.ok a, (p.on b).2) := Prod.ext ha rfl
  rw [Dec.on, run_bind_ok _ hrun]
  exact hf a _

lemma total_iter {f : α → Dec α} (hf : ∀ a, Total (f a)) (n : ℕ) (a : α) : Total (iter f n a) := by
  induction n generalizing a with
  | zero => exact total_pure a
  | succ n ih => exact (hf a).bind ih

lemma Total.reads {p : Dec Unit} (hp : Total p) : Reads data p pos () := by
  intro b _
  obtain ⟨⟨⟩, h⟩ := hp b
  exact h

lemma goesTo_readU8 (h : pos + 1 ≤ data.length) :
    GoesTo data readU8 pos (UInt8.ofNat (wordAt data 1 pos)) (pos + 1) := by
  intro b hb
  rw [Dec.on, readU8, run_perform, readHandler, bufferReadU8, hb.readWord h le_rfl]
  rfl

lemma goesTo_readU16 (h : pos + 2 ≤ data.length) :
    GoesTo data readU16 pos (UInt16.ofNat (wordAt data 2 pos)) (pos + 2) := by
  intro b hb
  rw [Dec.on, readU16, run_perform, readHandler, bufferReadU16, hb.readWord h le_rfl]
  rfl

lemma goesTo_readU32 (h : pos + 4 ≤ data.length) :
    GoesTo data readU32 pos (UInt32.ofNat (wordAt data 4 pos)) (pos + 4) := by
  intro b hb
  rw [Dec.on, readU32, run_perform, readHandler, bufferReadU32, hb.readWord h le_rfl]
  rfl

lemma goesTo_readU64 (h : pos + 8 ≤ data.length) :
    GoesTo data readU64 pos (UInt64.ofNat (wordAt data 8 pos)) (pos + 8) := by
  intro b hb
  rw [Dec.on, readU64, run_perform, readHandler, bufferReadU64, hb.readWord h hb.ok]
  rfl

lemma goesTo_dup {n : ℕ} (hn : n ≠ 0) (h : pos + n ≤ data.length) :
    GoesTo data (dup n) pos ((data.drop pos).take n) (pos + n) := by
  intro b hb
  have hle := hb.length_le
  have hpos := hb.pos
  rw [Dec.on, dup, run_perform, readHandler, bufferDup, if_neg hn, if_neg (by omega),
    hb.slice h, hpos]
  rfl

lemma goesTo_incReadPosition {n : ℕ} (h : pos + n ≤ data.length) :
    GoesTo data (incReadPosition n) pos () (pos + n) := by
  intro b hb
  have hle := hb.length_le
  have hpos := hb.pos
  rw [Dec.on, incReadPosition, run_perform, readHandler, bufferIncReadPosition,
    if_neg (by omega), hpos]
  rfl

lemma goesTo_getReadPosition : GoesTo data getReadPosition pos pos pos := by
  intro b hb
  cases hb.pos
  exact run_perform readHandler .getReadPosition b

/-- A number in the packet is smaller than the next power. -/
lemma wordAt_lt (k : ℕ) : wordAt data k pos < 256 ^ k := by
  refine (ofBigEndian_lt _).trans_le (Nat.pow_le_pow_right (by decide) ?_)
  exact List.length_take_le _ _

lemma toNat_wordAt16 : (UInt16.ofNat (wordAt data 2 pos)).toNat = wordAt data 2 pos :=
  UInt16.toNat_ofNat_of_lt' (wordAt_lt 2)

lemma toNat_wordAt32 : (UInt32.ofNat (wordAt data 4 pos)).toNat = wordAt data 4 pos :=
  UInt32.toNat_ofNat_of_lt' (wordAt_lt 4)

end Rules

/-! ## Fields -/

section Fields

variable {data : List UInt8} {pos pos' : ℕ}

/-- The string that stands at a position. -/
def textAt (data : List UInt8) (pos : ℕ) : Option CString :=
  let size := wordAt data 4 pos
  if size = 0 then none
  else some (CString.ofBytes (((data.drop (pos + 4)).take size).set (size - 1) 0))

/-- The value that stands at a position. -/
def cellAt (data : List UInt8) (pos : ℕ) : (t : BaseType) → t.Cell
  | .u8 | .i8 => UInt8.ofNat (wordAt data 1 pos)
  | .bool => if UInt8.ofNat (wordAt data 1 pos) = 0 then (0 : UInt8) else (1 : UInt8)
  | .u16 | .i16 => UInt16.ofNat (wordAt data 2 pos)
  | .u32 | .i32 | .enum | .f32 => UInt32.ofNat (wordAt data 4 pos)
  | .u64 | .i64 | .f64 => UInt64.ofNat (wordAt data 8 pos)
  | .string => textAt data pos

lemma GoesTo.readInto {α : Type} {p : Dec α} {a : α} (hp : GoesTo data p pos a pos') (old : α) :
    GoesTo data (readInto p old) pos (.ok (), a) pos' :=
  hp.attempt.bind (goesTo_pure _)

lemma goesTo_readString {old : Option CString} (h : textEnd data pos = some pos') :
    GoesTo data (readString old) pos (.ok (), textAt data pos) pos' := by
  obtain ⟨mid, hsize, hend⟩ := Option.bind_eq_some_iff.mp h
  obtain ⟨hin, rfl⟩ := bytesEnd_eq_some.mp hsize
  obtain ⟨hin', rfl⟩ := bytesEnd_eq_some.mp hend
  refine (goesTo_readU32 hin).attempt.bind ?_
  have hzero : UInt32.ofNat (wordAt data 4 pos) = 0 ↔ wordAt data 4 pos = 0 := by
    rw [← UInt32.toNat_inj, toNat_wordAt32, UInt32.toNat_zero]
  unfold textAt
  simp only [hzero, toNat_wordAt32]
  split_ifs with hsize
  · rw [hsize]
    exact goesTo_pure _
  · exact (goesTo_dup hsize hin').attempt.bind (goesTo_pure _)

/-- A value in the packet is decoded. -/
lemma goesTo_decodeValue {t : BaseType} {old : t.Cell} (h : cellEnd data t pos = some pos') :
    GoesTo data (decodeValue t old) pos (.ok (), cellAt data pos t) pos' := by
  cases t with
  | u8 | i8 =>
    obtain ⟨hin, rfl⟩ := bytesEnd_eq_some.mp h
    exact (goesTo_readU8 hin).readInto old
  | bool =>
    obtain ⟨hin, rfl⟩ := bytesEnd_eq_some.mp h
    exact ((goesTo_readU8 hin).map _).readInto old
  | u16 | i16 =>
    obtain ⟨hin, rfl⟩ := bytesEnd_eq_some.mp h
    exact (goesTo_readU16 hin).readInto old
  | u32 | i32 | enum | f32 =>
    obtain ⟨hin, rfl⟩ := bytesEnd_eq_some.mp h
    exact (goesTo_readU32 hin).readInto old
  | u64 | i64 | f64 =>
    obtain ⟨hin, rfl⟩ := bytesEnd_eq_some.mp h
    exact (goesTo_readU64 hin).readInto old
  | string => exact goesTo_readString h

lemma exists_goesTo_decodeItems {t : BaseType} {n : ℕ} (h : cellsEnd data t n pos = some pos') :
    ∃ vs : List t.Cell, vs.length = n ∧ GoesTo data (decodeItems t n) pos (.ok vs) pos' := by
  induction n generalizing pos with
  | zero =>
    cases h
    exact ⟨[], rfl, goesTo_pure _⟩
  | succ n ih =>
    obtain ⟨mid, hfirst, hrest⟩ := Option.bind_eq_some_iff.mp h
    obtain ⟨vs, hlength, hitems⟩ := ih hrest
    refine ⟨cellAt data pos t :: vs, congrArg Nat.succ hlength, ?_⟩
    exact (goesTo_decodeValue hfirst).bind (hitems.bind (goesTo_pure _))

/-- The memory of a field, as the content at a position says. -/
def ReadsAs (data : List UInt8) (pos : ℕ) : (t : FieldType) → t.Val → Prop
  | .value t, v => v = cellAt data pos t
  | .array _, v => v.nItems = UInt32.ofNat (wordAt data 4 pos) ∧ v.items.length = wordAt data 4 pos

lemma contentEnd_value (t : BaseType) :
    contentEnd data (FieldType.value t).code pos = cellEnd data t pos := by
  rw [contentEnd, ofCode?_maskCode_value, isArrayCode_value]

lemma contentEnd_array (t : BaseType) : contentEnd data (FieldType.array t).code pos =
    (bytesEnd data 4 pos).bind (cellsEnd data t (wordAt data 4 pos)) := by
  rw [contentEnd, ofCode?_maskCode_array, isArrayCode_array]

/-- The content of a field that is known is decoded. -/
lemma exists_goesTo_fieldDecodeVal {t : FieldType} (old : t.Val)
    (h : contentEnd data t.code pos = some pos') :
    ∃ v, ReadsAs data pos t v ∧ GoesTo data (fieldDecodeVal t old) pos (.ok (), v) pos' := by
  cases t with
  | value t =>
    rw [contentEnd_value] at h
    exact ⟨_, rfl, goesTo_decodeValue h⟩
  | array t =>
    rw [contentEnd_array] at h
    obtain ⟨mid, hcount, hitems⟩ := Option.bind_eq_some_iff.mp h
    obtain ⟨hin, rfl⟩ := bytesEnd_eq_some.mp hcount
    obtain ⟨vs, hlength, hloop⟩ := exists_goesTo_decodeItems hitems
    refine ⟨⟨UInt32.ofNat (wordAt data 4 pos), vs⟩, ⟨rfl, hlength⟩, ?_⟩
    refine (goesTo_readU32 hin).attempt.bind ?_
    change GoesTo data (decodeItems t (UInt32.ofNat (wordAt data 4 pos)).toNat >>= _) _ _ _
    rw [toNat_wordAt32]
    exact hloop.bind (goesTo_pure _)

lemma goesTo_fieldSkipValue {type : UInt8} {t : BaseType}
    (ht : BaseType.ofCode? (maskCode type) = some t)
    (h : cellEnd data t pos = some pos') : GoesTo data (fieldSkipValue type) pos () pos' := by
  have hbytes : ∀ k, bytesEnd data k pos = some pos' →
      GoesTo data (do let _ ← (incReadPosition k).attempt : Dec Unit) pos () pos' := by
    intro k hk
    obtain ⟨hin, rfl⟩ := bytesEnd_eq_some.mp hk
    exact (goesTo_incReadPosition hin).attempt.bind (goesTo_pure ())
  unfold fieldSkipValue
  rw [ht]
  cases t with
  | u8 | i8 | bool => exact hbytes 1 h
  | u16 | i16 => exact hbytes 2 h
  | u32 | i32 | enum | f32 => exact hbytes 4 h
  | u64 | i64 | f64 => exact hbytes 8 h
  | string =>
    obtain ⟨mid, hsize, hend⟩ := Option.bind_eq_some_iff.mp h
    obtain ⟨hin, rfl⟩ := bytesEnd_eq_some.mp hsize
    obtain ⟨hin', rfl⟩ := bytesEnd_eq_some.mp hend
    refine (goesTo_readU32 hin).attempt.bind ?_
    change GoesTo data ((incReadPosition (UInt32.ofNat (wordAt data 4 pos)).toNat).attempt >>= _) _
        _ _
    rw [toNat_wordAt32]
    exact (goesTo_incReadPosition hin').attempt.bind (goesTo_pure ())

lemma goesTo_fieldSkipValue_untyped {type : UInt8} (ht : BaseType.ofCode? (maskCode type) = none) :
    GoesTo data (fieldSkipValue type) pos () pos := by
  unfold fieldSkipValue
  rw [ht]
  exact goesTo_pure ()

/-- The content of a field that is not known is skipped. -/
lemma goesTo_skipField {type : UInt8} (h : contentEnd data type pos = some pos') :
    GoesTo data (skipField type) pos () pos' := by
  unfold contentEnd at h
  unfold skipField
  cases ht : BaseType.ofCode? (maskCode type) with
  | some t =>
    cases harray : isArrayCode type with
    | false =>
      rw [ht, harray] at h
      exact goesTo_fieldSkipValue ht h
    | true =>
      rw [ht, harray] at h
      obtain ⟨mid, hcount, hitems⟩ := Option.bind_eq_some_iff.mp h
      obtain ⟨hin, rfl⟩ := bytesEnd_eq_some.mp hcount
      refine (goesTo_readU32 hin).attempt.bind ?_
      change GoesTo data (iter _ (UInt32.ofNat (wordAt data 4 pos)).toNat ()) _ _ _
      rw [toNat_wordAt32]
      generalize wordAt data 4 pos = n at hitems
      generalize pos + 4 = start at hitems
      induction n generalizing start with
      | zero =>
        cases hitems
        exact goesTo_pure ()
      | succ n ih =>
        obtain ⟨mid, hfirst, hrest⟩ := Option.bind_eq_some_iff.mp hitems
        exact (goesTo_fieldSkipValue ht hfirst).bind (ih mid hrest)
  | none =>
    cases harray : isArrayCode type with
    | false =>
      rw [ht, harray] at h
      cases h
      exact goesTo_fieldSkipValue_untyped ht
    | true =>
      rw [ht, harray] at h
      obtain ⟨hin, rfl⟩ := bytesEnd_eq_some.mp h
      refine (goesTo_readU32 hin).attempt.bind ?_
      change GoesTo data (iter _ (UInt32.ofNat (wordAt data 4 pos)).toNat ()) _ _ _
      generalize (UInt32.ofNat (wordAt data 4 pos)).toNat = n
      induction n with
      | zero => exact goesTo_pure ()
      | succ n ih => exact (goesTo_fieldSkipValue_untyped ht).bind ih

/-! ## Structs -/

/-- The index of a field that was found is that of the field. -/
lemma getElem?_of_structGetFieldDesc {st : Struct} {uid : UInt16} {i : ℕ} {s : Slot}
    (h : structGetFieldDesc st uid = some (i, s)) : st[i]? = some s ∧ s.desc.uid = uid := by
  induction st generalizing i with
  | nil => cases h
  | cons r st ih =>
    rw [structGetFieldDesc_cons] at h
    split_ifs at h with huid
    · cases h
      exact ⟨rfl, huid⟩
    · obtain ⟨⟨j, s'⟩, hfind, heq⟩ := Option.map_eq_some_iff.mp h
      cases heq
      exact ih hfind

/-- What becomes of a struct by a field at a position: the field it names gets the value if it has
the type, and nothing changes otherwise. -/
def Fills (data : List UInt8) (pos : ℕ) (st st' : Struct) : Prop :=
  let field := structGetFieldDesc st (UInt16.ofNat (wordAt data 2 pos))
  (∃ i s v, field = some (i, s) ∧ s.desc.type.code = typeAt data pos ∧
      ReadsAs data (pos + 3) s.desc.type v ∧ st' = st.set i ⟨s.desc, true, v⟩) ∨
    (∀ i s, field = some (i, s) → s.desc.type.code ≠ typeAt data pos) ∧ st' = st

/-- The head of a field in the packet is read. -/
lemma goesTo_fieldHead (h : pos + 3 ≤ data.length) :
    GoesTo data (do let uid ← readU16; let type ← readU8; pure (uid, type) : Dec _) pos
      (UInt16.ofNat (wordAt data 2 pos), typeAt data pos) (pos + 3) :=
  (goesTo_readU16 (by omega)).bind ((goesTo_readU8 (by omega)).bind (goesTo_pure _))

/-- A field in the packet is decoded or skipped. -/
lemma exists_goesTo_structDecodeField (st : Struct) (h : fieldEnd data pos = some pos') :
    ∃ st', Fills data pos st st' ∧ GoesTo data (structDecodeField st) pos st' pos' := by
  obtain ⟨mid, hhead, hend⟩ := Option.bind_eq_some_iff.mp h
  obtain ⟨hin, rfl⟩ := bytesEnd_eq_some.mp hhead
  -- the field is skipped if it is not known
  have hskip : GoesTo data (skipField (typeAt data pos) >>= fun _ => pure (st, none)) (pos + 3)
      (st, (none : Option ℕ)) pos' := (goesTo_skipField hend).bind (goesTo_pure _)
  unfold Fills
  cases hfield : structGetFieldDesc st (UInt16.ofNat (wordAt data 2 pos)) with
  | none =>
    have hdecoded : GoesTo data (fieldDecode st) pos (st, none) pos' := by
      refine (goesTo_fieldHead hin).attempt.bind (goesTo_getReadPosition.bind ?_)
      simp only [hfield]
      exact hskip
    exact ⟨st, Or.inr ⟨nofun, rfl⟩, hdecoded.bind (goesTo_pure _)⟩
  | some r =>
    obtain ⟨i, s⟩ := r
    by_cases htype : s.desc.type.code = typeAt data pos
    · obtain ⟨v, hv, hvalue⟩ := exists_goesTo_fieldDecodeVal s.val (htype ▸ hend)
      have hset : structSetHasField (st.set i { s with val := v }) i =
          st.set i ⟨s.desc, true, v⟩ := by
        have hlt := (List.getElem?_eq_some_iff.mp (getElem?_of_structGetFieldDesc hfield).1).1
        rw [structSetHasField, List.modify_eq_set_getElem?, List.getElem?_set_self hlt]
        exact List.set_set _
      have hdecoded : GoesTo data (fieldDecode st) pos
          (st.set i { s with val := v }, some i) pos' := by
        refine (goesTo_fieldHead hin).attempt.bind (goesTo_getReadPosition.bind ?_)
        simp only [hfield, if_neg (not_not.mpr htype)]
        exact hvalue.bind (goesTo_pure _)
      refine ⟨_, Or.inl ⟨i, s, v, rfl, htype, hv, rfl⟩, ?_⟩
      rw [← hset]
      exact hdecoded.bind (goesTo_pure _)
    · have hdecoded : GoesTo data (fieldDecode st) pos (st, none) pos' := by
        refine (goesTo_fieldHead hin).attempt.bind (goesTo_getReadPosition.bind ?_)
        simp only [hfield, if_pos htype]
        exact hskip
      refine ⟨st, Or.inr ⟨fun j s' heq => ?_, rfl⟩, hdecoded.bind (goesTo_pure _)⟩
      cases heq
      exact htype

/-- Skipping a field does not fail. -/
lemma total_skipField (type : UInt8) : Total (skipField type) := by
  have hvalue : Total (fieldSkipValue type) := by
    unfold fieldSkipValue
    split
    · exact (total_attempt _).bind fun _ => total_pure ()
    · exact (total_attempt _).bind fun _ => total_pure ()
    · exact (total_attempt _).bind fun _ => total_pure ()
    · exact (total_attempt _).bind fun _ => total_pure ()
    · exact (total_attempt _).bind fun _ => total_pure ()
    · exact (total_attempt _).bind fun _ => total_pure ()
    · exact (total_attempt _).bind fun _ => total_pure ()
    · exact (total_attempt _).bind fun _ => total_pure ()
    · exact (total_attempt _).bind fun _ => total_pure ()
    · exact (total_attempt _).bind fun _ => total_pure ()
    · exact (total_attempt _).bind fun _ => total_pure ()
    · exact (total_attempt _).bind fun _ => total_pure ()
    · refine (total_attempt _).bind fun r => ?_
      cases r with
      | ok size => exact (total_attempt _).bind fun _ => total_pure ()
      | error e => exact total_pure ()
    · exact total_pure ()
  unfold skipField
  split
  · refine (total_attempt _).bind fun r => ?_
    cases r with
    | ok n => exact total_iter (fun _ => hvalue) _ _
    | error e => exact total_pure ()
  · exact hvalue

lemma total_readInto {α : Type} (p : Dec α) (old : α) : Total (readInto p old) := by
  refine (total_attempt p).bind fun r => ?_
  cases r with
  | ok v => exact total_pure _
  | error e => exact total_pure _

lemma total_decodeValue (t : BaseType) (old : t.Cell) : Total (decodeValue t old) := by
  cases t with
  | string =>
    refine (total_attempt readU32).bind fun r => ?_
    cases r with
    | error e => exact total_pure _
    | ok size =>
      dsimp only
      split
      · exact total_pure _
      · refine (total_attempt _).bind fun r => ?_
        cases r with
        | ok bytes => exact total_pure _
        | error e => exact total_pure _
  | _ => exact total_readInto _ old

lemma total_decodeItems (t : BaseType) (n : ℕ) : Total (decodeItems t n) := by
  induction n with
  | zero => exact total_pure _
  | succ n ih =>
    refine (total_decodeValue t t.item).bind fun r => ?_
    rcases r with ⟨e | u, v⟩
    · exact total_pure _
    · refine ih.bind fun r => ?_
      cases r with
      | ok vs => exact total_pure _
      | error e => exact total_pure _

lemma total_fieldDecodeVal (t : FieldType) (old : t.Val) : Total (fieldDecodeVal t old) := by
  cases t with
  | value t => exact total_decodeValue t old
  | array t =>
    refine (total_attempt readU32).bind fun r => ?_
    cases r with
    | error e => exact total_pure _
    | ok n =>
      refine (total_decodeItems t n.toNat).bind fun r => ?_
      cases r with
      | ok vs => exact total_pure _
      | error e => exact total_pure _

/-- Decoding a field does not fail. -/
lemma total_structDecodeField (st : Struct) : Total (structDecodeField st) := by
  refine Total.bind ?_ fun r => ?_
  · refine (total_attempt _).bind fun r => ?_
    rcases r with e | ⟨uid, type⟩
    · exact total_pure _
    refine total_getReadPosition.bind fun pos => ?_
    split
    · exact (total_skipField type).bind fun _ => total_pure _
    · split
      · exact (total_skipField type).bind fun _ => total_pure _
      · refine (total_fieldDecodeVal _ _).bind fun r => ?_
        rcases r with ⟨e | u, v⟩
        · refine (total_attempt _).bind fun _ => ?_
          exact (total_skipField type).bind fun _ => total_pure _
        · exact total_pure _
  · rcases r with ⟨st', _ | i⟩
    · exact total_pure _
    · exact total_pure _

/-- A field without a type changes nothing, wherever its content is. -/
lemma reads_structDecodeField (st : Struct) (h : Untyped data pos) :
    Reads data (structDecodeField st) pos st := by
  obtain ⟨hin, htype⟩ := h
  have hskip : Reads data (skipField (typeAt data pos) >>= fun _ => pure (st, (none : Option ℕ)))
      (pos + 3) (st, none) := (total_skipField _).reads.bind fun _ => (goesTo_pure _).reads
  have hdecoded : Reads data (fieldDecode st) pos (st, none) := by
    refine (goesTo_fieldHead hin).attempt.bind_reads (goesTo_getReadPosition.bind_reads ?_)
    cases hfield : structGetFieldDesc st (UInt16.ofNat (wordAt data 2 pos)) with
    | none => exact hskip
    | some r =>
      obtain ⟨i, s⟩ := r
      have hne : s.desc.type.code ≠ typeAt data pos := by
        intro heq
        rw [← heq] at htype
        cases ht : s.desc.type with
        | value t => rw [ht, ofCode?_maskCode_value] at htype; cases htype
        | array t => rw [ht, ofCode?_maskCode_array] at htype; cases htype
      simp only [if_pos hne]
      exact hskip
  exact hdecoded.bind fun _ => (goesTo_pure st).reads

/-- Fields in the packet give one and the same struct. -/
lemma exists_reads_fields {n : ℕ} (st : Struct) (h : FieldsWithin data n pos) :
    ∃ st', Reads data (iter structDecodeField n st) pos st' := by
  induction n generalizing st pos with
  | zero => exact ⟨st, (goesTo_pure st).reads⟩
  | succ n ih =>
    unfold FieldsWithin at h
    cases hend : fieldEnd data pos with
    | some next =>
      rw [hend] at h
      obtain ⟨st', -, hfield⟩ := exists_goesTo_structDecodeField st hend
      obtain ⟨st'', hrest⟩ := ih st' h
      exact ⟨st'', hfield.bind_reads hrest⟩
    | none =>
      rw [hend] at h
      obtain ⟨rfl, huntyped⟩ := h
      exact ⟨st, (reads_structDecodeField st huntyped).bind fun _ => (goesTo_pure st).reads⟩

lemma exists_reads_structDecode (st : Struct) (h : StructWithin data pos) :
    ∃ st', Reads data (structDecode st) pos st' := by
  obtain ⟨hcount, hfields⟩ := h
  rw [← toNat_wordAt16] at hfields
  obtain ⟨st', hst'⟩ := exists_reads_fields (structClearHasFields st) hfields
  exact ⟨st', (goesTo_readU16 hcount).bind_reads hst'⟩

end Fields

end Obus
