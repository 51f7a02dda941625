import Obus.BufferLemmas
import Obus.SizeT

/-!
# Sizes from the wire

Sizes of 32 bits come from the wire and are added to read positions: `obus_buffer_inc_read_position`
and `obus_buffer_dup` compare such a sum with the length of the content, and the decoders of
objects, events and calls move the read position to one.  The decoders are those of `obus_object.c`,
`obus_event.c` and `obus_call.c` on a target whose `size_t` has `w` bits.

A comparison is exact, and the end of an element does not lie before its data, exactly if the sum
does not wrap (`wire_sizes_exact`).  On 32 bits a sum can wrap within the bounds of a buffer
(`wire_size_wraps`).
-/

namespace Obus

namespace SizeT

/-- The read primitives that decoding uses, on a target. -/
def readHandler (w : ℕ) : (o : ReadOp) → Buffer → Except Errno o.Out × Buffer
  | .u8 => bufferReadU8 w
  | .u16 => bufferReadU16 w
  | .u32 => bufferReadU32 w
  | .u64 => bufferReadU64 w
  | .dup size => bufferDup w (fun _ => true) size
  | .getReadPosition => fun b => (.ok b.pos, b)
  | .setReadPosition pos => bufferSetReadPosition pos
  | .incReadPosition value => bufferIncReadPosition w value

/-- The common tail of the three decoders. -/
def decodeSized {α γ : Type} (w : ℕ) (size : UInt32) (check : Option γ) (body : γ → Dec α) :
    Dec (Option α) := do
  let offset ← getReadPosition
  let endPos := add w offset size.toNat
  match check with
  | none =>
    let _ ← (setReadPosition endPos).attempt
    pure none
  | some c =>
    match ← (body c).attempt with
    | .error _ =>
      let _ ← (setReadPosition endPos).attempt
      pure none
    | .ok a =>
      let pos ← getReadPosition
      if pos ≠ endPos then
        let _ ← (setReadPosition endPos).attempt
      pure (some a)

/-- `obus_object_add_decode`. -/
def objectAddDecode (w : ℕ) (api : BusDesc) : Dec (Option Object) := do
  match ← (do let uid ← readU16; let handle ← readU16; let size ← readU32
              pure (uid, handle, size) : Dec _).attempt with
  | .error _ => pure none
  | .ok (uid, handle, size) =>
    decodeSized w size (objectAddCheck api uid handle) fun desc => do
      let info ← structDecode (structSetHasFields (structInit desc.infoDesc))
      pure ⟨desc, handle, false, info⟩

/-- `obus_event_decode`. -/
def eventDecode (w : ℕ) (bus : Bus) : Dec (Option Event) := do
  match ← (do let uid ← readU16; let handle ← readU16; let eventUid ← readU16; let size ← readU32
              pure (uid, handle, eventUid, size) : Dec _).attempt with
  | .error _ => pure none
  | .ok (uid, handle, eventUid, size) =>
    decodeSized w size (eventCheck bus uid handle eventUid) fun (obj, desc) => do
      let info ← structDecode (structInit obj.desc.infoDesc)
      pure ⟨obj, desc, info⟩

/-- `obus_call_decode`. -/
def callDecode (w : ℕ) (bus : Bus) : Dec (Option Call) := do
  match ← (do let uid ← readU16; let handle ← readU16; let mtdUid ← readU16
              let callHandle ← readU16; let size ← readU32
              pure (uid, handle, mtdUid, callHandle, size) : Dec _).attempt with
  | .error _ => pure none
  | .ok (uid, handle, mtdUid, callHandle, size) =>
    decodeSized w size (callCheck bus uid handle mtdUid) fun (obj, desc) => do
      let args ← argsDecode desc.argsDesc
      pure ⟨obj, desc, callHandle, args⟩

/-- The elements that are preceded by their size. -/
inductive Element where
  | object | event | call
  deriving DecidableEq, Repr

/-- How many 16-bit words come before the size. -/
def Element.words : Element → ℕ
  | .object => 2
  | .event => 3
  | .call => 4

/-- The offset of the data of an element at the read position. -/
def Element.offset (d : Element) (b : Buffer) : ℕ := b.pos + 2 * d.words + 4

/-- The size of the data of an element at the read position. -/
def Element.size (d : Element) (b : Buffer) : ℕ :=
  ofBigEndian ((b.data.drop (b.pos + 2 * d.words)).take 4)

/-- What the decoder of an element leaves of the buffer. -/
def Element.decoded (w : ℕ) (bus : Bus) : Element → Buffer → Buffer
  | .object, b => ((objectAddDecode w bus.api).run (readHandler w) b).2
  | .event, b => ((eventDecode w bus).run (readHandler w) b).2
  | .call, b => ((callDecode w bus).run (readHandler w) b).2

/-- The comparisons with the content reject a size exactly if the sum exceeds the length of the
content. -/
def ComparesExactly (w : ℕ) (n : UInt32) (b : Buffer) : Prop :=
  ((bufferIncReadPosition w n.toNat b).1 = .error .einval ↔ b.length < n.toNat + b.pos) ∧
    ∀ malloc, (bufferDup w malloc n.toNat b).1 = .error .eagain ↔ b.length < b.pos + n.toNat

/-- The end of an element does not lie before its data, and neither does the read position after it
has been moved there. -/
def EndsForward (w : ℕ) (bus : Bus) (d : Element) (b : Buffer) : Prop :=
  d.offset b ≤ add w (d.offset b) (d.size b) ∧
    (add w (d.offset b) (d.size b) ≤ b.length → d.offset b ≤ (d.decoded w bus b).pos)

/-- No primitive that a program performs asks for an offset that is no `size_t`. -/
def NoWrap {α : Type} (w : ℕ) (p : Dec α) (b : Buffer) : Prop :=
  p.Safe (fun o b => o.reach b.pos < 2 ^ w) (readHandler w) b

/-- No primitive that the decoder of an element performs asks for an offset that is no `size_t`. -/
def Element.NoWrap (w : ℕ) (bus : Bus) : Element → Buffer → Prop
  | .object, b => SizeT.NoWrap w (objectAddDecode w bus.api) b
  | .event, b => SizeT.NoWrap w (eventDecode w bus) b
  | .call, b => SizeT.NoWrap w (callDecode w bus) b

/-! ## Comparisons -/

section Comparisons

variable {w : ℕ} {b : Buffer}

/-- Both comparisons are exact if the sum does not wrap, and neither is if it does. -/
lemma comparesExactly_iff (hw : 32 ≤ w) (hb : Valid w b) (n : UInt32) :
    ComparesExactly w n b ↔ b.pos + n.toNat < 2 ^ w := by
  have hn : n.toNat < 2 ^ w := lt_of_lt_of_le n.toNat_lt (Nat.pow_le_pow_right (by omega) hw)
  have hiff := hb.length_lt_add_iff hn
  have hinc : (bufferIncReadPosition w n.toNat b).1 = .error .einval ↔
      b.length < add w b.pos n.toNat := by
    have hcomm : add w n.toNat b.pos = add w b.pos n.toNat :=
      congrArg (· % 2 ^ w) (Nat.add_comm _ _)
    rw [bufferIncReadPosition, hcomm]
    split_ifs with hlt
    · exact iff_of_true rfl hlt
    · exact iff_of_false (by rintro ⟨⟩) hlt
  rw [ComparesExactly, hinc, Nat.add_comm n.toNat b.pos, hiff]
  refine and_iff_left_of_imp fun hlt malloc => ?_
  have hin := hb.pos
  unfold bufferDup
  rw [add_of_lt hlt]
  split_ifs with hzero hpast
  · exact iff_of_false (by rintro ⟨⟩) (by omega)
  · exact iff_of_true rfl hpast
  · exact iff_of_false (by rintro ⟨⟩) hpast
  · exact iff_of_false (by rintro ⟨⟩) hpast

end Comparisons

/-! ## Programs that do not move back -/

section Keeps

variable {w n : ℕ} {b : Buffer} {α β : Type}

/-- Where no sum wraps, a program that starts at or behind the offset `n` ends there. -/
def Keeps (w n : ℕ) (p : Dec α) : Prop :=
  ∀ b : Buffer, n ≤ b.pos → NoWrap w p b → n ≤ (p.run (readHandler w) b).2.pos

lemma keeps_pure (a : α) : Keeps w n (pure a : Dec α) := fun _ hb _ => hb

lemma keeps_bind {p : Dec α} {f : α → Dec β} (hp : Keeps w n p) (hf : ∀ a, Keeps w n (f a)) :
    Keeps w n (p >>= f) := by
  intro b hb hsafe
  obtain ⟨hfirst, hsecond⟩ := (Prog.safe_bind _ _ p f b).mp hsafe
  have hpos := hp b hb hfirst
  rw [Prog.run_bind]
  rcases hrun : p.run (readHandler w) b with ⟨e | a, b'⟩
  all_goals rw [hrun] at hpos
  · exact hpos
  · exact hf a b' hpos (hsecond a b' hrun)

lemma keeps_attempt {p : Dec α} (hp : Keeps w n p) : Keeps w n p.attempt := by
  intro b hb hsafe
  rw [Prog.run_attempt]
  exact hp b hb ((Prog.safe_attempt _ _ p b).mp hsafe)

lemma keeps_iter {f : α → Dec α} (hf : ∀ a, Keeps w n (f a)) (k : ℕ) (a : α) :
    Keeps w n (Prog.iter f k a) := by
  induction k generalizing a with
  | zero => exact keeps_pure a
  | succ k ih => exact keeps_bind (hf a) ih

/-- A program that asks for the read position gets one that is not before the offset. -/
lemma keeps_getReadPosition {f : ℕ → Dec α} (hf : ∀ pos, n ≤ pos → Keeps w n (f pos)) :
    Keeps w n (getReadPosition >>= f) := by
  intro b hb hsafe
  have hget : getReadPosition.run (readHandler w) b = (.ok b.pos, b) := rfl
  rw [Prog.run_bind_ok _ hget]
  exact hf b.pos hb b hb (((Prog.safe_bind _ _ _ f b).mp hsafe).2 _ _ hget)

lemma keeps_setReadPosition {pos : ℕ} (hpos : n ≤ pos) : Keeps w n (setReadPosition pos) := by
  intro b hb _
  rw [setReadPosition, Prog.run_perform, readHandler, bufferSetReadPosition]
  split
  · exact hb
  · exact hpos

/-- The word reads move forward. -/
lemma le_readWord {limit k : ℕ} {e : Errno} (hb : n ≤ b.pos) (hlt : b.pos + k < 2 ^ w) :
    n ≤ (bufferReadWord w limit k e b).2.pos := by
  unfold bufferReadWord
  split
  · exact hb
  · rw [add_of_lt hlt]
    exact le_trans hb (Nat.le_add_right _ _)

lemma keeps_perform {o : ReadOp} (ho : ∀ pos, o ≠ .setReadPosition pos) :
    Keeps w n (Prog.perform o : Dec o.Out) := by
  intro b hb hsafe
  have hreach : o.reach b.pos < 2 ^ w := (Prog.safe_perform _ _ o b).mp hsafe
  rw [Prog.run_perform]
  cases o with
  | u8 | u16 | u32 | u64 => exact le_readWord hb hreach
  | dup size =>
    simp only [readHandler, bufferDup]
    split_ifs with hzero
    · exact hb
    · exact hb
    · have hlt : b.pos + size < 2 ^ w := by rwa [ReadOp.reach, if_neg hzero] at hreach
      rw [add_of_lt hlt]
      exact le_trans hb (Nat.le_add_right _ _)
  | getReadPosition => exact hb
  | setReadPosition pos => exact absurd rfl (ho pos)
  | incReadPosition value =>
    simp only [readHandler, bufferIncReadPosition]
    split
    · exact hb
    · rw [add_of_lt hreach]
      exact le_trans hb (Nat.le_add_right _ _)

lemma keeps_readU8 : Keeps w n readU8 := keeps_perform (o := .u8) fun _ h => nomatch h

lemma keeps_readU16 : Keeps w n readU16 := keeps_perform (o := .u16) fun _ h => nomatch h

lemma keeps_readU32 : Keeps w n readU32 := keeps_perform (o := .u32) fun _ h => nomatch h

lemma keeps_readU64 : Keeps w n readU64 := keeps_perform (o := .u64) fun _ h => nomatch h

lemma keeps_dup (size : ℕ) : Keeps w n (dup size) :=
  keeps_perform (o := .dup size) fun _ h => nomatch h

lemma keeps_incReadPosition (value : ℕ) : Keeps w n (incReadPosition value) :=
  keeps_perform (o := .incReadPosition value) fun _ h => nomatch h

lemma keeps_readInto {p : Dec α} (hp : Keeps w n p) (old : α) : Keeps w n (readInto p old) := by
  refine keeps_bind (keeps_attempt hp) fun r => ?_
  cases r with
  | ok v => exact keeps_pure _
  | error e => exact keeps_pure _

lemma keeps_readString (old : Option CString) : Keeps w n (readString old) := by
  refine keeps_bind (keeps_attempt keeps_readU32) fun r => ?_
  cases r with
  | error e => exact keeps_pure _
  | ok size =>
    dsimp only
    split
    · exact keeps_pure _
    · refine keeps_bind (keeps_attempt (keeps_dup _)) fun r => ?_
      cases r with
      | error e => exact keeps_pure _
      | ok data => exact keeps_pure _

lemma keeps_decodeValue (t : BaseType) (old : t.Cell) : Keeps w n (decodeValue t old) := by
  cases t with
  | u8 | i8 => exact keeps_readInto keeps_readU8 old
  | bool => exact keeps_readInto (keeps_bind keeps_readU8 fun _ => keeps_pure _) old
  | u16 | i16 => exact keeps_readInto keeps_readU16 old
  | u32 | i32 | enum | f32 => exact keeps_readInto keeps_readU32 old
  | u64 | i64 | f64 => exact keeps_readInto keeps_readU64 old
  | string => exact keeps_readString old

lemma keeps_decodeItems (t : BaseType) (k : ℕ) : Keeps w n (decodeItems t k) := by
  induction k with
  | zero => exact keeps_pure _
  | succ k ih =>
    refine keeps_bind (keeps_decodeValue t t.item) fun r => ?_
    rcases r with ⟨e | v, item⟩
    · exact keeps_pure _
    · refine keeps_bind ih fun r => ?_
      cases r with
      | error e => exact keeps_pure _
      | ok items => exact keeps_pure _

lemma keeps_fieldDecodeVal (t : FieldType) (old : t.Val) : Keeps w n (fieldDecodeVal t old) := by
  cases t with
  | value t => exact keeps_decodeValue t old
  | array t =>
    refine keeps_bind (keeps_attempt keeps_readU32) fun r => ?_
    cases r with
    | error e => exact keeps_pure _
    | ok k =>
      refine keeps_bind (keeps_decodeItems t k.toNat) fun r => ?_
      cases r with
      | error e => exact keeps_pure _
      | ok items => exact keeps_pure _

lemma keeps_fieldSkipValue (type : UInt8) : Keeps w n (fieldSkipValue type) := by
  have hskip : ∀ value, Keeps w n (do let _ ← (incReadPosition value).attempt : Dec Unit) :=
    fun value =>
    keeps_bind (keeps_attempt (keeps_incReadPosition value)) fun _ => keeps_pure _
  unfold fieldSkipValue
  split
  · exact hskip 1
  · exact hskip 1
  · exact hskip 1
  · exact hskip 2
  · exact hskip 2
  · exact hskip 4
  · exact hskip 4
  · exact hskip 4
  · exact hskip 4
  · exact hskip 8
  · exact hskip 8
  · exact hskip 8
  · refine keeps_bind (keeps_attempt keeps_readU32) fun r => ?_
    cases r with
    | error e => exact keeps_pure _
    | ok size => exact hskip _
  · exact keeps_pure _

lemma keeps_skipField (type : UInt8) : Keeps w n (skipField type) := by
  unfold skipField
  split
  · refine keeps_bind (keeps_attempt keeps_readU32) fun r => ?_
    cases r with
    | error e => exact keeps_pure _
    | ok k => exact keeps_iter (fun _ => keeps_fieldSkipValue type) _ _
  · exact keeps_fieldSkipValue type

lemma keeps_fieldDecode (st : Struct) : Keeps w n (fieldDecode st) := by
  refine keeps_bind (keeps_attempt
    (keeps_bind keeps_readU16 fun _ => keeps_bind keeps_readU8 fun _ => keeps_pure _))
    fun r => ?_
  rcases r with e | ⟨uid, type⟩
  · exact keeps_pure _
  refine keeps_getReadPosition fun pos hpos => ?_
  split
  · exact keeps_bind (keeps_skipField type) fun _ => keeps_pure _
  · split
    · exact keeps_bind (keeps_skipField type) fun _ => keeps_pure _
    · refine keeps_bind (keeps_fieldDecodeVal _ _) fun r => ?_
      rcases r with ⟨e | v, val⟩
      · refine keeps_bind (keeps_attempt (keeps_setReadPosition hpos)) fun _ => ?_
        exact keeps_bind (keeps_skipField type) fun _ => keeps_pure _
      · exact keeps_pure _

lemma keeps_structDecode (st : Struct) : Keeps w n (structDecode st) := by
  refine keeps_bind keeps_readU16 fun k => keeps_iter (fun st => ?_) _ _
  refine keeps_bind (keeps_fieldDecode st) fun r => ?_
  rcases r with ⟨st', none | i⟩
  · exact keeps_pure _
  · exact keeps_pure _

end Keeps

/-! ## The end of an element -/

section Ends

variable {w : ℕ} {b : Buffer} {α γ : Type}

/-- A read primitive on a target moves the read position and nothing else. -/
lemma readHandler_frame (o : ReadOp) (b : Buffer) :
    (readHandler w o b).2.data = b.data ∧ (readHandler w o b).2.length = b.length := by
  have hword : ∀ (l k : ℕ) (e : Errno), (bufferReadWord w l k e b).2.data = b.data ∧
      (bufferReadWord w l k e b).2.length = b.length := by
    intro l k e
    unfold bufferReadWord
    split <;> exact ⟨rfl, rfl⟩
  cases o with
  | u8 | u16 | u32 | u64 => exact hword _ _ _
  | dup size =>
    simp only [readHandler, bufferDup]
    split_ifs <;> exact ⟨rfl, rfl⟩
  | getReadPosition => exact ⟨rfl, rfl⟩
  | setReadPosition pos =>
    simp only [readHandler, bufferSetReadPosition]
    split <;> exact ⟨rfl, rfl⟩
  | incReadPosition value =>
    simp only [readHandler, bufferIncReadPosition]
    split <;> exact ⟨rfl, rfl⟩

/-- A decoding program leaves the length of the content. -/
lemma run_length (p : Dec α) (b : Buffer) : (p.run (readHandler w) b).2.length = b.length :=
  Prog.run_invariant (readHandler w) (I := fun c => c.length = b.length)
    (fun o _ hc => (readHandler_frame o _).2.trans hc) p rfl

/-- The read position is moved into the content. -/
lemma run_setReadPosition {pos : ℕ} (h : pos ≤ b.length) :
    (setReadPosition pos).run (readHandler w) b = (.ok (), { b with pos := pos }) := by
  rw [setReadPosition, Prog.run_perform, readHandler, bufferSetReadPosition, if_neg (not_lt.mpr h)]

/-- An end in the content is where the read position is moved. -/
lemma decodeSized_pos (size : UInt32) (check : Option γ) (body : γ → Dec α)
    (hend : add w b.pos size.toNat ≤ b.length) :
    ((decodeSized w size check body).run (readHandler w) b).2.pos = add w b.pos size.toNat := by
  have hget : ∀ c : Buffer, getReadPosition.run (readHandler w) c = (.ok c.pos, c) := fun _ => rfl
  rw [decodeSized, Prog.run_bind_ok _ (hget b)]
  cases check with
  | none =>
    simp only [Prog.run_bind, Prog.run_attempt, run_setReadPosition hend, Prog.run_pure]
  | some c =>
    simp only [Prog.run_bind, Prog.run_attempt]
    have hlength := run_length (w := w) (body c) b
    rcases hbody : (body c).run (readHandler w) b with ⟨e | a, b'⟩
    all_goals rw [hbody] at hlength
    · have hset : add w b.pos size.toNat ≤ b'.length := hlength ▸ hend
      simp only [Prog.run_bind, Prog.run_attempt, run_setReadPosition hset, Prog.run_pure]
    · have hset : add w b.pos size.toNat ≤ b'.length := hlength ▸ hend
      rw [Prog.run_bind_ok _ (hget b')]
      by_cases hpos : b'.pos = add w b.pos size.toNat
      · rw [if_neg (not_not_intro hpos)]
        exact hpos
      · rw [if_pos hpos]
        simp only [Prog.run_bind, Prog.run_attempt, run_setReadPosition hset, Prog.run_pure]

/-- A 16-bit word of the content. -/
lemma run_readU16 (hle : b.pos + 2 ≤ b.length) (hb : Valid w b) :
    ∃ v, readU16.run (readHandler w) b = (.ok v, { b with pos := b.pos + 2 }) := by
  refine ⟨UInt16.ofNat (ofBigEndian (b.slice 2)), ?_⟩
  rw [readU16, Prog.run_perform, readHandler, bufferReadU16,
    readWord_of_le hle (by omega) hb.length_lt]
  rfl

/-- The size of an element. -/
lemma run_readU32 (hle : b.pos + 4 ≤ b.length) (hb : Valid w b) :
    readU32.run (readHandler w) b =
      (.ok (UInt32.ofNat (ofBigEndian (b.slice 4))), { b with pos := b.pos + 4 }) := by
  rw [readU32, Prog.run_perform, readHandler, readU32_of_le hle hb]

/-- A decoder whose head is in the content continues with the tail, at the offset of the data, and
the body of the tail does not move back. -/
lemma decoded_tail (bus : Bus) (d : Element) (hb : Valid w b) (hhead : d.offset b ≤ b.length) :
    ∃ (α γ : Type) (check : Option γ) (body : γ → Dec α),
      (∀ c n, Keeps w n (body c)) ∧
      d.decoded w bus b =
        ((decodeSized w (UInt32.ofNat (d.size b)) check body).run (readHandler w)
          { b with pos := d.offset b }).2 ∧
      (d.NoWrap w bus b →
        NoWrap w (decodeSized w (UInt32.ofNat (d.size b)) check body)
          { b with pos := d.offset b }) := by
  have hvalid : ∀ pos, pos ≤ b.length → Valid w { b with pos := pos } :=
    fun _ hpos => ⟨hpos, hb.ok, hb.size⟩
  have hword : ∀ pos, pos + 2 ≤ b.length →
      ∃ v, readU16.run (readHandler w) { b with pos := pos } = (.ok v, { b with pos := pos + 2 }) :=
    fun pos hpos => run_readU16 (b := { b with pos := pos }) hpos (hvalid pos (by omega))
  have hsize : ∀ pos, pos + 4 ≤ b.length → readU32.run (readHandler w) { b with pos := pos } =
      (.ok (UInt32.ofNat (ofBigEndian ((b.data.drop pos).take 4))), { b with pos := pos + 4 }) :=
    fun pos hpos => run_readU32 (b := { b with pos := pos }) hpos (hvalid pos (by omega))
  have hwords : 2 ≤ d.words := by cases d <;> decide
  rw [Element.offset] at hhead
  obtain ⟨uid, huid⟩ := hword b.pos (by omega)
  obtain ⟨handle, hhandle⟩ := hword (b.pos + 2) (by omega)
  cases d with
  | object =>
    have hsize := hsize (b.pos + 2 + 2) hhead
    have hrun : (do let uid ← readU16; let handle ← readU16; let size ← readU32
                    pure (uid, handle, size) : Dec _).attempt.run (readHandler w) b =
        (.ok (.ok (uid, handle, UInt32.ofNat (Element.object.size b))),
          { b with pos := Element.object.offset b }) := by
      simp only [Prog.run_bind, Prog.run_attempt, huid, hhandle, hsize, Prog.run_pure]
      rfl
    refine ⟨Object, ObjectDesc, objectAddCheck bus.api uid handle, fun desc => do
      let info ← structDecode (structSetHasFields (structInit desc.infoDesc))
      pure ⟨desc, handle, false, info⟩, fun _ _ => keeps_bind (keeps_structDecode _) fun _ =>
        keeps_pure _, ?_, fun hsafe => ?_⟩
    · exact congrArg Prod.snd (Prog.run_bind_ok _ hrun)
    · exact ((Prog.safe_bind _ _ _ _ _).mp hsafe).2 _ _ hrun
  | event =>
    have h3 : b.pos + 6 + 4 ≤ b.length := hhead
    obtain ⟨eventUid, heventUid⟩ := hword (b.pos + 2 + 2) (by omega)
    have hsize := hsize (b.pos + 2 + 2 + 2) h3
    have hrun : (do let uid ← readU16; let handle ← readU16; let eventUid ← readU16
                    let size ← readU32
                    pure (uid, handle, eventUid, size) : Dec _).attempt.run (readHandler w) b =
        (.ok (.ok (uid, handle, eventUid, UInt32.ofNat (Element.event.size b))),
          { b with pos := Element.event.offset b }) := by
      simp only [Prog.run_bind, Prog.run_attempt, huid, hhandle, heventUid, hsize, Prog.run_pure]
      rfl
    refine ⟨Event, ObjectRef × EventDesc, eventCheck bus uid handle eventUid, fun (obj, desc) => do
      let info ← structDecode (structInit obj.desc.infoDesc)
      pure ⟨obj, desc, info⟩, fun _ _ => keeps_bind (keeps_structDecode _) fun _ => keeps_pure _,
        ?_, fun hsafe => ?_⟩
    · exact congrArg Prod.snd (Prog.run_bind_ok _ hrun)
    · exact ((Prog.safe_bind _ _ _ _ _).mp hsafe).2 _ _ hrun
  | call =>
    have h4 : b.pos + 8 + 4 ≤ b.length := hhead
    obtain ⟨mtdUid, hmtdUid⟩ := hword (b.pos + 2 + 2) (by omega)
    obtain ⟨callHandle, hcallHandle⟩ := hword (b.pos + 2 + 2 + 2) (by omega)
    have hsize := hsize (b.pos + 2 + 2 + 2 + 2) h4
    have hrun : (do let uid ← readU16; let handle ← readU16; let mtdUid ← readU16
                    let callHandle ← readU16; let size ← readU32
                    pure (uid, handle, mtdUid, callHandle, size) : Dec _).attempt.run
          (readHandler w) b =
        (.ok (.ok (uid, handle, mtdUid, callHandle, UInt32.ofNat (Element.call.size b))),
          { b with pos := Element.call.offset b }) := by
      simp only [Prog.run_bind, Prog.run_attempt, huid, hhandle, hmtdUid, hcallHandle, hsize,
        Prog.run_pure]
      rfl
    refine ⟨Call, ObjectRef × MethodDesc, callCheck bus uid handle mtdUid, fun (obj, desc) => do
      let args ← argsDecode desc.argsDesc
      pure ⟨obj, desc, callHandle, args⟩, fun (obj, desc) n => ?_, ?_, fun hsafe => ?_⟩
    · refine keeps_bind ?_ fun _ => keeps_pure _
      cases desc.argsDesc with
      | none => exact keeps_pure _
      | some st => exact keeps_bind (keeps_structDecode _) fun _ => keeps_pure _
    · exact congrArg Prod.snd (Prog.run_bind_ok _ hrun)
    · exact ((Prog.safe_bind _ _ _ _ _).mp hsafe).2 _ _ hrun

/-- The size of an element has 32 bits. -/
lemma elementSize_toNat (d : Element) (b : Buffer) : (UInt32.ofNat (d.size b)).toNat = d.size b :=
  size_toNat { b with pos := b.pos + 2 * d.words }

/-- An element whose head and end are in the content: the read position is moved to its end. -/
lemma decoded_pos (bus : Bus) (d : Element) (hb : Valid w b) (hhead : d.offset b ≤ b.length)
    (hend : add w (d.offset b) (d.size b) ≤ b.length) :
    (d.decoded w bus b).pos = add w (d.offset b) (d.size b) := by
  obtain ⟨α, γ, check, body, -, htail, -⟩ := decoded_tail bus d hb hhead
  have hn := elementSize_toNat d b
  have h := decodeSized_pos (b := { b with pos := d.offset b }) (UInt32.ofNat (d.size b)) check body
    (by rwa [hn])
  rwa [hn, ← htail] at h

/-- The end of an element lies behind its offset exactly if the sum does not wrap. -/
lemma endsForward_iff (hw : 32 ≤ w) (bus : Bus) (d : Element) (hb : Valid w b)
    (hhead : d.offset b ≤ b.length) : EndsForward w bus d b ↔ d.offset b + d.size b < 2 ^ w := by
  have hoffset : d.offset b < 2 ^ w := lt_of_le_of_lt hhead hb.length_lt
  have hsize : d.size b < 2 ^ w := by
    rw [← elementSize_toNat d b]
    exact lt_of_lt_of_le (UInt32.toNat_lt _) (Nat.pow_le_pow_right (by omega) hw)
  constructor
  · intro h
    by_contra hwrap
    exact absurd h.1 (Nat.not_le.mpr (add_of_le hoffset hsize (not_lt.mp hwrap)).1)
  · intro hlt
    rw [EndsForward]
    have hforward : d.offset b ≤ add w (d.offset b) (d.size b) := by
      rw [add_of_lt hlt]
      exact Nat.le_add_right _ _
    refine ⟨hforward, fun hend => ?_⟩
    rw [decoded_pos bus d hb hhead hend]
    exact hforward

/-- Where no sum wraps, the tail does not move the read position before the data. -/
lemma decodeSized_forward (size : UInt32) (check : Option γ) {body : γ → Dec α}
    (hbody : ∀ c n, Keeps w n (body c))
    (hend : b.pos ≤ add w b.pos size.toNat) (hsafe : NoWrap w (decodeSized w size check body) b) :
    b.pos ≤ ((decodeSized w size check body).run (readHandler w) b).2.pos := by
  have hget : getReadPosition.run (readHandler w) b = (.ok b.pos, b) := rfl
  have hset : Keeps w b.pos (setReadPosition (add w b.pos size.toNat)).attempt :=
    keeps_attempt (keeps_setReadPosition hend)
  have hrest := ((Prog.safe_bind _ _ _ _ b).mp hsafe).2 _ _ hget
  rw [decodeSized, Prog.run_bind_ok _ hget]
  refine (?_ : Keeps w b.pos _) b le_rfl hrest
  cases check with
  | none => exact keeps_bind hset fun _ => keeps_pure _
  | some c =>
    refine keeps_bind (keeps_attempt (hbody c b.pos)) fun r => ?_
    cases r with
    | error e => exact keeps_bind hset fun _ => keeps_pure _
    | ok a =>
      refine keeps_getReadPosition fun pos _ => ?_
      split
      · exact keeps_bind hset fun _ => keeps_pure _
      · exact keeps_pure _

lemma decoded_forward (bus : Bus) (d : Element) (hb : Valid w b) (hhead : d.offset b ≤ b.length)
    (hsum : d.offset b + d.size b < 2 ^ w) (hsafe : d.NoWrap w bus b) :
    d.offset b ≤ (d.decoded w bus b).pos := by
  obtain ⟨α, γ, check, body, hbody, htail, hsafe'⟩ := decoded_tail bus d hb hhead
  rw [htail]
  refine decodeSized_forward (b := { b with pos := d.offset b }) _ check hbody ?_ (hsafe' hsafe)
  rw [elementSize_toNat, add_of_lt hsum]
  exact Nat.le_add_right _ _

end Ends

/-- On a target with a `size_t` of at least 32 bits and a buffer whose read position lies in the
content: a comparison with a size from the wire is exact if and only if the sum does not wrap; the
end of an element whose head is in the content does not lie before its data, and the read position
is not moved before them, if and only if that sum does not wrap; and a decoder in which no sum wraps
does not leave the read position before the data. -/
theorem wire_sizes_exact {w : ℕ} (hw : 32 ≤ w) (bus : Bus) {b : Buffer} (hb : Valid w b) :
    (∀ n, ComparesExactly w n b ↔ b.pos + n.toNat < 2 ^ w) ∧
      ∀ d : Element, d.offset b ≤ b.length →
        (EndsForward w bus d b ↔ d.offset b + d.size b < 2 ^ w) ∧
        (d.offset b + d.size b < 2 ^ w → d.NoWrap w bus b → d.offset b ≤ (d.decoded w bus b).pos) :=
  ⟨comparesExactly_iff hw hb, fun d hhead =>
    ⟨endsForward_iff hw bus d hb hhead, decoded_forward bus d hb hhead⟩⟩

/-- An object without data, with uid 5 and handle 9. -/
def smallObject : Buffer := ⟨[0, 5, 0, 9, 0, 0, 0, 2, 0, 0], 10, 0⟩

/-- A bus without objects. -/
def emptyBus : Bus := { api := ⟨CString.ofBytes [], [], [], 0⟩ }

theorem wire_sizes_exact_object :
    (∀ n, ComparesExactly 32 n smallObject ↔ n.toNat < 2 ^ 32) ∧
    EndsForward 32 emptyBus .object smallObject := by
  obtain ⟨hcompares, helements⟩ := wire_sizes_exact (w := 32) le_rfl emptyBus (b := smallObject)
    ⟨by decide, by decide, by decide⟩
  refine ⟨fun n => ?_, (helements .object (by decide)).1.mpr (by decide)⟩
  have h := hcompares n
  rwa [show smallObject.pos = 0 from rfl, Nat.zero_add] at h

/-- On 32 bits a size just below `2 ^ 32` passes the comparisons, and the decoder of an object that
cannot be created goes back to the beginning of the object. -/
theorem wire_size_wraps :
    (Valid 32 ⟨List.replicate 24 0, 24, 16⟩ ∧
      ¬ComparesExactly 32 0xfffffff8 ⟨List.replicate 24 0, 24, 16⟩) ∧
      ∀ bus, Valid 32 ⟨[0, 0, 0, 1, 255, 255, 255, 248], 8, 0⟩ ∧
        Element.offset .object ⟨[0, 0, 0, 1, 255, 255, 255, 248], 8, 0⟩ = 8 ∧
        ¬EndsForward 32 bus .object ⟨[0, 0, 0, 1, 255, 255, 255, 248], 8, 0⟩ ∧
        (Element.decoded 32 bus .object ⟨[0, 0, 0, 1, 255, 255, 255, 248], 8, 0⟩).pos = 0 := by
  have hcompare : Valid 32 ⟨List.replicate 24 0, 24, 16⟩ := ⟨by decide, by decide, by decide⟩
  have hobject : Valid 32 ⟨[0, 0, 0, 1, 255, 255, 255, 248], 8, 0⟩ :=
    ⟨by decide, by decide, by decide⟩
  refine ⟨⟨hcompare, fun h => ?_⟩, fun bus => ⟨hobject, rfl, fun h => ?_, ?_⟩⟩
  · exact absurd ((comparesExactly_iff le_rfl hcompare _).mp h) (by decide)
  · exact absurd ((endsForward_iff le_rfl bus .object hobject (by decide)).mp h) (by decide)
  · exact decoded_pos bus .object hobject (by decide) (by decide)

end SizeT

end Obus
