import Obus.Buffer

/-!
# What encoding and decoding programs do to a buffer

`Parses p bs a` says that the decoding program `p`, on any buffer that continues with the bytes
`bs`, returns `a`, consumes exactly `bs` and never asks for a byte behind them.  `Writes p bs` says
that the encoding program `p` appends exactly `bs` unless an allocation fails.  Both compose over
`>>=`, so the round trip of a format follows the structure of its encoder and decoder.

`on_eq_of_inFrame` is the frame rule of decoding: a program that stays inside the first `n` bytes of
a buffer does not depend on anything else in it.
-/

namespace Obus

open Prog

variable {α β : Type}

/-! ## Decoding -/

/-- The end of the bytes that a read primitive asks for when the read position is `pos`. -/
def ReadOp.reach : ReadOp → ℕ → ℕ
  | .u8, pos => pos + 1
  | .u16, pos => pos + 2
  | .u32, pos => pos + 4
  | .u64, pos => pos + 8
  | .dup size, pos => if size = 0 then 0 else pos + size
  | .getReadPosition, _ => 0
  | .setReadPosition pos, _ => pos
  | .incReadPosition value, pos => pos + value

/-- The program, run on `b`, never asks for a byte at index `n` or beyond. -/
def Dec.InFrame (n : ℕ) (p : Dec α) (b : Buffer) : Prop :=
  p.Safe (fun o b => o.reach b.pos ≤ n) readHandler b

instance (n : ℕ) (p : Dec α) (b : Buffer) : Decidable (p.InFrame n b) :=
  Prog.Safe.decidable _ _ p b

lemma Dec.InFrame.mono {n m : ℕ} (hnm : n ≤ m) {p : Dec α} {b : Buffer} (h : p.InFrame n b) :
    p.InFrame m b :=
  Safe.mono _ (fun _ _ ho => le_trans ho hnm) h

@[simp] lemma Dec.inFrame_pure (n : ℕ) (a : α) (b : Buffer) :
    (pure a : Dec α).InFrame n b := trivial

/-- The frame of a composition. -/
lemma Dec.InFrame.bind {n : ℕ} {p : Dec α} {f : α → Dec β} {b : Buffer} (hp : p.InFrame n b)
    (hf : ∀ a b', p.on b = (.ok a, b') → (f a).InFrame n b') : (p >>= f).InFrame n b :=
  (safe_bind _ _ p f b).mpr ⟨hp, hf⟩

namespace Buffer

/-- The bytes `bs` come next: they are valid content and stand at the read position. -/
def HasNext (b : Buffer) (bs : List UInt8) : Prop :=
  b.Ok ∧ b.pos + bs.length ≤ b.length ∧ bs <+: b.data.drop b.pos

/-- The buffer with the read position moved by `n`. -/
def advance (b : Buffer) (n : ℕ) : Buffer := { b with pos := b.pos + n }

@[simp] lemma advance_pos (b : Buffer) (n : ℕ) : (b.advance n).pos = b.pos + n := rfl

@[simp] lemma advance_length (b : Buffer) (n : ℕ) : (b.advance n).length = b.length := rfl

@[simp] lemma advance_data (b : Buffer) (n : ℕ) : (b.advance n).data = b.data := rfl

@[simp] lemma advance_zero (b : Buffer) : b.advance 0 = b := rfl

@[simp] lemma advance_advance (b : Buffer) (n m : ℕ) :
    (b.advance n).advance m = b.advance (n + m) := by
  simp [advance, Nat.add_assoc]

lemma HasNext.left {b : Buffer} {xs ys : List UInt8} (h : b.HasNext (xs ++ ys)) : b.HasNext xs := by
  obtain ⟨hok, hlen, hpre⟩ := h
  rw [List.length_append] at hlen
  exact ⟨hok, by omega, (List.prefix_append xs ys).trans hpre⟩

lemma HasNext.right {b : Buffer} {xs ys : List UInt8} (h : b.HasNext (xs ++ ys)) :
    (b.advance xs.length).HasNext ys := by
  obtain ⟨hok, hlen, t, ht⟩ := h
  rw [List.length_append] at hlen
  refine ⟨hok, by simp only [advance_pos, advance_length]; omega, t, ?_⟩
  rw [advance_data, advance_pos, ← List.drop_drop, ← ht, List.append_assoc, List.drop_left]

lemma HasNext.slice {b : Buffer} {bs : List UInt8} (h : b.HasNext bs) : b.slice bs.length = bs := by
  obtain ⟨t, ht⟩ := h.2.2
  rw [Buffer.slice, ← ht, List.take_left]

end Buffer

/-- On the buffer `b` the program returns `a`, consumes exactly the bytes `bs` and stays inside
them. -/
def ParsesAt (p : Dec α) (b : Buffer) (bs : List UInt8) (a : α) : Prop :=
  p.on b = (.ok a, b.advance bs.length) ∧ p.InFrame (b.pos + bs.length) b

/-- On every buffer that continues with `bs` the program returns `a`, consumes exactly `bs` and
stays inside them. -/
def Parses (p : Dec α) (bs : List UInt8) (a : α) : Prop :=
  ∀ b : Buffer, b.HasNext bs → ParsesAt p b bs a

namespace ParsesAt

protected lemma pure (a : α) (b : Buffer) : ParsesAt (Pure.pure a) b [] a := ⟨rfl, trivial⟩

protected lemma bind {p : Dec α} {f : α → Dec β} {b : Buffer} {xs ys : List UInt8} {a : α} {c : β}
    (hp : ParsesAt p b xs a) (hf : ParsesAt (f a) (b.advance xs.length) ys c) :
    ParsesAt (p >>= f) b (xs ++ ys) c := by
  obtain ⟨hrun, hframe⟩ := hp
  obtain ⟨hrun', hframe'⟩ := hf
  have hlen : b.pos + xs.length ≤ b.pos + (xs ++ ys).length := by
    rw [List.length_append]
    omega
  constructor
  · rw [Dec.on, run_bind_ok _ hrun, ← Dec.on, hrun', Buffer.advance_advance, List.length_append]
  · refine (hframe.mono hlen).bind fun a' b' h => ?_
    rw [hrun] at h
    obtain ⟨rfl, rfl⟩ : a = a' ∧ b.advance xs.length = b' := by simpa using h
    refine hframe'.mono (le_of_eq ?_)
    rw [Buffer.advance_pos, List.length_append, Nat.add_assoc]

/-- Composition with a last part that reads nothing more. -/
lemma bind_nil {p : Dec α} {f : α → Dec β} {b : Buffer} {xs : List UInt8} {a : α} {c : β}
    (hp : ParsesAt p b xs a) (hf : ParsesAt (f a) (b.advance xs.length) [] c) :
    ParsesAt (p >>= f) b xs c := by
  simpa using hp.bind hf

protected lemma attempt {p : Dec α} {b : Buffer} {bs : List UInt8} {a : α}
    (hp : ParsesAt p b bs a) : ParsesAt p.attempt b bs (.ok a) := by
  obtain ⟨hrun, hframe⟩ := hp
  refine ⟨?_, (safe_attempt _ _ p b).mpr hframe⟩
  rw [Dec.on, run_attempt, ← Dec.on, hrun]

/-- Reading the position consumes nothing. -/
lemma getReadPosition (b : Buffer) : ParsesAt getReadPosition b [] b.pos := by
  refine ⟨run_perform _ _ _, ?_⟩
  simp [Dec.InFrame, Obus.getReadPosition, ReadOp.reach]

/-- Moving the read position forward inside the content. -/
lemma setReadPosition {b : Buffer} {bs : List UInt8} (hb : b.HasNext bs) :
    ParsesAt (setReadPosition (b.pos + bs.length)) b bs () := by
  have hlen := hb.2.1
  constructor
  · simp only [Dec.on, Obus.setReadPosition, run_perform, readHandler, bufferSetReadPosition]
    rw [if_neg (by omega)]
    rfl
  · simp [Dec.InFrame, Obus.setReadPosition, ReadOp.reach]

end ParsesAt

namespace Parses

protected lemma pure (a : α) : Parses (Pure.pure a) [] a := fun b _ => .pure a b

protected lemma bind {p : Dec α} {f : α → Dec β} {xs ys : List UInt8} {a : α} {c : β}
    (hp : Parses p xs a) (hf : Parses (f a) ys c) : Parses (p >>= f) (xs ++ ys) c :=
  fun b hb => (hp b hb.left).bind (hf _ hb.right)

/-- Composition with a last part that reads nothing more. -/
lemma bind_nil {p : Dec α} {f : α → Dec β} {xs : List UInt8} {a : α} {c : β} (hp : Parses p xs a)
    (hf : Parses (f a) [] c) : Parses (p >>= f) xs c := by
  simpa using hp.bind hf

protected lemma attempt {p : Dec α} {bs : List UInt8} {a : α} (hp : Parses p bs a) :
    Parses p.attempt bs (.ok a) :=
  fun b hb => (hp b hb).attempt

end Parses

/-- A word read succeeds on the bytes of the word, whatever limit at or behind the content it
checks. -/
lemma bufferReadWord_of_hasNext {b : Buffer} {k n limit : ℕ} {e : Errno}
    (hb : b.HasNext (bigEndian k n)) (hlim : b.length ≤ limit) :
    bufferReadWord limit k e b = (.ok (n % 256 ^ k), b.advance k) := by
  have hslice := hb.slice
  have hlen := hb.2.1
  rw [bigEndian_length] at hslice hlen
  rw [bufferReadWord, if_neg (by omega), hslice, ofBigEndian_bigEndian]
  rfl

lemma parses_u8 (v : UInt8) : Parses readU8 (bigEndian 1 v.toNat) v := by
  intro b hb
  have h := bufferReadWord_of_hasNext (e := .eagain) hb le_rfl
  constructor
  · simp only [Dec.on, readU8, run_perform, readHandler, bufferReadU8, h, bigEndian_length]
    simp [Except.map]
  · simp [Dec.InFrame, readU8, ReadOp.reach]

lemma parses_u16 (v : UInt16) : Parses readU16 (bigEndian 2 v.toNat) v := by
  intro b hb
  have h := bufferReadWord_of_hasNext (e := .einval) hb le_rfl
  constructor
  · simp only [Dec.on, readU16, run_perform, readHandler, bufferReadU16, h, bigEndian_length]
    simp [Except.map]
  · simp [Dec.InFrame, readU16, ReadOp.reach]

lemma parses_u32 (v : UInt32) : Parses readU32 (bigEndian 4 v.toNat) v := by
  intro b hb
  have h := bufferReadWord_of_hasNext (e := .eagain) hb le_rfl
  constructor
  · simp only [Dec.on, readU32, run_perform, readHandler, bufferReadU32, h, bigEndian_length]
    simp [Except.map]
  · simp [Dec.InFrame, readU32, ReadOp.reach]

lemma parses_u64 (v : UInt64) : Parses readU64 (bigEndian 8 v.toNat) v := by
  intro b hb
  have h := bufferReadWord_of_hasNext (e := .einval) hb hb.1
  constructor
  · simp only [Dec.on, readU64, run_perform, readHandler, bufferReadU64, h, bigEndian_length]
    simp [Except.map]
  · simp [Dec.InFrame, readU64, ReadOp.reach]

lemma parses_dup (bs : List UInt8) : Parses (dup bs.length) bs bs := by
  intro b hb
  have hslice := hb.slice
  have hlen := hb.2.1
  constructor
  · simp only [Dec.on, dup, run_perform, readHandler, bufferDup]
    by_cases hbs : bs.length = 0
    · rw [if_pos hbs, List.length_eq_zero_iff.mp hbs]
      rfl
    · rw [if_neg hbs, if_neg (by omega), hslice]
      rfl
  · simp only [Dec.InFrame, dup, safe_perform, ReadOp.reach]
    split <;> omega

/-- Skipping as many bytes as there are. -/
lemma parses_incReadPosition (bs : List UInt8) : Parses (incReadPosition bs.length) bs () := by
  intro b hb
  have hlen := hb.2.1
  constructor
  · simp only [Dec.on, incReadPosition, run_perform, readHandler, bufferIncReadPosition]
    rw [if_neg (by omega)]
    rfl
  · simp [Dec.InFrame, incReadPosition, ReadOp.reach]

/-! ### The frame rule -/

/-- Two buffers that agree on their first `n` bytes, all of them valid content, and on the read
position. -/
structure Buffer.AgreeOn (n : ℕ) (b c : Buffer) : Prop where
  pos_eq : b.pos = c.pos
  take_eq : b.data.take n = c.data.take n
  ok : b.Ok
  ok' : c.Ok
  le : n ≤ b.length
  le' : n ≤ c.length

lemma Buffer.AgreeOn.slice_eq {n k : ℕ} {b c : Buffer} (h : b.AgreeOn n c) (hk : b.pos + k ≤ n) :
    b.slice k = c.slice k := by
  have hcut : ∀ d : Buffer, d.pos + k ≤ n → d.slice k = ((d.data.take n).drop d.pos).take k := by
    intro d hd
    rw [List.drop_take, List.take_take, Buffer.slice, min_eq_left (by omega)]
  rw [hcut b hk, hcut c (h.pos_eq ▸ hk), h.take_eq, h.pos_eq]

lemma Buffer.AgreeOn.advance {n k : ℕ} {b c : Buffer} (h : b.AgreeOn n c) :
    (b.advance k).AgreeOn n (c.advance k) :=
  { h with pos_eq := congrArg (· + k) h.pos_eq }

/-- A word read inside the common bytes answers alike on both buffers, whatever limits at or behind
the content they check. -/
lemma Buffer.AgreeOn.readWord {n k l m : ℕ} {e : Errno} {b c : Buffer} (h : b.AgreeOn n c)
    (hk : b.pos + k ≤ n) (hl : b.length ≤ l) (hm : c.length ≤ m) :
    (bufferReadWord l k e b).1 = (bufferReadWord m k e c).1 ∧
      (bufferReadWord l k e b).2.AgreeOn n (bufferReadWord m k e c).2 := by
  have hle := h.le
  have hle' := h.le'
  have hpos := h.pos_eq
  rw [bufferReadWord, bufferReadWord, if_neg (by omega), if_neg (by omega), h.slice_eq hk]
  exact ⟨rfl, h.advance⟩

/-- Every read primitive answers alike on two buffers that agree on the bytes it asks for. -/
lemma Buffer.AgreeOn.readHandler {n : ℕ} (o : ReadOp) (b c : Buffer) (ho : o.reach b.pos ≤ n)
    (h : b.AgreeOn n c) :
    (readHandler o b).1 = (readHandler o c).1 ∧
      (readHandler o b).2.AgreeOn n (readHandler o c).2 := by
  have hle := h.le
  have hle' := h.le'
  have hpos := h.pos_eq
  cases o with
  | u8 =>
    obtain ⟨h₁, h₂⟩ := h.readWord (e := .eagain) ho le_rfl le_rfl
    exact ⟨congrArg (Except.map _) h₁, h₂⟩
  | u16 =>
    obtain ⟨h₁, h₂⟩ := h.readWord (e := .einval) ho le_rfl le_rfl
    exact ⟨congrArg (Except.map _) h₁, h₂⟩
  | u32 =>
    obtain ⟨h₁, h₂⟩ := h.readWord (e := .eagain) ho le_rfl le_rfl
    exact ⟨congrArg (Except.map _) h₁, h₂⟩
  | u64 =>
    obtain ⟨h₁, h₂⟩ := h.readWord (e := .einval) ho h.ok h.ok'
    exact ⟨congrArg (Except.map _) h₁, h₂⟩
  | dup size =>
    simp only [ReadOp.reach] at ho
    simp only [Obus.readHandler, bufferDup]
    split_ifs at ho ⊢ with h0 h1 h2 h3
    all_goals first | exact ⟨rfl, h⟩ | omega | exact ⟨by rw [h.slice_eq ho], h.advance⟩
  | getReadPosition => exact ⟨by simp [Obus.readHandler, hpos], h⟩
  | setReadPosition pos =>
    simp only [ReadOp.reach] at ho
    simp only [Obus.readHandler, bufferSetReadPosition]
    rw [if_neg (by omega), if_neg (by omega)]
    exact ⟨rfl, { h with pos_eq := rfl }⟩
  | incReadPosition value =>
    simp only [ReadOp.reach] at ho
    simp only [Obus.readHandler, bufferIncReadPosition]
    rw [if_neg (by omega), if_neg (by omega)]
    exact ⟨rfl, h.advance⟩

/-- A program that stays inside the first `n` bytes depends on these bytes only. -/
lemma Dec.on_eq_of_inFrame {n : ℕ} {p : Dec α} {b c : Buffer} (h : b.AgreeOn n c)
    (hp : p.InFrame n b) : (p.on b).1 = (p.on c).1 ∧ (p.on b).2.AgreeOn n (p.on c).2 :=
  run_eq_of_safe _ _ Buffer.AgreeOn.readHandler p h hp

/-! ## Encoding -/

namespace Buffer

lemma store_length_of_le {b : Buffer} {offset : ℕ} {bs : List UInt8}
    (h : offset + bs.length ≤ b.size) : (b.store offset bs).size = b.size := by
  simp only [store, size, List.length_append, List.length_take, List.length_drop] at h ⊢
  omega

/-- Storing at the end of the content. -/
lemma take_store_end {b : Buffer} (hb : b.Ok) (bs : List UInt8) :
    (b.store b.length bs).data.take (b.length + bs.length) = b.content ++ bs := by
  have hlen : (b.data.take b.length ++ bs).length = b.length + bs.length := by
    rw [List.length_append, List.length_take_of_le hb]
  rw [store, ← hlen, List.take_left]
  rfl

/-- Storing inside the content replaces the bytes there. -/
lemma content_store {b : Buffer} (hb : b.Ok) {offset : ℕ} {bs : List UInt8}
    (h : offset + bs.length ≤ b.length) :
    (b.store offset bs).content =
      b.content.take offset ++ bs ++ b.content.drop (offset + bs.length) := by
  have hle : offset + bs.length ≤ b.data.length := le_trans h hb
  have hpre : (b.data.take offset ++ bs).length = offset + bs.length := by
    rw [List.length_append, List.length_take_of_le (by omega)]
  simp only [content, store]
  rw [List.take_append, hpre, List.take_of_length_le (by omega), List.take_take,
    min_eq_left (by omega), List.drop_take]

end Buffer

/-- Either the block is extended to the requested size or an allocation failed. -/
lemma bufferEnsureRealloc_cases (mem : Realloc) (n : ℕ) (b : Buffer) :
    (∃ tail, bufferEnsureRealloc mem n b = (.ok (), { b with data := b.data ++ tail }) ∧
        n ≤ b.size + tail.length) ∨
      (bufferEnsureRealloc mem n b = (.error .enomem, b) ∧ mem n = none) := by
  unfold bufferEnsureRealloc
  by_cases hn : b.size < n
  · rw [if_pos hn]
    cases hmem : mem n with
    | none => exact Or.inr ⟨rfl, rfl⟩
    | some fill =>
      refine Or.inl ⟨_, rfl, ?_⟩
      rw [List.length_map, List.length_range]
      omega
  · rw [if_neg hn]
    exact Or.inl ⟨[], by simp, by simpa using Nat.le_of_not_lt hn⟩

/-- An append extends the content by the bytes, unless an allocation failed. -/
lemma bufferAppend_cases (mem : Realloc) (bs : List UInt8) {b : Buffer} (hb : b.Ok) :
    (∃ b', bufferAppend mem bs b = (.ok (), b') ∧ b'.Ok ∧ b'.content = b.content ++ bs ∧
        b'.length = b.length + bs.length ∧ b'.pos = b.pos ∧ b.size ≤ b'.size) ∨
      (bufferAppend mem bs b = (.error .enomem, b) ∧ ∃ n, mem n = none) := by
  unfold bufferAppend
  rcases bufferEnsureRealloc_cases mem (b.length + bs.length) b with ⟨tail, h, hn⟩ | ⟨h, hmem⟩
  · rw [h]
    have hok : ({ b with data := b.data ++ tail } : Buffer).Ok := by
      simp only [Buffer.Ok, Buffer.size, List.length_append] at hb ⊢
      omega
    have hroom : b.length + bs.length ≤ ({ b with data := b.data ++ tail } : Buffer).size := by
      simpa [Buffer.size] using hn
    have hsize := Buffer.store_length_of_le hroom
    refine Or.inl ⟨_, rfl, ?_, ?_, rfl, rfl, ?_⟩
    · exact le_trans hroom (le_of_eq hsize.symm)
    · refine (Buffer.take_store_end hok bs).trans ?_
      simp only [Buffer.content, List.take_append_of_le_length hb]
    · exact le_trans (by simp [Buffer.size]) (le_of_eq hsize.symm)
  · rw [h]
    exact Or.inr ⟨rfl, _, hmem⟩

/-- A write inside the content always succeeds and replaces the bytes there. -/
lemma bufferWriteAt_inside (mem : Realloc) {b : Buffer} (hb : b.Ok) (pre bs : List UInt8)
    {old post : List UInt8} (hcont : b.content = pre ++ (old ++ post))
    (hlen : old.length = bs.length) :
    ∃ b', bufferWriteAt mem bs pre.length b = (.ok (), b') ∧ b'.Ok ∧
      b'.content = pre ++ (bs ++ post) ∧ b'.length = b.length := by
  have hroom : pre.length + bs.length ≤ b.length := by
    rw [← Buffer.content_length hb, hcont, List.length_append, List.length_append, hlen]
    omega
  have hle : ¬ b.size < pre.length + bs.length := by
    have := le_trans hroom hb
    omega
  refine ⟨b.store pre.length bs, ?_, ?_, ?_, rfl⟩
  · rw [bufferWriteAt, bufferEnsureRealloc, if_neg hle]
  · exact le_trans hb (le_of_eq (Buffer.store_length_of_le (le_trans hroom hb)).symm)
  · rw [Buffer.content_store hb hroom, hcont, List.take_left, ← hlen, ← List.append_assoc pre old,
      ← List.length_append, List.drop_left, List.append_assoc]

/-- The program appends exactly `bs` to the content of any buffer, or an allocation fails. -/
def Writes (p : Enc Unit) (bs : List UInt8) : Prop :=
  ∀ (mem : Realloc) (b : Buffer), b.Ok →
    (∃ b', p.on mem b = (.ok (), b') ∧ b'.Ok ∧ b'.content = b.content ++ bs) ∨
      (∃ e b', p.on mem b = (.error e, b') ∧ ∃ n, mem n = none)

namespace Writes

protected lemma pure : Writes (Pure.pure ()) [] := by
  intro mem b hb
  exact Or.inl ⟨b, rfl, hb, by simp⟩

protected lemma bind {p : Enc Unit} {f : Unit → Enc Unit} {xs ys : List UInt8} (hp : Writes p xs)
    (hf : Writes (f ()) ys) : Writes (p >>= f) (xs ++ ys) := by
  intro mem b hb
  rcases hp mem b hb with ⟨b', hrun, hok, hcont⟩ | ⟨e, b', hrun, hmem⟩
  · rw [Enc.on, run_bind_ok _ hrun]
    rcases hf mem b' hok with ⟨b'', hrun', hok', hcont'⟩ | ⟨e, b'', hrun', hmem⟩
    · exact Or.inl ⟨b'', hrun', hok', by rw [hcont', hcont, List.append_assoc]⟩
    · exact Or.inr ⟨e, b'', hrun', hmem⟩
  · rw [Enc.on, run_bind_error _ hrun]
    exact Or.inr ⟨e, b', rfl, hmem⟩

/-- A program that runs like an append writes the appended bytes. -/
lemma of_append {p : Enc Unit} {bs : List UInt8}
    (h : ∀ mem b, p.on mem b = bufferAppend mem bs b) : Writes p bs := by
  intro mem b hb
  rw [h]
  rcases bufferAppend_cases mem bs hb with ⟨b', hrun, hok, hcont, -⟩ | ⟨hrun, hmem⟩
  · exact Or.inl ⟨b', hrun, hok, hcont⟩
  · exact Or.inr ⟨_, b, hrun, hmem⟩

end Writes

lemma writes_u8 (v : UInt8) : Writes (appendU8 v) (bigEndian 1 v.toNat) :=
  .of_append fun _ _ => run_perform _ _ _

lemma writes_u16 (v : UInt16) : Writes (appendU16 v) (bigEndian 2 v.toNat) :=
  .of_append fun _ _ => run_perform _ _ _

lemma writes_u32 (v : UInt32) : Writes (appendU32 v) (bigEndian 4 v.toNat) :=
  .of_append fun _ _ => run_perform _ _ _

lemma writes_u64 (v : UInt64) : Writes (appendU64 v) (bigEndian 8 v.toNat) :=
  .of_append fun _ _ => run_perform _ _ _

/-- The bytes that `obus_buffer_append_string` writes.  The size field has 32 bits, and only as many
bytes as it says follow. -/
def stringBytes (str : Option CString) : List UInt8 :=
  bigEndian 4 (CString.memory str).length ++
    (CString.memory str).take ((CString.memory str).length % 2 ^ 32)

lemma writes_string (str : Option CString) : Writes (appendString str) (stringBytes str) := by
  intro mem b hb
  rw [Enc.on, appendString, run_perform]
  simp only [writeHandler, bufferAppendString, stringBytes]
  generalize CString.memory str = bytes
  have hsize : bytes.length % 2 ^ 32 = (UInt32.ofNat bytes.length).toNat := by simp
  rw [← bigEndian_ofNat32 bytes.length, hsize]
  generalize UInt32.ofNat bytes.length = size
  rcases bufferEnsureRealloc_cases mem (b.length + (size + 4).toNat) b with
    ⟨tail, h, -⟩ | ⟨h, hmem⟩
  · rw [h]
    have hok : ({ b with data := b.data ++ tail } : Buffer).Ok := by
      simp only [Buffer.Ok, Buffer.size, List.length_append] at hb ⊢
      omega
    have hcont : ({ b with data := b.data ++ tail } : Buffer).content = b.content :=
      List.take_append_of_le_length hb
    rw [← hcont]
    generalize ({ b with data := b.data ++ tail } : Buffer) = c at hok
    rcases bufferAppend_cases mem (bigEndian 4 size.toNat) hok with
      ⟨c', h', hok', hcont', -⟩ | ⟨h', hmem⟩
    · simp only [h']
      by_cases hsize : 0 < size
      · rw [if_pos hsize]
        rcases bufferAppend_cases mem (bytes.take size.toNat) hok' with
          ⟨c'', h'', hok'', hcont'', -⟩ | ⟨h'', hmem⟩
        · exact Or.inl ⟨c'', by rw [h'']; rfl, hok'', by rw [hcont'', hcont', List.append_assoc]⟩
        · exact Or.inr ⟨_, c', by rw [h'']; rfl, hmem⟩
      · have hzero : size.toNat = 0 := by
          simpa [UInt32.lt_iff_toNat_lt] using hsize
        rw [if_neg hsize]
        exact Or.inl ⟨c', rfl, hok', by rw [hcont', hzero]; simp⟩
    · simp only [h']
      by_cases hsize : 0 < size
      · rw [if_pos hsize]
        exact Or.inr ⟨_, _, rfl, hmem⟩
      · rw [if_neg hsize]
        exact Or.inr ⟨_, _, rfl, hmem⟩
  · rw [h]
    exact Or.inr ⟨_, b, rfl, _, hmem⟩

/-- Reserving room appends that many bytes of any value, unless an allocation fails. -/
lemma bufferReserve_cases (mem : Realloc) (n : ℕ) {b : Buffer} (hb : b.Ok) :
    (∃ b' room, bufferReserve mem n b = (.ok (), b') ∧ b'.Ok ∧ b'.content = b.content ++ room ∧
        room.length = n) ∨
      (bufferReserve mem n b = (.error .enomem, b) ∧ ∃ k, mem k = none) := by
  unfold bufferReserve
  rcases bufferEnsureRealloc_cases mem (b.length + n) b with ⟨tail, h, hn⟩ | ⟨h, hmem⟩
  · rw [h]
    have hroom : b.length + n ≤ (b.data ++ tail).length := by
      simpa [Buffer.size] using hn
    refine Or.inl ⟨_, ((b.data ++ tail).drop b.length).take n, rfl, hroom, ?_, ?_⟩
    · simp only [Buffer.content]
      rw [List.take_add, List.take_append_of_le_length hb]
    · rw [List.length_take_of_le]
      rw [List.length_drop]
      omega
  · rw [h]
    exact Or.inr ⟨rfl, _, hmem⟩

end Obus
