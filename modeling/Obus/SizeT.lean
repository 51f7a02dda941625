import Obus.Lib.Run
import Obus.Packet

/-!
# Read primitives on a `size_t`

The read primitives of `obus_buffer.h` compare a read position plus a number of bytes with the
length of the content, in the arithmetic of a `size_t` of `w` bits.  `SizeT` has them as they run on
such a target.

A read is bounded if it either consumes bytes of the content, on which alone its result depends, or
fails and leaves the read position (`Bounded`).  Each primitive has a bound of its own, and
`reads_bounded` says for which inputs it is the right one: the sum must not wrap, a 64-bit word must
not lie between the content and the end of the block, and a string that is announced must be there.
-/

namespace Obus

namespace SizeT

section Primitives

variable (w : ℕ)

/-- The sum of two `size_t`. -/
def add (a b : ℕ) : ℕ := (a + b) % 2 ^ w

/-- `obus_buffer_inc_read_position`. -/
def bufferIncReadPosition (value : ℕ) (b : Buffer) : Except Errno Unit × Buffer :=
  if b.length < add w value b.pos then (.error .einval, b)
  else (.ok (), { b with pos := add w b.pos value })

/-- The common shape of the word reads: `k` big-endian bytes at the read position, refused with `e`
when the last one is not before `limit`. -/
def bufferReadWord (limit k : ℕ) (e : Errno) (b : Buffer) : Except Errno ℕ × Buffer :=
  if limit ≤ add w b.pos (k - 1) then (.error e, b)
  else (.ok (ofBigEndian (b.slice k)), { b with pos := add w b.pos k })

/-- `obus_buffer_read_u8`. -/
def bufferReadU8 (b : Buffer) : Except Errno UInt8 × Buffer :=
  (bufferReadWord w b.length 1 .eagain b).map (Except.map UInt8.ofNat) id

/-- `obus_buffer_read_u16`. -/
def bufferReadU16 (b : Buffer) : Except Errno UInt16 × Buffer :=
  (bufferReadWord w b.length 2 .einval b).map (Except.map UInt16.ofNat) id

/-- `obus_buffer_read_u32`, and `obus_buffer_read_f32`, which takes the bits for those of a float.
-/
def bufferReadU32 (b : Buffer) : Except Errno UInt32 × Buffer :=
  (bufferReadWord w b.length 4 .eagain b).map (Except.map UInt32.ofNat) id

/-- `obus_buffer_read_u64`, and `obus_buffer_read_f64`; the limit is the size of the block. -/
def bufferReadU64 (b : Buffer) : Except Errno UInt64 × Buffer :=
  (bufferReadWord w b.size 8 .einval b).map (Except.map UInt64.ofNat) id

/-- `obus_buffer_dup`; `malloc` says which sizes the allocator has memory for. -/
def bufferDup (malloc : ℕ → Bool) (size : ℕ) (b : Buffer) : Except Errno (List UInt8) × Buffer :=
  if size = 0 then (.ok [], b)
  else if b.length < add w b.pos size then (.error .eagain, b)
  else if malloc size then (.ok (b.slice size), { b with pos := add w b.pos size })
  else (.error .enomem, b)

/-- `obus_buffer_read_string`. -/
def bufferReadString (malloc : ℕ → Bool) (b : Buffer) : Except Errno (Option CString) × Buffer :=
  match bufferReadU32 w b with
  | (.error e, b') => (.error e, b')
  | (.ok size, b') =>
    if size = 0 then (.ok none, b')
    else
      match bufferDup w malloc size.toNat b' with
      | (.error e, b'') => (.error e, b'')
      | (.ok data, b'') => (.ok (some (CString.ofBytes (data.set (size.toNat - 1) 0))), b'')

end Primitives

/-- The read primitives. -/
inductive Read where
  | u8 | u16 | u32 | u64 | f32 | f64 | string
  | dup (size : ℕ)
  | incReadPosition (value : ℕ)

/-- What a read primitive returns; a float is its bits. -/
abbrev Read.Out : Read → Type
  | .u8 => UInt8
  | .u16 => UInt16
  | .u32 | .f32 => UInt32
  | .u64 | .f64 => UInt64
  | .string => Option CString
  | .dup _ => List UInt8
  | .incReadPosition _ => Unit

/-- The effect of a read primitive on a buffer. -/
def Read.run (w : ℕ) (malloc : ℕ → Bool) : (o : Read) → Buffer → Except Errno o.Out × Buffer
  | .u8 => bufferReadU8 w
  | .u16 => bufferReadU16 w
  | .u32 | .f32 => bufferReadU32 w
  | .u64 | .f64 => bufferReadU64 w
  | .string => bufferReadString w malloc
  | .dup size => bufferDup w malloc size
  | .incReadPosition value => bufferIncReadPosition w value

/-- The argument of a primitive is a `size_t`. -/
def Read.Fits (w : ℕ) : Read → Prop
  | .dup n | .incReadPosition n => n < 2 ^ w
  | _ => True

/-- A buffer on the target: the read position lies in the content, the content in the block, and the
size of the block is a `size_t`. -/
structure Valid (w : ℕ) (b : Buffer) : Prop where
  pos : b.pos ≤ b.length
  ok : b.Ok
  size : b.size < 2 ^ w

/-- A read either consumes bytes of the content, on which alone its result depends, or fails and
leaves the read position. -/
def Bounded (w : ℕ) (malloc : ℕ → Bool) (o : Read) (b : Buffer) : Prop :=
  match o.run w malloc b with
  | (.error _, b') => b' = b
  | (.ok v, b') => ∃ n, b.pos + n ≤ b.length ∧ b' = { b with pos := b.pos + n } ∧
      ∀ c, Valid w c → c.pos + n ≤ c.length → c.slice n = b.slice n →
        o.run w malloc c = (.ok v, { c with pos := c.pos + n })

/-- The bound of a primitive is the right one: the sum with which it compares does not wrap, a
64-bit word lies in the content or not even in the block, and a string that is announced is there,
with memory for it.  A copy for which there is no memory is refused anyway. -/
def Right (w : ℕ) (malloc : ℕ → Bool) : Read → Buffer → Prop
  | .u8, _ => True
  | .u16, b => b.pos + 1 < 2 ^ w
  | .u32, b | .f32, b => b.pos + 3 < 2 ^ w
  | .u64, b | .f64, b => b.pos + 7 < 2 ^ w ∧ (b.pos + 8 ≤ b.length ∨ b.size < b.pos + 8)
  | .string, b => b.pos + 3 < 2 ^ w ∧ (b.pos + 4 ≤ b.length → ofBigEndian (b.slice 4) = 0 ∨
      b.pos + 4 + ofBigEndian (b.slice 4) ≤ b.length ∧ malloc (ofBigEndian (b.slice 4)))
  | .dup n, b => b.pos + n < 2 ^ w ∨ malloc n = false
  | .incReadPosition n, b => b.pos + n < 2 ^ w

/-! ## Sums -/

section Sums

variable {w : ℕ} {b : Buffer} {n : ℕ}

lemma add_of_lt {a n : ℕ} (h : a + n < 2 ^ w) : add w a n = a + n := Nat.mod_eq_of_lt h

/-- A sum that wraps is smaller than both of its terms. -/
lemma add_of_le {a n : ℕ} (ha : a < 2 ^ w) (hn : n < 2 ^ w) (h : 2 ^ w ≤ a + n) :
    add w a n < a ∧ add w a n < n := by
  have hwrap : add w a n = a + n - 2 ^ w := by
    rw [add, Nat.mod_eq_sub_mod h, Nat.mod_eq_of_lt (by omega)]
  omega

lemma Valid.length_lt (hb : Valid w b) : b.length < 2 ^ w := lt_of_le_of_lt hb.ok hb.size

lemma Valid.pos_lt (hb : Valid w b) : b.pos < 2 ^ w := lt_of_le_of_lt hb.pos hb.length_lt

/-- A comparison with the content is right exactly if the sum does not wrap. -/
lemma Valid.length_lt_add_iff (hb : Valid w b) (hn : n < 2 ^ w) :
    (b.length < add w b.pos n ↔ b.length < b.pos + n) ↔ b.pos + n < 2 ^ w := by
  have hlength := hb.length_lt
  have hpos := hb.pos
  by_cases h : b.pos + n < 2 ^ w
  · rw [add_of_lt h]
    exact iff_of_true Iff.rfl h
  · have hwrap := (add_of_le hb.pos_lt hn (not_lt.mp h)).1
    omega

end Sums

/-! ## One read -/

section Reads

variable {w : ℕ} {malloc : ℕ → Bool} {o : Read} {b b' : Buffer}

lemma bounded_error {e : Errno} (hrun : o.run w malloc b = (.error e, b')) : Bounded w malloc o b ↔
    b' = b := by
  rw [Bounded, hrun]

lemma bounded_ok {v : o.Out} (hrun : o.run w malloc b = (.ok v, b')) :
    Bounded w malloc o b ↔ ∃ n, b.pos + n ≤ b.length ∧ b' = { b with pos := b.pos + n } ∧
      ∀ c, Valid w c → c.pos + n ≤ c.length → c.slice n = b.slice n →
        o.run w malloc c = (.ok v, { c with pos := c.pos + n }) := by
  rw [Bounded, hrun]

/-- A bounded read keeps the read position in the content. -/
lemma Bounded.valid (h : Bounded w malloc o b) (hb : Valid w b) : Valid w (o.run w malloc b).2 := by
  rcases hrun : o.run w malloc b with ⟨e | v, b'⟩
  · rw [(bounded_error hrun).mp h]
    exact hb
  · obtain ⟨n, hn, rfl, -⟩ := (bounded_ok hrun).mp h
    exact ⟨hn, hb.ok, hb.size⟩

/-- A read that moved the read position back is not bounded. -/
lemma not_bounded_of_lt {v : o.Out} (hrun : o.run w malloc b = (.ok v, b')) (hlt : b'.pos < b.pos) :
    ¬Bounded w malloc o b := by
  rintro h
  obtain ⟨n, -, rfl, -⟩ := (bounded_ok hrun).mp h
  exact absurd hlt (Nat.not_lt.mpr (Nat.le_add_right _ n))

/-- A word in the content. -/
lemma readWord_of_le {limit k : ℕ} {e : Errno} (hlimit : b.pos + k ≤ limit) (hk : 0 < k)
    (hlt : limit < 2 ^ w) :
    bufferReadWord w limit k e b =
      (.ok (ofBigEndian (b.slice k)), { b with pos := b.pos + k }) := by
  rw [bufferReadWord, add_of_lt (by omega), add_of_lt (by omega), if_neg (by omega)]

/-- A word that reaches past its limit. -/
lemma readWord_of_lt {limit k : ℕ} {e : Errno} (hlimit : limit < b.pos + k)
    (hlt : b.pos + (k - 1) < 2 ^ w) : bufferReadWord w limit k e b = (.error e, b) := by
  rw [bufferReadWord, add_of_lt hlt, if_pos (by omega)]

/-- The word reads, each with its limit. -/
lemma bounded_word_iff {f : ℕ → o.Out} {limit : Buffer → ℕ} {k : ℕ} {e : Errno}
    (hrun : ∀ c, o.run w malloc c = (bufferReadWord w (limit c) k e c).map (Except.map f) id)
    (hlimit : ∀ c, Valid w c → c.length ≤ limit c ∧ limit c ≤ c.size) (hpos : 0 < k)
    (hk : k < 2 ^ w) (hb : Valid w b) :
    Bounded w malloc o b ↔ b.pos + (k - 1) < 2 ^ w ∧
    (b.pos + k ≤ b.length ∨ limit b < b.pos + k) := by
  obtain ⟨hlow, hhigh⟩ := hlimit b hb
  have hsize := hb.size
  by_cases hwrap : b.pos + (k - 1) < 2 ^ w
  · by_cases hpast : limit b < b.pos + k
    · have hfail : o.run w malloc b = (.error e, b) := by
        rw [hrun, readWord_of_lt hpast hwrap]
        rfl
      exact iff_of_true ((bounded_error hfail).mpr rfl) ⟨hwrap, Or.inr hpast⟩
    · have hread : ∀ c, Valid w c → c.pos + k ≤ limit c →
          o.run w malloc c = (.ok (f (ofBigEndian (c.slice k))), { c with pos := c.pos + k }) := by
        intro c hc hle
        rw [hrun, readWord_of_le hle hpos (lt_of_le_of_lt (hlimit c hc).2 hc.size)]
        rfl
      rw [bounded_ok (hread b hb (not_lt.mp hpast))]
      constructor
      · rintro ⟨n, hn, hnext, -⟩
        have hsame : b.pos + k = b.pos + n := congrArg Buffer.pos hnext
        exact ⟨hwrap, Or.inl (hsame ▸ hn)⟩
      · rintro ⟨-, hin⟩
        refine ⟨k, hin.resolve_right hpast, rfl, fun c hc hn hslice => ?_⟩
        rw [hread c hc (le_trans hn (hlimit c hc).1), hslice]
  · have hback : add w b.pos (k - 1) < b.pos := (add_of_le hb.pos_lt (by omega) (not_lt.mp hwrap)).1
    have hin := hb.pos
    have hread : o.run w malloc b =
        (.ok (f (ofBigEndian (b.slice k))), { b with pos := add w b.pos k }) := by
      rw [hrun, bufferReadWord, if_neg (by omega)]
      rfl
    refine iff_of_false (not_bounded_of_lt hread ?_) fun h => hwrap h.1
    exact (add_of_le hb.pos_lt hk (by omega)).1

lemma bounded_inc_iff {n : ℕ} (hn : n < 2 ^ w) (hb : Valid w b) :
    Bounded w malloc (.incReadPosition n) b ↔ b.pos + n < 2 ^ w := by
  have hin := hb.pos
  have hsize := hb.length_lt
  have hcomm : add w n b.pos = add w b.pos n := congrArg (· % 2 ^ w) (Nat.add_comm n b.pos)
  have hinc : ∀ c : Buffer, Valid w c → c.pos + n ≤ c.length →
      Read.run w malloc (.incReadPosition n) c = (.ok (), { c with pos := c.pos + n }) := by
    intro c hc hle
    have hlt := hc.length_lt
    have hsum : add w n c.pos = c.pos + n := by rw [add, Nat.add_comm, Nat.mod_eq_of_lt (by omega)]
    rw [Read.run, bufferIncReadPosition, hsum, if_neg (by omega), add_of_lt (by omega)]
  by_cases hwrap : b.pos + n < 2 ^ w
  · refine iff_of_true ?_ hwrap
    by_cases hle : b.pos + n ≤ b.length
    · exact (bounded_ok (hinc b hb hle)).mpr ⟨n, hle, rfl, fun c hc hn _ => hinc c hc hn⟩
    · have hfail : Read.run w malloc (.incReadPosition n) b = (.error .einval, b) := by
        rw [Read.run, bufferIncReadPosition, hcomm, add_of_lt hwrap, if_pos (by omega)]
      exact (bounded_error hfail).mpr rfl
  · have hback := (add_of_le hb.pos_lt hn (not_lt.mp hwrap)).1
    have hread : Read.run w malloc (.incReadPosition n) b =
        (.ok (), { b with pos := add w b.pos n }) := by
      rw [Read.run, bufferIncReadPosition, hcomm, if_neg (by omega)]
    exact iff_of_false (not_bounded_of_lt hread hback) hwrap

/-- Bytes of the content. -/
lemma dup_of_le {n : ℕ} (hle : b.pos + n ≤ b.length) (hmem : malloc n) (hpos : n ≠ 0)
    (hb : Valid w b) : bufferDup w malloc n b = (.ok (b.slice n), { b with pos := b.pos + n }) := by
  have hlt := hb.length_lt
  rw [bufferDup, if_neg hpos, add_of_lt (by omega), if_neg (by omega), if_pos hmem]

lemma dup_zero : bufferDup w malloc 0 b = (.ok [], b) := if_pos rfl

/-- Bytes that the content does not have, or for which there is no memory. -/
lemma dup_fails {n : ℕ} (hpos : n ≠ 0) (hwrap : b.pos + n < 2 ^ w)
    (h : b.length < b.pos + n ∨ malloc n = false) :
    ∃ e, bufferDup w malloc n b = (.error e, b) := by
  rw [bufferDup, if_neg hpos, add_of_lt hwrap]
  by_cases hlt : b.length < b.pos + n
  · exact ⟨_, if_pos hlt⟩
  · rw [if_neg hlt, h.resolve_left hlt]
    exact ⟨_, rfl⟩

/-- What a copy that fails leaves. -/
lemma dup_error {n : ℕ} {e : Errno} (h : bufferDup w malloc n b = (.error e, b')) : b' = b := by
  unfold bufferDup at h
  split_ifs at h
  all_goals cases h
  all_goals rfl

/-- A copy that succeeds has passed the comparison. -/
lemma dup_ok {n : ℕ} {data : List UInt8} (h : bufferDup w malloc n b = (.ok data, b'))
    (hpos : n ≠ 0) : b'.pos = add w b.pos n ∧ add w b.pos n ≤ b.length ∧ malloc n := by
  rw [bufferDup, if_neg hpos] at h
  split_ifs at h with hpast hmem
  all_goals cases h
  exact ⟨rfl, not_lt.mp hpast, hmem⟩

lemma bounded_dup_iff {n : ℕ} (hn : n < 2 ^ w) (hb : Valid w b) :
    Bounded w malloc (.dup n) b ↔ b.pos + n < 2 ^ w ∨ malloc n = false := by
  have hin := hb.pos
  have hsize := hb.length_lt
  rcases Nat.eq_zero_or_pos n with rfl | hpos
  · refine iff_of_true ((bounded_ok (o := .dup 0) dup_zero).mpr ?_)
      (Or.inl (lt_of_le_of_lt hin hsize))
    exact ⟨0, hin, rfl, fun c _ _ _ => dup_zero⟩
  by_cases hmem : malloc n
  · have hiff : (b.pos + n < 2 ^ w ∨ malloc n = false) ↔ b.pos + n < 2 ^ w :=
      ⟨fun h => h.resolve_right (by simp [hmem]), Or.inl⟩
    rw [hiff]
    by_cases hwrap : b.pos + n < 2 ^ w
    · refine iff_of_true ?_ hwrap
      by_cases hle : b.pos + n ≤ b.length
      · refine (bounded_ok (o := .dup n) (dup_of_le hle hmem hpos.ne' hb)).mpr
          ⟨n, hle, rfl, fun c hc hn hslice => ?_⟩
        rw [← hslice]
        exact dup_of_le hn hmem hpos.ne' hc
      · have hshort : b.length < b.pos + n ∨ malloc n = false := Or.inl (not_le.mp hle)
        obtain ⟨e, hfail⟩ := dup_fails hpos.ne' hwrap hshort
        exact (bounded_error (o := .dup n) hfail).mpr rfl
    · have hback := (add_of_le hb.pos_lt hn (not_lt.mp hwrap)).1
      have hread : Read.run w malloc (.dup n) b =
          (.ok (b.slice n), { b with pos := add w b.pos n }) := by
        rw [Read.run, bufferDup, if_neg hpos.ne', if_neg (by omega), if_pos hmem]
      exact iff_of_false (not_bounded_of_lt hread hback) hwrap
  · have hmem : malloc n = false := Bool.eq_false_of_not_eq_true hmem
    have hfail : ∃ e, Read.run w malloc (.dup n) b = (.error e, b) := by
      rw [Read.run, bufferDup, if_neg hpos.ne', hmem]
      split <;> exact ⟨_, rfl⟩
    obtain ⟨e, hfail⟩ := hfail
    exact iff_of_true ((bounded_error hfail).mpr rfl) (Or.inr hmem)

/-! A string is a size and a copy; an error of the copy does not take back the size. -/

/-- A string without a size before it. -/
lemma string_short (hshort : b.length < b.pos + 4) (hlt : b.pos + 3 < 2 ^ w) :
    Read.run w malloc .string b = (.error .eagain, b) := by
  rw [Read.run, bufferReadString, bufferReadU32, readWord_of_lt hshort hlt]
  rfl

/-- The size of a string. -/
lemma readU32_of_le (hle : b.pos + 4 ≤ b.length) (hb : Valid w b) :
    bufferReadU32 w b = (.ok (UInt32.ofNat (ofBigEndian (b.slice 4))),
      { b with pos := b.pos + 4 }) := by
  rw [bufferReadU32, readWord_of_le hle (by omega) hb.length_lt]
  rfl

/-- Four bytes are a 32-bit size. -/
lemma size_toNat (b : Buffer) :
    (UInt32.ofNat (ofBigEndian (b.slice 4))).toNat = ofBigEndian (b.slice 4) := by
  have hlt := ofBigEndian_lt (b.slice 4)
  have hlen : (b.slice 4).length ≤ 4 := List.length_take_le ..
  have hpow : 256 ^ (b.slice 4).length ≤ 256 ^ 4 := Nat.pow_le_pow_right (by omega) hlen
  exact UInt32.toNat_ofNat_of_lt' (lt_of_lt_of_le hlt hpow)

/-- A string whose size can be read. -/
lemma string_of_le (hle : b.pos + 4 ≤ b.length) (hb : Valid w b) :
    Read.run w malloc .string b =
      if ofBigEndian (b.slice 4) = 0 then (.ok none, { b with pos := b.pos + 4 })
      else
        match bufferDup w malloc (ofBigEndian (b.slice 4)) { b with pos := b.pos + 4 } with
        | (.error e, b'') => (.error e, b'')
        | (.ok data, b'') =>
          (.ok (some (CString.ofBytes (data.set (ofBigEndian (b.slice 4) - 1) 0))), b'') := by
  have hzero : UInt32.ofNat (ofBigEndian (b.slice 4)) = 0 ↔ ofBigEndian (b.slice 4) = 0 := by
    rw [← UInt32.toNat_inj, size_toNat]
    rfl
  rw [Read.run, bufferReadString, readU32_of_le hle hb]
  simp only [hzero, size_toNat]

/-- A string that is announced and there. -/
lemma string_there (hle : b.pos + 4 ≤ b.length) (hb : Valid w b) {n : ℕ}
    (hn : ofBigEndian (b.slice 4) = n)
    (hpos : n ≠ 0) (hin : b.pos + 4 + n ≤ b.length) (hmem : malloc n) :
    Read.run w malloc .string b =
      (.ok (some (CString.ofBytes (((b.slice (4 + n)).drop 4).set (n - 1) 0))),
      { b with pos := b.pos + (4 + n) }) := by
  have hnext : Valid w { b with pos := b.pos + 4 } := ⟨hle, hb.ok, hb.size⟩
  have hslice : Buffer.slice { b with pos := b.pos + 4 } n = (b.slice (4 + n)).drop 4 := by
    rw [Buffer.slice, Buffer.slice, List.drop_take, List.drop_drop, Nat.add_sub_cancel_left]
  rw [string_of_le hle hb, hn, if_neg hpos, dup_of_le hin hmem hpos hnext, hslice, Nat.add_assoc]

/-- The first bytes of a slice. -/
lemma slice_take {k n : ℕ} (h : k ≤ n) : (b.slice n).take k = b.slice k := by
  rw [Buffer.slice, Buffer.slice, List.take_take, Nat.min_eq_left h]

/-- A string that is read consumes at least its size. -/
lemma string_consumes (hw : 32 ≤ w) (hb : Valid w b) {v : Option CString}
    (hrun : Read.run w malloc .string b = (.ok v, b')) (hbounded : Bounded w malloc .string b) :
    b.pos + 4 ≤ b'.pos ∧ b'.pos ≤ b.length := by
  obtain ⟨m, hm, rfl, hdepends⟩ := (bounded_ok hrun).mp hbounded
  refine ⟨Nat.add_le_add_left (not_lt.mp fun hm4 => ?_) _, hm⟩
  -- a buffer that has only the consumed bytes has no size
  have hword : (2 : ℕ) ^ 32 ≤ 2 ^ w := Nat.pow_le_pow_right (by omega) hw
  have hlen : (b.slice m).length = m := by
    have hok : b.length ≤ b.data.length := hb.ok
    rw [Buffer.slice, List.length_take, List.length_drop]
    omega
  have hc : Valid w ⟨b.slice m, m, 0⟩ := by
    refine ⟨Nat.zero_le m, hlen.ge, ?_⟩
    rw [Buffer.size, hlen]
    omega
  have hshort : Read.run w malloc .string ⟨b.slice m, m, 0⟩ = (.error .eagain, ⟨b.slice m, m, 0⟩) :=
    string_short (by simpa using hm4) (by simp only [Nat.zero_add]; omega)
  have hsame := hdepends ⟨b.slice m, m, 0⟩ hc (by simp) (by simp [Buffer.slice])
  rw [hshort] at hsame
  cases hsame

/-- A string whose size is read behind the content. -/
lemma not_bounded_string (hw : 32 ≤ w) (hb : Valid w b) (hwrap : 2 ^ w ≤ b.pos + 3) :
    ¬Bounded w malloc .string b := by
  intro hbounded
  have hword : (2 : ℕ) ^ 32 ≤ 2 ^ w := Nat.pow_le_pow_right (by omega) hw
  have hin := hb.pos
  have hsize := hb.length_lt
  have hback := (add_of_le (n := 3) hb.pos_lt (by omega) hwrap).1
  have hback4 := (add_of_le (n := 4) hb.pos_lt (by omega) (by omega)).1
  have hread : ∃ size, bufferReadU32 w b = (.ok size, { b with pos := add w b.pos 4 }) := by
    have hpasses : ¬b.length ≤ add w b.pos (4 - 1) := Nat.not_le.mpr (lt_of_lt_of_le hback hin)
    rw [bufferReadU32, bufferReadWord, if_neg hpasses]
    exact ⟨_, rfl⟩
  obtain ⟨size, hread⟩ := hread
  have hrun : Read.run w malloc .string b = bufferReadString w malloc b := rfl
  rw [bufferReadString, hread] at hrun
  by_cases hzero : size = 0
  · simp only [hzero, if_true] at hrun
    have hpast : b.pos + 4 ≤ add w b.pos 4 := (string_consumes hw hb hrun hbounded).1
    omega
  simp only [hzero, if_false] at hrun
  rcases hdup : bufferDup w malloc size.toNat { b with pos := add w b.pos 4 } with ⟨e | data, b'⟩
  · rw [hdup] at hrun
    have hstill : add w b.pos 4 = b.pos := by
      have h := (bounded_error hrun).mp hbounded
      rw [dup_error hdup] at h
      exact congrArg Buffer.pos h
    omega
  · rw [hdup] at hrun
    obtain ⟨hpast, hinside⟩ := string_consumes hw hb hrun hbounded
    omega

lemma bounded_string_iff (hw : 32 ≤ w) (hb : Valid w b) :
    Bounded w malloc .string b ↔ Right w malloc .string b := by
  have hsize := hb.length_lt
  have hword : (2 : ℕ) ^ 32 ≤ 2 ^ w := Nat.pow_le_pow_right (by omega) hw
  by_cases hwrap : b.pos + 3 < 2 ^ w
  swap
  · exact iff_of_false (not_bounded_string hw hb (not_lt.mp hwrap)) fun h => hwrap h.1
  by_cases hle : b.pos + 4 ≤ b.length
  swap
  · exact iff_of_true ((bounded_error (string_short (not_le.mp hle) hwrap)).mpr rfl)
      ⟨hwrap, fun h => absurd h hle⟩
  have hread := @string_of_le w malloc b hle hb
  have hright : Right w malloc .string b ↔ ofBigEndian (b.slice 4) = 0 ∨
      b.pos + 4 + ofBigEndian (b.slice 4) ≤ b.length ∧ malloc (ofBigEndian (b.slice 4)) :=
    ⟨fun h => h.2 hle, fun h => ⟨hwrap, fun _ => h⟩⟩
  have hlt : ofBigEndian (b.slice 4) < 2 ^ 32 := by
    rw [← size_toNat]
    exact UInt32.toNat_lt _
  rw [hright]
  generalize hn : ofBigEndian (b.slice 4) = n at hread hlt ⊢
  rcases Nat.eq_zero_or_pos n with rfl | hpos
  · rw [if_pos rfl] at hread
    refine iff_of_true ((bounded_ok hread).mpr ⟨4, hle, rfl, fun c hc hfits hslice => ?_⟩)
      (Or.inl rfl)
    rw [string_of_le hfits hc, hslice, hn, if_pos rfl]
  have hnz : n ≠ 0 := hpos.ne'
  rw [if_neg hnz] at hread
  rw [or_iff_right hnz]
  by_cases hthere : b.pos + 4 + n ≤ b.length ∧ malloc n
  · obtain ⟨hfits, hmem⟩ := hthere
    refine iff_of_true ((bounded_ok (string_there hle hb hn hnz hfits hmem)).mpr ?_) ⟨hfits, hmem⟩
    refine ⟨4 + n, by omega, rfl, fun c hc hcfits hslice => ?_⟩
    have hcn : ofBigEndian (c.slice 4) = n := by
      rw [← slice_take (b := c) (Nat.le_add_right 4 n), hslice,
        slice_take (Nat.le_add_right 4 n), hn]
    rw [string_there (by omega) hc hcn hnz (by omega) hmem, hslice]
  · refine iff_of_false (fun hbounded => ?_) hthere
    rcases hdup : bufferDup w malloc n { b with pos := b.pos + 4 } with ⟨e | data, b'⟩
    · -- the copy fails, and the size is consumed
      rw [hdup] at hread
      have hstill : b.pos + 4 = b.pos := by
        have h := (bounded_error hread).mp hbounded
        rw [dup_error hdup] at h
        exact congrArg Buffer.pos h
      omega
    · -- the sum wraps, and the copy starts again near the beginning
      rw [hdup] at hread
      obtain ⟨hnext, hpast, hmem⟩ := dup_ok hdup hnz
      simp only at hnext hpast
      obtain ⟨hconsumed, -⟩ := string_consumes hw hb hread hbounded
      have hover : 2 ^ w ≤ b.pos + 4 + n := by
        by_contra hno
        rw [add_of_lt (not_le.mp hno)] at hpast
        exact hthere ⟨hpast, hmem⟩
      have hback := (add_of_le (a := b.pos + 4) (by omega) (lt_of_lt_of_le hlt hword) hover).1
      omega

/-- A read is bounded exactly if its bound is the right one. -/
lemma bounded_iff_right (hw : 32 ≤ w) (hb : Valid w b) (ho : o.Fits w) : Bounded w malloc o b ↔
    Right w malloc o b := by
  have hword : (2 : ℕ) ^ 32 ≤ 2 ^ w := Nat.pow_le_pow_right (by omega) hw
  have hin := hb.pos
  have hsize := hb.length_lt
  have hlength : ∀ c : Buffer, Valid w c → c.length ≤ c.length ∧ c.length ≤ c.size :=
    fun c hc => ⟨le_rfl, hc.ok⟩
  have hblock : ∀ c : Buffer, Valid w c → c.length ≤ c.size ∧ c.size ≤ c.size :=
    fun c hc => ⟨hc.ok, le_rfl⟩
  have hcontent : ∀ k, (b.pos + k ≤ b.length ∨ b.length < b.pos + k) := fun k => le_or_gt _ _
  cases o with
  | u8 =>
    rw [bounded_word_iff (k := 1) (fun _ => rfl) hlength (by omega) (by omega) hb]
    exact iff_of_true ⟨lt_of_le_of_lt hin hsize, hcontent 1⟩ trivial
  | u16 =>
    rw [bounded_word_iff (k := 2) (fun _ => rfl) hlength (by omega) (by omega) hb]
    exact and_iff_left (hcontent 2)
  | u32 | f32 =>
    rw [bounded_word_iff (k := 4) (fun _ => rfl) hlength (by omega) (by omega) hb]
    exact and_iff_left (hcontent 4)
  | u64 | f64 => exact bounded_word_iff (k := 8) (fun _ => rfl) hblock (by omega) (by omega) hb
  | string => exact bounded_string_iff hw hb
  | dup n => exact bounded_dup_iff ho hb
  | incReadPosition n => exact bounded_inc_iff ho hb

end Reads

/-! ## Sequences of reads -/

/-- Perform a read. -/
def step (w : ℕ) (malloc : ℕ → Bool) (b : Buffer) (o : Read) : Option Buffer :=
  some (o.run w malloc b).2

/-- In every sequence of reads on a buffer whose read position lies in the content, each read is
bounded and leaves the read position in the content, exactly if the bound of each read is the right
one in the state in which it is made. -/
theorem reads_bounded {w : ℕ} (hw : 32 ≤ w) (malloc : ℕ → Bool) {b : Buffer} (hb : Valid w b)
    {ops : List Read} (hops : ∀ o ∈ ops, o.Fits w) :
    MeetsAll (step w malloc)
        (fun b o => Bounded w malloc o b ∧
          (o.run w malloc b).2.pos ≤ (o.run w malloc b).2.length) ops b ↔
      MeetsAll (step w malloc) (fun b o => Right w malloc o b) ops b := by
  induction ops generalizing b with
  | nil => exact Iff.rfl
  | cons o ops ih =>
    have hiff : Bounded w malloc o b ↔ Right w malloc o b :=
      bounded_iff_right hw hb (hops o List.mem_cons_self)
    have hrest := fun o' ho' => hops o' (List.mem_cons_of_mem o ho')
    constructor
    · rintro ⟨⟨hbounded, -⟩, hnext⟩
      refine ⟨hiff.mp hbounded, fun b' hb' => ?_⟩
      cases hb'
      exact (ih (hbounded.valid hb) hrest).mp (hnext _ rfl)
    · rintro ⟨hright, hnext⟩
      have hbounded := hiff.mpr hright
      have hvalid := hbounded.valid hb
      refine ⟨⟨hbounded, hvalid.pos⟩, fun b' hb' => ?_⟩
      cases hb'
      exact (ih hvalid hrest).mpr (hnext _ rfl)

/-- A string of two bytes, a byte and a byte that is not there. -/
theorem reads_bounded_string :
    MeetsAll (step 64 fun _ => true)
      (fun b o => Bounded 64 (fun _ => true) o b ∧ (o.run 64 (fun _ => true) b).2.pos ≤
        (o.run 64 (fun _ => true) b).2.length)
      [.string, .u8, .u8] ⟨[0, 0, 0, 2, 65, 0, 7], 7, 0⟩ := by
  refine (reads_bounded (by decide) _ ⟨by decide, by decide, by decide⟩ ?_).mpr ?_
  · simp [Read.Fits]
  · refine ⟨⟨by decide, fun _ => Or.inr (by decide)⟩, fun _ hstep => ?_⟩
    cases hstep
    exact ⟨trivial, fun _ hstep => ⟨trivial, fun _ _ => trivial⟩⟩

/-- A 64-bit word is read past the content, and a string that is not there consumes its size. -/
theorem reads_not_bounded :
    (Valid 64 ⟨List.replicate 16 7, 4, 0⟩ ∧
      ¬Bounded 64 (fun _ => true) .u64 ⟨List.replicate 16 7, 4, 0⟩) ∧
      (Valid 64 ⟨[0, 0, 0, 9, 65], 5, 0⟩ ∧
        ¬Bounded 64 (fun _ => true) .string ⟨[0, 0, 0, 9, 65], 5, 0⟩) := by
  have hword : Valid 64 ⟨List.replicate 16 7, 4, 0⟩ := ⟨by decide, by decide, by decide⟩
  have hstring : Valid 64 ⟨[0, 0, 0, 9, 65], 5, 0⟩ := ⟨by decide, by decide, by decide⟩
  refine ⟨⟨hword, fun h => ?_⟩, hstring, fun h => ?_⟩
  · exact absurd ((bounded_iff_right (o := .u64) (by decide) hword trivial).mp h).2 (by decide)
  · exact absurd (((bounded_iff_right (o := .string) (by decide) hstring trivial).mp h).2
      (by decide)) (by decide)

end SizeT

end Obus
