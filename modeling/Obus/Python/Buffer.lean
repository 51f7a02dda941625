import Obus.Lib.BigEndian
import Obus.Lib.Cursor

/-!
# The buffer of the Python library

The buffer of `buffer.py`, a file in memory whose position moves with every read and write.  Numbers
are big-endian and go through `struct`, which refuses those that are out of range, and blocks that
are too short.

Values are those of Python that a field may hold (`Value`).  Numbers are integers of any size,
strings are byte strings or strings of characters, and floats are doubles by their bits.  The
conversions between floats of both sizes and integers are those of the processor, and are given
(`Floats`).
-/

namespace Obus.Python

open Fallible Cursor

/-! ## Values and exceptions -/

/-- A value of Python. -/
inductive Value where
  | none
  | bool (b : Bool)
  | int (n : ℤ)
  | float (bits : UInt64)
  | str (s : List UInt8)
  | unicode (s : List UInt32)
  | list (l : List Value)

/-- The reasons of a `DecodeError`. -/
inductive DecodeError where
  | invalidEnum (value : ℤ)
  | descriptorNotFound (uid : ℕ)
  | notRegistered (uid handle : ℕ)
  | badInternalUid (uid handle internal : ℕ)
  | invalidStatus (status : ℕ)
  | invalidCallAck (status : ℕ)
  | nothingDecoded
  deriving DecidableEq

/-- The exceptions that are raised. -/
inductive Exc where
  | decodeError (e : DecodeError)
  | structError
  | overflowError
  | typeError
  | keyError
  | valueError
  | unicodeEncodeError
  | attributeError
  | exception
  deriving DecidableEq

/-- The conversions of floats: from and to those of 32 bits, from an integer, and to the integer
that is left when the fraction is cut off.  Some numbers are too large for them. -/
structure Floats where
  widen : UInt32 → UInt64
  narrow : UInt64 → Option UInt32
  ofInt : ℤ → Option UInt64
  trunc : UInt64 → Option ℤ

/-- `str` of a string of characters: their bytes, if all of them are in ASCII. -/
def asciiBytes (s : List UInt32) : Option (List UInt8) :=
  if s.all fun c => c < 128 then some (s.map UInt32.toUInt8) else none

/-- Programs on a buffer that may raise an exception. -/
abbrev Py := Fallible Cursor Exc

/-! ## Numbers -/

/-- The number that two's complement bytes denote. -/
def toSigned (k n : ℕ) : ℤ := if 2 * n < 256 ^ k then n else n - 256 ^ k

/-- `struct.unpack` of a number of `k` bytes, which are read first. -/
def unpack (k : ℕ) : Py ℕ := do
  let bs ← read k
  if bs.length = k then pure (ofBigEndian bs) else fail .structError

/-- The same for a signed number. -/
def unpackSigned (k : ℕ) : Py ℤ := toSigned k <$> unpack k

/-- The integer that `struct.pack` takes a value for. -/
def packInt (fl : Floats) : Value → Except Exc ℤ
  | .bool b => .ok b.toNat
  | .int n => .ok n
  | .float bits =>
    match fl.trunc bits with
    | some n => .ok n
    | none => .error .overflowError
  | .none | .str _ | .unicode _ | .list _ => .error .structError

/-- The float that `struct.pack` takes a value for. -/
def packFloat (fl : Floats) : Value → Except Exc UInt64
  | .bool b => ofInt b.toNat
  | .int n => ofInt n
  | .float bits => .ok bits
  | .none | .str _ | .unicode _ | .list _ => .error .structError
where
  ofInt (n : ℤ) : Except Exc UInt64 :=
    match fl.ofInt n with
    | some bits => .ok bits
    | none => .error .overflowError

/-- Raise the exception of a computation without a buffer. -/
def lift {α : Type} : Except Exc α → Py α
  | .ok a => pure a
  | .error e => fail e

/-- `struct.pack` of an integer of `k` bytes, which are then written. -/
def pack (k : ℕ) (n : ℤ) : Py Unit :=
  if 0 ≤ n ∧ n < 256 ^ k then write (bigEndian k n.toNat) else fail .structError

/-- The same for a signed integer. -/
def packSigned (k : ℕ) (n : ℤ) : Py Unit :=
  if -(256 ^ k) ≤ 2 * n ∧ 2 * n < 256 ^ k then write (bigEndian k (n % 256 ^ k).toNat)
    else fail .structError

/-! ## The methods of `Buffer` -/

def readU8 : Py ℕ := unpack 1
def readI8 : Py ℤ := unpackSigned 1
def readU16 : Py ℕ := unpack 2
def readI16 : Py ℤ := unpackSigned 2
def readU32 : Py ℕ := unpack 4
def readI32 : Py ℤ := unpackSigned 4
def readU64 : Py ℕ := unpack 8
def readI64 : Py ℤ := unpackSigned 8
def readF32 (fl : Floats) : Py UInt64 := (fun n => fl.widen (UInt32.ofNat n)) <$> unpack 4
def readF64 : Py UInt64 := UInt64.ofNat <$> unpack 8

/-- `readString`: the bytes but for the last one, or `None`. -/
def readString : Py Value := do
  let size ← readU32
  if 0 < size then do
    let bs ← read size
    if bs.length = size then pure (.str bs.dropLast) else fail .structError
  else pure .none

def writeU8 (n : ℤ) : Py Unit := pack 1 n
def writeI8 (n : ℤ) : Py Unit := packSigned 1 n
def writeU16 (n : ℤ) : Py Unit := pack 2 n
def writeI16 (n : ℤ) : Py Unit := packSigned 2 n
def writeU32 (n : ℤ) : Py Unit := pack 4 n
def writeI32 (n : ℤ) : Py Unit := packSigned 4 n
def writeU64 (n : ℤ) : Py Unit := pack 8 n
def writeI64 (n : ℤ) : Py Unit := packSigned 8 n

def writeF32 (fl : Floats) (bits : UInt64) : Py Unit :=
  match fl.narrow bits with
  | some bits => write (bigEndian 4 bits.toNat)
  | none => fail .overflowError

def writeF64 (bits : UInt64) : Py Unit := write (bigEndian 8 bits.toNat)

/-- The number of bytes with the one at the end, the string and a zero. -/
def writeText (s : List UInt8) : Py Unit :=
  if s.length + 1 < 256 ^ 4 then write (bigEndian 4 (s.length + 1) ++ (s ++ [0]))
    else fail .structError

/-- `writeString`: a string of characters is made a byte string first.  Only a list and a string
have a length. -/
def writeString : Value → Py Unit
  | .none => writeU32 0
  | .str s => writeText s
  | .unicode s =>
    match asciiBytes s with
    | some s => writeText s
    | none => fail .unicodeEncodeError
  | .list _ => fail .structError
  | .bool _ | .int _ | .float _ => fail .typeError

/-- `prepareSizeMarker`. -/
def prepareSizeMarker : Py ℕ := do
  let curPos ← tell
  writeU32 0
  pure curPos

/-- `writeSizeMarker`. -/
def writeSizeMarker (marker : ℕ) : Py Unit := do
  let curPos ← tell
  seek marker
  writeU32 (curPos - marker - 4)
  seek curPos

/-! ## What is read -/

lemma takes_unpack {k n : ℕ} (hn : n < 256 ^ k) : Takes (unpack k) (bigEndian k n) n := by
  have hread := takes_read (ε := Exc) (bigEndian k n)
  rw [bigEndian_length] at hread
  refine hread.bind_nil ?_
  rw [if_pos (bigEndian_length k n), ofBigEndian_bigEndian_of_lt hn]
  exact takes_pure

lemma takes_unpackSigned {k n : ℕ} (hn : n < 256 ^ k) :
    Takes (unpackSigned k) (bigEndian k n) (toSigned k n) :=
  (takes_unpack hn).map

lemma takes_readU8 (u : UInt8) : Takes readU8 (bigEndian 1 u.toNat) u.toNat :=
  takes_unpack u.toNat_lt

lemma takes_readU16 (u : UInt16) : Takes readU16 (bigEndian 2 u.toNat) u.toNat :=
  takes_unpack u.toNat_lt

lemma takes_readU32 (u : UInt32) : Takes readU32 (bigEndian 4 u.toNat) u.toNat :=
  takes_unpack u.toNat_lt

lemma takes_readU64 (u : UInt64) : Takes readU64 (bigEndian 8 u.toNat) u.toNat :=
  takes_unpack u.toNat_lt

/-- A block with its size in front. -/
lemma takes_readString {bs : List UInt8} (h : bs.length < 256 ^ 4) :
    Takes readString (bigEndian 4 bs.length ++ bs)
      (if bs = [] then .none else .str bs.dropLast) := by
  refine (takes_unpack h).bind ?_
  by_cases hnil : bs = []
  · subst hnil
    exact takes_pure
  · rw [if_neg hnil, if_pos (List.length_pos_iff.mpr hnil)]
    refine (takes_read bs).bind_nil ?_
    rw [if_pos rfl]
    exact takes_pure

lemma toSigned_eq_toInt8 (u : UInt8) : toSigned 1 u.toNat = u.toBitVec.toInt := by
  unfold toSigned
  rw [BitVec.toInt]
  rfl

lemma toSigned_eq_toInt16 (u : UInt16) : toSigned 2 u.toNat = u.toBitVec.toInt := by
  unfold toSigned
  rw [BitVec.toInt]
  rfl

lemma toSigned_eq_toInt32 (u : UInt32) : toSigned 4 u.toNat = u.toBitVec.toInt := by
  unfold toSigned
  rw [BitVec.toInt]
  rfl

lemma toSigned_eq_toInt64 (u : UInt64) : toSigned 8 u.toNat = u.toBitVec.toInt := by
  unfold toSigned
  rw [BitVec.toInt]
  rfl

end Obus.Python
