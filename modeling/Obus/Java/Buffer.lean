import Obus.Lib.BigEndian
import Obus.Lib.Fallible

/-!
# The buffers of the Java library

`Buffer.java`, a wrapper of a byte buffer.  A buffer that is read is its bytes and a position
(`RxBuffer`), one that is written is the bytes that have been put and the capacity that is allocated
(`TxBuffer`).  An `int` is a word of 32 bits, and a `long` one of 64; a `float` and a `double` are
only moved around, and stand for their bits.  The default charset of the platform, which strings are
converted with, is a parameter (`Charset`).  Memory is never short.

What a reader makes of bytes, wherever these stand in a buffer, is `Yields`; it fails on them with
`Rejects`.
-/

namespace Obus.Java

open Fallible

/-- A string, as UTF-16 code units. -/
abbrev JString := List UInt16

/-- The default charset: `String.getBytes`, and the constructor of strings from bytes. -/
structure Charset where
  getBytes : JString → List UInt8
  newString : List UInt8 → JString

/-- What a `DecodeError` says, with the values that are in its message. -/
inductive DecodeError where
  | stringTooBig (size : ℤ)
  | unknownFieldType (type : ℕ)
  | invalidEnum (val : ℤ)
  | invalidConnectionResponse (val : ℤ)
  | invalidCallAck (val : ℤ)
  | descriptorNotFound (uid : BitVec 32)
  | notRegistered (uid handle : BitVec 32)
  | badInternalUid (uid handle internal : BitVec 32)
  | nothingDecoded

/-- The exceptions. -/
inductive Exc where
  | decodeError (e : DecodeError)
  | bufferUnderflow
  | bufferOverflow
  | illegalArgument
  | negativeArraySize
  | arrayStore
  | classCast
  | nullPointer

/-! ## Reading -/

/-- A buffer that is read, up to the end of its bytes. -/
structure RxBuffer where
  data : List UInt8
  pos : ℕ

/-- A reader. -/
abbrev Read (α : Type) := Fallible RxBuffer Exc α

/-- The `get` of a byte buffer, of `n` bytes. -/
def get (n : ℕ) : Read (List UInt8) := fun b =>
  if b.pos + n ≤ b.data.length then .ok ((b.data.drop b.pos).take n, { b with pos := b.pos + n })
  else .error .bufferUnderflow

/-- `getPos`. -/
def getPos : Read ℕ := fun b => .ok (b.pos, b)

/-- `setPos`. -/
def setPos (pos : ℤ) : Read Unit := fun b =>
  if 0 ≤ pos ∧ pos ≤ b.data.length then .ok ((), { b with pos := pos.toNat })
    else .error .illegalArgument

/-- `get`, `getShort` and `getInt`: `k` bytes as a signed number. -/
def getInt (k : ℕ) : Read (BitVec 32) :=
  (fun bs => (BitVec.ofNat (8 * k) (ofBigEndian bs)).signExtend 32) <$> get k

/-- `getLong`. -/
def getLong : Read (BitVec 64) := (fun bs => BitVec.ofNat 64 (ofBigEndian bs)) <$> get 8

/-- `readU8`. -/
def readU8 : Read (BitVec 32) := (fun val => if 0 ≤ val.toInt then val else val + 256) <$> getInt 1

/-- `readI8`. -/
def readI8 : Read (BitVec 32) := getInt 1

/-- `readU16`. -/
def readU16 : Read (BitVec 32) :=
  (fun val => if 0 ≤ val.toInt then val else val + 65536) <$> getInt 2

/-- `readI16`. -/
def readI16 : Read (BitVec 32) := getInt 2

/-- `readU32`. -/
def readU32 : Read (BitVec 32) := getInt 4

/-- `readI32`. -/
def readI32 : Read (BitVec 32) := getInt 4

/-- `readU64`. -/
def readU64 : Read (BitVec 64) := getLong

/-- `readI64`. -/
def readI64 : Read (BitVec 64) := getLong

/-- `readF32`. -/
def readF32 : Read (BitVec 32) := getInt 4

/-- `readF64`. -/
def readF64 : Read (BitVec 64) := getLong

/-- The allocation of an array; the number of its entries. -/
def newArray (count : BitVec 32) : Read ℕ :=
  if count.toInt < 0 then fail .negativeArraySize else pure count.toNat

/-- `readString`. -/
def readString (cs : Charset) : Read (Option JString) := do
  let size ← getInt 4
  if 65536 ≤ size.toInt then fail (.decodeError (.stringTooBig size.toInt))
  else if size = 0 then pure none
  else
    let n ← newArray (size - 1)
    let buf ← get n
    let _ ← get 1
    pure (some (cs.newString buf))

/-! ## Writing -/

/-- `ALLOC_STEP`. -/
def allocStep : ℕ := 1024

/-- A buffer that is written: the bytes up to its position, and its capacity, which is an `int`. -/
structure TxBuffer where
  bytes : List UInt8
  capacity : ℕ
  room : bytes.length ≤ capacity
  small : capacity < 2 ^ 31

/-- A writer. -/
abbrev Write := Fallible TxBuffer Exc Unit

/-- The constructor `Buffer`. -/
def TxBuffer.new : TxBuffer := ⟨[], allocStep, Nat.zero_le _, by decide⟩

/-- `ensureSize`.  The sum of the capacity and the step overflows to a negative number, which is
refused. -/
def ensureSize (size : ℤ) : Write := fun b =>
  if (b.capacity : ℤ) - b.bytes.length < size then
    if h : b.capacity + (max size allocStep).toNat < 2 ^ 31 then
      .ok ((), ⟨b.bytes, b.capacity + (max size allocStep).toNat,
        b.room.trans (Nat.le_add_right _ _), h⟩)
    else .error .illegalArgument
  else .ok ((), b)

/-- The `put` of a byte buffer. -/
def put (bs : List UInt8) : Write := fun b =>
  if h : b.bytes.length + bs.length ≤ b.capacity then
    .ok ((), ⟨b.bytes ++ bs, b.capacity, by rwa [List.length_append], b.small⟩)
  else .error .bufferOverflow

/-- The common shape of the writers. -/
def write (bs : List UInt8) : Write := do
  ensureSize bs.length
  put bs

/-- `writeU8`. -/
def writeU8 (val : BitVec 32) : Write := write (bigEndian 1 val.toNat)

/-- `writeI8`. -/
def writeI8 (val : BitVec 32) : Write := write (bigEndian 1 val.toNat)

/-- `writeU16`. -/
def writeU16 (val : BitVec 32) : Write := write (bigEndian 2 val.toNat)

/-- `writeI16`. -/
def writeI16 (val : BitVec 32) : Write := write (bigEndian 2 val.toNat)

/-- `writeU32`. -/
def writeU32 (val : BitVec 32) : Write := write (bigEndian 4 val.toNat)

/-- `writeI32`. -/
def writeI32 (val : BitVec 32) : Write := write (bigEndian 4 val.toNat)

/-- `writeU64`. -/
def writeU64 (val : BitVec 64) : Write := write (bigEndian 8 val.toNat)

/-- `writeI64`. -/
def writeI64 (val : BitVec 64) : Write := write (bigEndian 8 val.toNat)

/-- `writeF32`. -/
def writeF32 (val : BitVec 32) : Write := write (bigEndian 4 val.toNat)

/-- `writeF64`. -/
def writeF64 (val : BitVec 64) : Write := write (bigEndian 8 val.toNat)

/-- `writeString`.  The size is computed in an `int`. -/
def writeString (cs : Charset) : Option JString → Write
  | none => write (bigEndian 4 0)
  | some string => do
    let buf := cs.getBytes string
    ensureSize ((4 + buf.length + 1 : ℤ).bmod (2 ^ 32))
    put (bigEndian 4 (buf.length + 1))
    put buf
    put [0]

end Obus.Java
