import Obus.Lib.BigEndian
import Obus.Lib.Prog
import Mathlib.Data.List.TakeWhile

/-!
# Buffers

The memory buffer of `obus_buffer.h`: an allocated block of bytes, the length of its valid content
and the current read position.  The read primitives are functions of the buffer that only move the
read position; the write primitives may grow the block with `realloc`, whose outcome is a parameter.

The encoders and decoders of the library reach a buffer only through these primitives, so they are
written as programs over the interfaces `ReadOp` and `WriteOp` (`Dec` and `Enc`).
-/

namespace Obus

/-- The error codes that the library returns as `-errno`. -/
inductive Errno where
  | eperm | enoent | eio | eagain | enomem | efault | eexist | enodev | einval
  deriving DecidableEq, Repr

/-- A buffer: the allocated bytes `data` (their number is the `size` of the source), the number
`length` of valid ones and the read position `pos`. -/
structure Buffer where
  data : List UInt8
  length : ℕ
  pos : ℕ
  deriving DecidableEq, Repr

namespace Buffer

/-- The allocated size of the buffer. -/
def size (b : Buffer) : ℕ := b.data.length

/-- The valid bytes of the buffer. -/
def content (b : Buffer) : List UInt8 := b.data.take b.length

/-- The valid content lies inside the allocated block. -/
def Ok (b : Buffer) : Prop := b.length ≤ b.size

instance (b : Buffer) : Decidable b.Ok := inferInstanceAs (Decidable (b.length ≤ b.size))

/-- The `n` bytes at the read position. -/
def slice (b : Buffer) (n : ℕ) : List UInt8 := (b.data.drop b.pos).take n

/-- Store bytes at an offset of the block. -/
def store (b : Buffer) (offset : ℕ) (bs : List UInt8) : Buffer :=
  { b with data := b.data.take offset ++ bs ++ b.data.drop (offset + bs.length) }

lemma content_length {b : Buffer} (hb : b.Ok) : b.content.length = b.length :=
  List.length_take_of_le hb

end Buffer

/-! ## Read primitives -/

/-- `obus_buffer_clear`: forget the content; the read position is left where it is. -/
def bufferClear (b : Buffer) : Buffer := { b with length := 0 }

/-- `obus_buffer_read_length`. -/
def bufferReadLength (b : Buffer) : ℕ := if b.pos < b.length then b.length - b.pos else 0

/-- `obus_buffer_set_read_position`. -/
def bufferSetReadPosition (pos : ℕ) (b : Buffer) : Except Errno Unit × Buffer :=
  if b.length < pos then (.error .einval, b) else (.ok (), { b with pos := pos })

/-- `obus_buffer_inc_read_position`. -/
def bufferIncReadPosition (value : ℕ) (b : Buffer) : Except Errno Unit × Buffer :=
  if b.length < value + b.pos then (.error .einval, b)
  else (.ok (), { b with pos := b.pos + value })

/-- The common shape of the word reads: `k` big-endian bytes at the read position, refused with `e`
when they reach past `limit`. -/
def bufferReadWord (limit k : ℕ) (e : Errno) (b : Buffer) : Except Errno ℕ × Buffer :=
  if limit < b.pos + k then (.error e, b)
  else (.ok (ofBigEndian (b.slice k)), { b with pos := b.pos + k })

/-- `obus_buffer_read_u8`. -/
def bufferReadU8 (b : Buffer) : Except Errno UInt8 × Buffer :=
  (bufferReadWord b.length 1 .eagain b).map (Except.map UInt8.ofNat) id

/-- `obus_buffer_read_u16`. -/
def bufferReadU16 (b : Buffer) : Except Errno UInt16 × Buffer :=
  (bufferReadWord b.length 2 .einval b).map (Except.map UInt16.ofNat) id

/-- `obus_buffer_read_u32`. -/
def bufferReadU32 (b : Buffer) : Except Errno UInt32 × Buffer :=
  (bufferReadWord b.length 4 .eagain b).map (Except.map UInt32.ofNat) id

/-- `obus_buffer_read_u64`.  Unlike its siblings it compares with the allocated size of the block
and not with the length of its content. -/
def bufferReadU64 (b : Buffer) : Except Errno UInt64 × Buffer :=
  (bufferReadWord b.size 8 .einval b).map (Except.map UInt64.ofNat) id

/-- `obus_buffer_dup`: copy `size` bytes out of the buffer. -/
def bufferDup (size : ℕ) (b : Buffer) : Except Errno (List UInt8) × Buffer :=
  if size = 0 then (.ok [], b)
  else if b.length < b.pos + size then (.error .eagain, b)
  else (.ok (b.slice size), { b with pos := b.pos + size })

/-- `obus_buffer_remove_first`: drop bytes at the front and slide the rest down.  When everything
is dropped the read position is not touched. -/
def bufferRemoveFirst (size : ℕ) (b : Buffer) : Buffer :=
  if size = 0 ∨ b.length = 0 then b
  else if b.length ≤ size then { b with length := 0 }
  else
    { data := (b.data.drop size).take (b.length - size) ++ b.data.drop (b.length - size)
      length := b.length - size
      pos := if size < b.pos then b.pos - size else 0 }

/-! ## Write primitives -/

/-- The outcomes of `realloc`: for each requested size either a failure or the bytes that the block
holds beyond its old content.  Within one encoding the requested sizes increase, so a function of
the size describes every pattern of failures. -/
abbrev Realloc := ℕ → Option (ℕ → UInt8)

/-- `obus_buffer_ensure_realloc`. -/
def bufferEnsureRealloc (mem : Realloc) (size : ℕ) (b : Buffer) : Except Errno Unit × Buffer :=
  if b.size < size then
    match mem size with
    | none => (.error .enomem, b)
    | some fill =>
      (.ok (),
        { b with data := b.data ++ (List.range (size - b.size)).map fun i => fill (b.size + i) })
  else (.ok (), b)

/-- `obus_buffer_reserve`. -/
def bufferReserve (mem : Realloc) (length : ℕ) (b : Buffer) : Except Errno Unit × Buffer :=
  match bufferEnsureRealloc mem (b.length + length) b with
  | (.error e, b') => (.error e, b')
  | (.ok (), b') => (.ok (), { b' with length := b'.length + length })

/-- `obus_buffer_append`, also the common shape of `obus_buffer_append_u8` to
`obus_buffer_append_u64`: make room and store the bytes behind the content. -/
def bufferAppend (mem : Realloc) (bs : List UInt8) (b : Buffer) : Except Errno Unit × Buffer :=
  match bufferEnsureRealloc mem (b.length + bs.length) b with
  | (.error e, b') => (.error e, b')
  | (.ok (), b') => (.ok (), { b'.store b'.length bs with length := b'.length + bs.length })

/-- The common shape of `obus_buffer_write_u8` and `obus_buffer_write_u32`: store at an offset,
without moving the end of the content. -/
def bufferWriteAt (mem : Realloc) (bs : List UInt8) (offset : ℕ) (b : Buffer) :
    Except Errno Unit × Buffer :=
  match bufferEnsureRealloc mem (offset + bs.length) b with
  | (.error e, b') => (.error e, b')
  | (.ok (), b') => (.ok (), b'.store offset bs)

/-- A C string: bytes without a NUL among them. -/
abbrev CString := { s : List UInt8 // (0 : UInt8) ∉ s }

/-- The C string that a block of memory holds: the bytes before the first NUL. -/
def CString.ofBytes (bs : List UInt8) : CString :=
  ⟨bs.takeWhile (· ≠ 0), fun h => by simpa using List.mem_takeWhile_imp h⟩

/-- The bytes of a C string in memory, its final NUL included; an absent string has none. -/
def CString.memory : Option CString → List UInt8
  | none => []
  | some s => s.val ++ [0]

/-- `obus_buffer_append_string`: the size with the final NUL, in 32 bits, then that many bytes of
the string; an absent string has size 0. -/
def bufferAppendString (mem : Realloc) (str : Option CString) (b : Buffer) :
    Except Errno Unit × Buffer :=
  let bytes := CString.memory str
  let size := UInt32.ofNat bytes.length
  match bufferEnsureRealloc mem (b.length + (size + 4).toNat) b with
  | (.error e, b') => (.error e, b')
  | (.ok (), b') =>
    let (ret, b'') := bufferAppend mem (bigEndian 4 size.toNat) b'
    if 0 < size then
      let (ret', b₃) := bufferAppend mem (bytes.take size.toNat) b''
      (ret.bind fun _ => ret', b₃)
    else (ret, b'')

/-! ## The two interfaces -/

/-- The primitives that decoding uses. -/
inductive ReadOp where
  | u8 | u16 | u32 | u64
  | dup (size : ℕ)
  | getReadPosition
  | setReadPosition (pos : ℕ)
  | incReadPosition (value : ℕ)

/-- What a read primitive returns. -/
abbrev ReadOp.Out : ReadOp → Type
  | .u8 => UInt8
  | .u16 => UInt16
  | .u32 => UInt32
  | .u64 => UInt64
  | .dup _ => List UInt8
  | .getReadPosition => ℕ
  | .setReadPosition _ => Unit
  | .incReadPosition _ => Unit

/-- The effect of a read primitive on a buffer. -/
def readHandler : (o : ReadOp) → Buffer → Except Errno o.Out × Buffer
  | .u8 => bufferReadU8
  | .u16 => bufferReadU16
  | .u32 => bufferReadU32
  | .u64 => bufferReadU64
  | .dup size => bufferDup size
  | .getReadPosition => fun b => (.ok b.pos, b)
  | .setReadPosition pos => bufferSetReadPosition pos
  | .incReadPosition value => bufferIncReadPosition value

/-- The primitives that encoding uses. -/
inductive WriteOp where
  | clear
  | reserve (length : ℕ)
  | appendU8 (value : UInt8)
  | appendU16 (value : UInt16)
  | appendU32 (value : UInt32)
  | appendU64 (value : UInt64)
  | appendString (str : Option CString)
  | writeU8 (value : UInt8) (offset : ℕ)
  | writeU32 (value : UInt32) (offset : ℕ)
  | length

/-- What a write primitive returns. -/
abbrev WriteOp.Out : WriteOp → Type
  | .length => ℕ
  | _ => Unit

/-- The effect of a write primitive on a buffer. -/
def writeHandler (mem : Realloc) : (o : WriteOp) → Buffer → Except Errno o.Out × Buffer
  | .clear => fun b => (.ok (), bufferClear b)
  | .reserve length => bufferReserve mem length
  | .appendU8 value => bufferAppend mem (bigEndian 1 value.toNat)
  | .appendU16 value => bufferAppend mem (bigEndian 2 value.toNat)
  | .appendU32 value => bufferAppend mem (bigEndian 4 value.toNat)
  | .appendU64 value => bufferAppend mem (bigEndian 8 value.toNat)
  | .appendString str => bufferAppendString mem str
  | .writeU8 value offset => bufferWriteAt mem (bigEndian 1 value.toNat) offset
  | .writeU32 value offset => bufferWriteAt mem (bigEndian 4 value.toNat) offset
  | .length => fun b => (.ok b.length, b)

/-- A decoding program. -/
abbrev Dec := Prog ReadOp ReadOp.Out Errno

/-- An encoding program. -/
abbrev Enc := Prog WriteOp WriteOp.Out Errno

/-- Run a decoding program on a buffer. -/
abbrev Dec.on {α : Type} (p : Dec α) (b : Buffer) : Except Errno α × Buffer := p.run readHandler b

/-- Run an encoding program on a buffer. -/
abbrev Enc.on {α : Type} (p : Enc α) (mem : Realloc) (b : Buffer) : Except Errno α × Buffer :=
  p.run (writeHandler mem) b

/-! The primitives as programs. -/

/-- Read the next byte. -/
def readU8 : Dec UInt8 := Prog.perform ReadOp.u8

/-- Read the next 16-bit word. -/
def readU16 : Dec UInt16 := Prog.perform ReadOp.u16

/-- Read the next 32-bit word. -/
def readU32 : Dec UInt32 := Prog.perform ReadOp.u32

/-- Read the next 64-bit word. -/
def readU64 : Dec UInt64 := Prog.perform ReadOp.u64

/-- Copy the next `size` bytes. -/
def dup (size : ℕ) : Dec (List UInt8) := Prog.perform (ReadOp.dup size)

/-- The read position. -/
def getReadPosition : Dec ℕ := Prog.perform ReadOp.getReadPosition

/-- Move the read position to `pos`. -/
def setReadPosition (pos : ℕ) : Dec Unit := Prog.perform (ReadOp.setReadPosition pos)

/-- Move the read position by `value`. -/
def incReadPosition (value : ℕ) : Dec Unit := Prog.perform (ReadOp.incReadPosition value)

/-- Forget the content. -/
def clear : Enc Unit := Prog.perform WriteOp.clear

/-- Reserve room behind the content. -/
def reserve (length : ℕ) : Enc Unit := Prog.perform (WriteOp.reserve length)

/-- Append a byte. -/
def appendU8 (value : UInt8) : Enc Unit := Prog.perform (WriteOp.appendU8 value)

/-- Append a 16-bit word. -/
def appendU16 (value : UInt16) : Enc Unit := Prog.perform (WriteOp.appendU16 value)

/-- Append a 32-bit word. -/
def appendU32 (value : UInt32) : Enc Unit := Prog.perform (WriteOp.appendU32 value)

/-- Append a 64-bit word. -/
def appendU64 (value : UInt64) : Enc Unit := Prog.perform (WriteOp.appendU64 value)

/-- Append a string. -/
def appendString (str : Option CString) : Enc Unit := Prog.perform (WriteOp.appendString str)

/-- Write a byte at an offset. -/
def writeU8 (value : UInt8) (offset : ℕ) : Enc Unit := Prog.perform (WriteOp.writeU8 value offset)

/-- Write a 32-bit word at an offset. -/
def writeU32 (value : UInt32) (offset : ℕ) : Enc Unit :=
  Prog.perform (WriteOp.writeU32 value offset)

/-- The length of the content. -/
def bufferLength : Enc ℕ := Prog.perform WriteOp.length

end Obus
