import Obus.Memory

/-!
# Decoding and encoding in memory

The functions of `obus_field.c` and `obus_struct.c` that bring a struct from a buffer into its
memory, and from there into a buffer or a text.  A decoded string is a new cell, an array field is
written in two steps: first its count, then the pointer to its items.

A string that a decoding overwrites is not freed, and neither are the strings of an array that could
not be completed.
-/

namespace Obus

namespace Memory

variable (mem : ℕ → Bool)

/-! ## Decoding -/

/-- Read a word into memory, which keeps its value when the read fails. -/
def readInto {α : Type} (r : Except Errno α × Buffer) (old : α) (h : StringHeap) :
    Except Errno Unit × α × Buffer × StringHeap :=
  match r with
  | (.ok v, b) => (.ok (), v, b, h)
  | (.error e, b) => (.error e, old, b, h)

/-- `obus_buffer_read_string`, with the allocation of `obus_buffer_dup`.  A size of 0 stands for an
absent string; otherwise the last byte is overwritten with NUL. -/
def readString (old : StrPtr) (b : Buffer) (h : StringHeap) :
    Except Errno Unit × StrPtr × Buffer × StringHeap :=
  match bufferReadU32 b with
  | (.error e, b) => (.error e, old, b, h)
  | (.ok size, b) =>
    if size = 0 then (.ok (), .null, b, h)
    else
      match bufferDup size.toNat b with
      | (.error e, b) => (.error e, .null, b, h)
      | (.ok data, b') =>
        match h.alloc mem (CString.ofBytes (data.set (size.toNat - 1) 0)) with
        | (none, h) => (.error .enomem, .null, b, h)
        | (some l, h) => (.ok (), .cell l, b', h)

/-- `obus_decode_value`. -/
def decodeValue : (t : BaseType) → t.Mem → Buffer → StringHeap →
    Except Errno Unit × t.Mem × Buffer × StringHeap
  | .u8, old, b, h | .i8, old, b, h => readInto (bufferReadU8 b) old h
  | .bool, old, b, h =>
    readInto ((bufferReadU8 b).map (Except.map fun v => if v = 0 then 0 else 1) id) old h
  | .u16, old, b, h | .i16, old, b, h => readInto (bufferReadU16 b) old h
  | .u32, old, b, h | .i32, old, b, h | .enum, old, b, h | .f32, old, b, h =>
    readInto (bufferReadU32 b) old h
  | .u64, old, b, h | .i64, old, b, h | .f64, old, b, h => readInto (bufferReadU64 b) old h
  | .string, old, b, h => readString mem old b h

/-- The loop of `obus_field_array_decode`: the items of the new array. -/
def decodeItems (t : BaseType) : ℕ → Buffer → StringHeap →
    Except Errno (List t.Mem) × Buffer × StringHeap
  | 0, b, h => (.ok [], b, h)
  | n + 1, b, h =>
    match decodeValue mem t t.newItem b h with
    | (.error e, _, b, h) => (.error e, b, h)
    | (.ok (), v, b, h) =>
      match decodeItems t n b h with
      | (.error e, b, h) => (.error e, b, h)
      | (.ok vs, b, h) => (.ok (v :: vs), b, h)

/-- `obus_field_array_decode`.  The count is read into the field; where the items cannot be had, the
pointer is set to `NULL` and the count stays. -/
def fieldArrayDecode {t : BaseType} (old : ArrayMem t) (b : Buffer) (h : StringHeap) :
    Except Errno Unit × ArrayMem t × Buffer × StringHeap :=
  match bufferReadU32 b with
  | (.error e, b) => (.error e, old, b, h)
  | (.ok n, b) =>
    match fieldArrayAlloc mem t n.toNat h with
    | (none, h) => (.error .enomem, ⟨n, none⟩, b, h)
    | (some new, h) =>
      match decodeItems mem t n.toNat b h with
      | (.error e, b, h) => (.error e, ⟨n, none⟩, b, h)
      | (.ok vs, b, h) => (.ok (), ⟨n, new.map fun _ => vs⟩, b, h)

/-- The memory of a field after decoding into it. -/
def fieldDecodeVal : (t : FieldType) → t.Mem → Buffer → StringHeap →
    Except Errno Unit × t.Mem × Buffer × StringHeap
  | .value t, old, b, h => decodeValue mem t old b h
  | .array _, old, b, h => fieldArrayDecode mem old b h

section Structs

variable {d : StructDesc}

/-- The loop of `obus_struct_get_field_desc`, whose counter has 16 bits: the first field with the
uid.  Without fuel there is no result. -/
def structGetFieldDesc (d : StructDesc) (uid : UInt16) : ℕ → UInt16 → Option (Option (Fin d.length))
  | 0, _ => none
  | n + 1, i =>
    if hi : i.toNat < d.length then
      if (d.get ⟨i.toNat, hi⟩).uid = uid then some (some ⟨i.toNat, hi⟩)
        else structGetFieldDesc d uid n (i + 1)
    else some none

/-- `obus_field_decode`: the field that was decoded, if any. -/
def fieldDecode (fuel : ℕ) (st : StructMem d) (b : Buffer) (h : StringHeap) :
    Option (Option (Fin d.length) × StructMem d × Buffer × StringHeap) :=
  match bufferReadU16 b with
  | (.error _, b) => some (none, st, b, h)
  | (.ok uid, b) =>
    match bufferReadU8 b with
    | (.error _, b) => some (none, st, b, h)
    | (.ok type, b) =>
      match structGetFieldDesc d uid fuel 0 with
      | none => none
      | some none => some (none, st, ((skipField type).on b).2, h)
      | some (some k) =>
        if (d.get k).type.code ≠ type then some (none, st, ((skipField type).on b).2, h)
        else
          match fieldDecodeVal mem (d.get k).type (st.vals k) b h with
          | (.ok (), v, b, h) => some (some k, setVal st k v, b, h)
          | (.error _, v, b', h) =>
            -- decode failure: go back and skip the field
            some (none, setVal st k v,
              ((skipField type).on (bufferSetReadPosition b.pos b').2).2, h)

/-- The body of the loop of `obus_struct_decode`: a field that was decoded is present. -/
def structDecodeField (fuel : ℕ) (st : StructMem d) (b : Buffer) (h : StringHeap) :
    Option (StructMem d × Buffer × StringHeap) :=
  (fieldDecode mem fuel st b h).map fun
    | (none, st, b, h) => (st, b, h)
    | (some k, st, b, h) => (setHasField st k, b, h)

/-- The loop of `obus_struct_decode`. -/
def decodeFields (fuel : ℕ) : ℕ → StructMem d → Buffer → StringHeap →
    Option (StructMem d × Buffer × StringHeap)
  | 0, st, b, h => some (st, b, h)
  | n + 1, st, b, h =>
    match structDecodeField mem fuel st b h with
    | none => none
    | some (st, b, h) => decodeFields fuel n st b h

/-- `obus_struct_decode`. -/
def structDecode (fuel : ℕ) (st : StructMem d) (b : Buffer) (h : StringHeap) :
    Option (Except Errno Unit × StructMem d × Buffer × StringHeap) :=
  match bufferReadU16 b with
  | (.error e, b) => some (.error e, clearHasFields st, b, h)
  | (.ok n, b) => (decodeFields mem fuel n.toNat (clearHasFields st) b h).map fun r => (.ok (), r)

end Structs

/-! ## Encoding -/

section Encoding

variable (realloc : Realloc)

/-- Load a value.  A string that was freed is taken for the empty one. -/
def loadValue : (t : BaseType) → t.Mem → StringHeap → t.Cell × StringHeap
  | .u8, v, h | .i8, v, h | .bool, v, h => (v, h)
  | .u16, v, h | .i16, v, h => (v, h)
  | .u32, v, h | .i32, v, h | .enum, v, h | .f32, v, h => (v, h)
  | .u64, v, h | .i64, v, h | .f64, v, h => (v, h)
  | .string, .null, h => (none, h)
  | .string, .empty, h => (some (CString.ofBytes []), h)
  | .string, .cell l, h =>
    match h.read? l with
    | some text => (some text, h)
    | none => (some (CString.ofBytes []), h.crash .usedFreed)

/-- `obus_encode_value`. -/
def encodeValue (t : BaseType) (v : t.Mem) (b : Buffer) (h : StringHeap) :
    Except Errno Unit × Buffer × StringHeap :=
  let (c, h) := loadValue t v h
  let (r, b) := (Obus.encodeValue t c).on realloc b
  (r, b, h)

/-- The loop of `obus_field_array_encode`, from an index on.  The address of the first item of a
`NULL` array is `NULL`, and is refused. -/
def encodeItems {t : BaseType} (a : Option (List t.Mem)) :
    ℕ → ℕ → Buffer → StringHeap → Except Errno Unit × Buffer × StringHeap
  | 0, _, b, h => (.ok (), b, h)
  | n + 1, i, b, h =>
    if a.isNone ∧ i = 0 then (.error .einval, b, h)
    else
      let (v, h) := readItem a i h
      match encodeValue realloc t v b h with
      | (.error e, b, h) => (.error e, b, h)
      | (.ok (), b, h) => encodeItems a n (i + 1) b h

/-- Encode the memory of a field: `obus_field_array_encode`, or `obus_encode_value`. -/
def fieldEncodeVal : (t : FieldType) → t.Mem → Buffer → StringHeap →
    Except Errno Unit × Buffer × StringHeap
  | .value t, v, b, h => encodeValue realloc t v b h
  | .array _, v, b, h =>
    match (appendU32 v.nItems).on realloc b with
    | (.error e, b) => (.error e, b, h)
    | (.ok (), b) => encodeItems realloc v.array v.nItems.toNat 0 b h

/-- `obus_field_encode`. -/
def fieldEncode (f : FieldDesc) (v : f.type.Mem) (b : Buffer) (h : StringHeap) :
    Except Errno Unit × Buffer × StringHeap :=
  match (do appendU16 f.uid; appendU8 f.type.code : Enc Unit).on realloc b with
  | (.error e, b) => (.error e, b, h)
  | (.ok (), b) => fieldEncodeVal realloc f.type v b h

variable {d : StructDesc}

/-- The loop of `obus_struct_encode` that counts the present fields; its counter has 16 bits. -/
def countFields (st : StructMem d) : ℕ → UInt16 → UInt16 → Option UInt16
  | 0, _, _ => none
  | n + 1, i, count =>
    if i.toNat < d.length then countFields st n (i + 1)
      (if hasField st i.toNat then count + 1 else count)
    else some count

/-- The loop of `obus_struct_encode` over the present fields. -/
def encodeFields (st : StructMem d) : ℕ → UInt16 → Buffer → StringHeap →
    Option (Except Errno Unit × Buffer × StringHeap)
  | 0, _, _, _ => none
  | n + 1, i, b, h =>
    if hi : i.toNat < d.length then
      if hasField st i.toNat then
        match fieldEncode realloc (d.get ⟨i.toNat, hi⟩) (st.vals ⟨i.toNat, hi⟩) b h with
        | (.error e, b, h) => some (.error e, b, h)
        | (.ok (), b, h) => encodeFields st n (i + 1) b h
      else encodeFields st n (i + 1) b h
    else some (.ok (), b, h)

/-- `obus_struct_encode`. -/
def structEncode (fuel : ℕ) (st : StructMem d) (b : Buffer) (h : StringHeap) :
    Option (Except Errno Unit × Buffer × StringHeap) :=
  match countFields st fuel 0 0 with
  | none => none
  | some n =>
    match (appendU16 n).on realloc b with
    | (.error e, b) => some (.error e, b, h)
    | (.ok (), b) => encodeFields realloc st fuel 0 b h

end Encoding

/-! ## Formatting -/

section Formatting

variable (print : (t : BaseType) → t.Cell → List UInt8) (size : ℕ)

/-- The loop of `obus_format_array_value`, from an index on, with the text so far.  What `snprintf`
and the drivers of enumerations print for a value is the parameter `print`. -/
def formatItems {t : BaseType} (a : Option (List t.Mem)) : ℕ → ℕ → List UInt8 → StringHeap →
    List UInt8 × StringHeap
  | 0, _, text, h => (text ++ [125], h)
  | n + 1, i, text, h =>
    let (v, h) := readItem a i h
    let (c, h) := loadValue t v h
    let text := text ++ (print t c).take (size - text.length - 1)
    if size ≤ text.length + 6 then (text.take (size - 6) ++ [46, 46, 46, 125], h)
    else formatItems a n (i + 1) (if n = 0 then text else text ++ [44, 32]) h

/-- `obus_field_format`, into a text of a size; an array starts with its count as the parameter
`head` prints it. -/
def fieldFormat (head : UInt32 → List UInt8) : (t : FieldType) → t.Mem → StringHeap →
    List UInt8 × StringHeap
  | .value t, v, h =>
    let (c, h) := loadValue t v h
    ((print t c).take (size - 1), h)
  | .array _, v, h =>
    formatItems print size v.array v.nItems.toNat 0 ((head v.nItems).take (size - 1)) h

end Formatting

end Memory

end Obus
