import Obus.Desc

/-!
# Fields and structs

The functions of `obus_field.c` and `obus_struct.c`: initialisation, copying, merging, encoding and
decoding of structs.  A struct is the list of its fields, each with its descriptor, its presence bit
and its memory.

Allocations made while decoding or copying are taken to succeed.  Copying an absent string gives the
empty string; where the source keeps a string pointer that both arrays hold, an absent one may stay
absent, and every statement about strings treats the two alike.
-/

namespace Obus

open Prog

/-- A field of a struct. -/
structure Slot where
  /-- The descriptor of the field. -/
  desc : FieldDesc
  /-- The presence bit of the field. -/
  has : Bool
  /-- The memory of the field. -/
  val : desc.type.Val
  deriving DecidableEq

/-- `struct obus_struct`: the fields in the order of the descriptor. -/
abbrev Struct := List Slot

/-- The descriptor of a struct. -/
def Struct.desc (st : Struct) : StructDesc := st.map Slot.desc

/-! ## Initialisation and presence -/

/-- `obus_field_init`. -/
def FieldType.init (drv : Option EnumDriver) : (t : FieldType) → t.Val
  | .value .enum => ((drv.map EnumDriver.default).getD 0 : UInt32)
  | .value t => t.item
  | .array _ => ⟨0, []⟩

/-- `obus_struct_init`. -/
def structInit (d : StructDesc) : Struct :=
  d.map fun f => ⟨f, false, f.type.init f.enumDrv⟩

/-- The struct of a new call: zeroed memory. -/
def structZero (d : StructDesc) : Struct :=
  d.map fun f => ⟨f, false, f.type.zero⟩

/-- `obus_struct_set_has_fields`. -/
def structSetHasFields (st : Struct) : Struct := st.map fun s => { s with has := true }

/-- `obus_struct_clear_has_fields`. -/
def structClearHasFields (st : Struct) : Struct := st.map fun s => { s with has := false }

/-- `obus_struct_get_field_desc`: the first field with the uid, with its index. -/
def structGetFieldDesc (st : Struct) (uid : UInt16) : Option (ℕ × Slot) :=
  (st.findIdx? fun s => s.desc.uid = uid).bind fun i => st[i]?.map fun s => (i, s)

/-! ## Copying -/

/-- `obus_copy_value`. -/
def copyValue : (t : BaseType) → t.Cell → t.Cell
  | .bool, v => if v = (0 : UInt8) then (0 : UInt8) else (1 : UInt8)
  | .string, v => some (Option.getD v (CString.ofBytes []))
  | _, v => v

/-- `obus_field_copy`. -/
def fieldCopy : (t : FieldType) → t.Val → t.Val
  | .value t, v => copyValue t v
  | .array t, v => ⟨v.nItems, v.items.map (copyValue t)⟩

/-- `obus_struct_merge`: copy the present fields of `src` and mark them present. -/
def structMerge (dst src : Struct) : Except Errno Struct :=
  if dst.desc ≠ src.desc then .error .einval
  else .ok (List.zipWith
    (fun d s => if s.has then ⟨s.desc, true, fieldCopy s.desc.type s.val⟩ else d) dst src)

/-! ## Encoding -/

/-- `obus_encode_value`. -/
def encodeValue : (t : BaseType) → t.Cell → Enc Unit
  | .bool, v => appendU8 (if v = (0 : UInt8) then 0 else 1)
  | .u8, v | .i8, v => appendU8 v
  | .u16, v | .i16, v => appendU16 v
  | .u32, v | .i32, v | .enum, v | .f32, v => appendU32 v
  | .u64, v | .i64, v | .f64, v => appendU64 v
  | .string, v => appendString v

/-- `obus_field_array_encode`.  An array with fewer items than its count has none, and reading its
items faults. -/
def arrayEncode (t : BaseType) (v : ArrayVal t) : Enc Unit := do
  appendU32 v.nItems
  each (encodeValue t) (v.items.take v.nItems.toNat)
  if v.items.length < v.nItems.toNat then .fail .efault

/-- Encode the memory of a field. -/
def fieldEncodeVal : (t : FieldType) → t.Val → Enc Unit
  | .array t, v => arrayEncode t v
  | .value t, v => encodeValue t v

/-- `obus_field_encode`. -/
def fieldEncode (s : Slot) : Enc Unit := do
  appendU16 s.desc.uid
  appendU8 s.desc.type.code
  fieldEncodeVal s.desc.type s.val

/-- `obus_struct_encode`: the number of present fields, then these fields. -/
def structEncode (st : Struct) : Enc Unit := do
  appendU16 (UInt16.ofNat (st.countP Slot.has))
  each fieldEncode (st.filter Slot.has)

/-! ## Decoding -/

/-- Read a word into memory, which keeps its value when the read fails. -/
def readInto {α : Type} (p : Dec α) (old : α) : Dec (Except Errno Unit × α) := do
  match ← p.attempt with
  | .ok v => pure (.ok (), v)
  | .error e => pure (.error e, old)

/-- `obus_buffer_read_string`.  A size of 0 stands for an absent string; otherwise the last byte is
overwritten with NUL. -/
def readString (old : Option CString) : Dec (Except Errno Unit × Option CString) := do
  match ← readU32.attempt with
  | .error e => pure (.error e, old)
  | .ok size =>
    if size = 0 then pure (.ok (), none)
    else
      match ← (dup size.toNat).attempt with
      | .error e => pure (.error e, none)
      | .ok data => pure (.ok (), some (CString.ofBytes (data.set (size.toNat - 1) 0)))

/-- `obus_decode_value`: the outcome and the memory afterwards. -/
def decodeValue : (t : BaseType) → t.Cell → Dec (Except Errno Unit × t.Cell)
  | .u8, old | .i8, old => readInto readU8 old
  | .bool, old => readInto ((fun v => if v = 0 then 0 else 1) <$> readU8) old
  | .u16, old | .i16, old => readInto readU16 old
  | .u32, old | .i32, old | .enum, old | .f32, old => readInto readU32 old
  | .u64, old | .i64, old | .f64, old => readInto readU64 old
  | .string, old => readString old

/-- The loop of `obus_field_array_decode`. -/
def decodeItems (t : BaseType) : ℕ → Dec (Except Errno (List t.Cell))
  | 0 => pure (.ok [])
  | n + 1 => do
    match ← decodeValue t t.item with
    | (.error e, _) => pure (.error e)
    | (.ok (), v) =>
      match ← decodeItems t n with
      | .error e => pure (.error e)
      | .ok vs => pure (.ok (v :: vs))

/-- `obus_field_array_decode`.  On an error the items are freed and the count stays. -/
def arrayDecode (t : BaseType) (old : ArrayVal t) : Dec (Except Errno Unit × ArrayVal t) := do
  match ← readU32.attempt with
  | .error e => pure (.error e, old)
  | .ok n =>
    match ← decodeItems t n.toNat with
    | .error e => pure (.error e, ⟨n, []⟩)
    | .ok items => pure (.ok (), ⟨n, items⟩)

/-- `obus_field_skip_value`, on the type byte of the packet. -/
def fieldSkipValue (type : UInt8) : Dec Unit := do
  match BaseType.ofCode? (maskCode type) with
  | some .u8 | some .i8 | some .bool => let _ ← (incReadPosition 1).attempt
  | some .u16 | some .i16 => let _ ← (incReadPosition 2).attempt
  | some .u32 | some .i32 | some .enum | some .f32 => let _ ← (incReadPosition 4).attempt
  | some .u64 | some .i64 | some .f64 => let _ ← (incReadPosition 8).attempt
  | some .string =>
    match ← readU32.attempt with
    | .ok size => let _ ← (incReadPosition size.toNat).attempt
    | .error _ => pure ()
  | none => pure ()

/-- `obus_field_array_skip_value`. -/
def fieldArraySkipValue (type : UInt8) : Dec Unit := do
  match ← readU32.attempt with
  | .error _ => pure ()
  | .ok n => iter (fun _ => fieldSkipValue type) n.toNat ()

/-- The `skip_field` exit of `obus_field_decode`. -/
def skipField (type : UInt8) : Dec Unit :=
  if isArrayCode type then fieldArraySkipValue type else fieldSkipValue type

/-- The memory of a field after decoding into it, and the outcome. -/
def fieldDecodeVal : (t : FieldType) → t.Val → Dec (Except Errno Unit × t.Val)
  | .array t, old => arrayDecode t old
  | .value t, old => decodeValue t old

/-- `obus_field_decode`: the struct afterwards and the index of the decoded field, if any. -/
def fieldDecode (st : Struct) : Dec (Struct × Option ℕ) := do
  match ← (do let uid ← readU16; let type ← readU8; pure (uid, type) : Dec _).attempt with
  | .error _ => pure (st, none)
  | .ok (uid, type) =>
    let pos ← getReadPosition
    match structGetFieldDesc st uid with
    | none =>
      skipField type
      pure (st, none)
    | some (i, s) =>
      if s.desc.type.code ≠ type then
        skipField type
        pure (st, none)
      else
        match ← fieldDecodeVal s.desc.type s.val with
        | (.ok (), v) => pure (st.set i { s with val := v }, some i)
        | (.error _, v) =>
          -- decode failure: go back and skip the field
          let _ ← (setReadPosition pos).attempt
          skipField type
          pure (st.set i { s with val := v }, none)

/-- `obus_struct_set_has_field` on the field at an index. -/
def structSetHasField (st : Struct) (i : ℕ) : Struct := st.modify i fun s => { s with has := true }

/-- The body of the loop of `obus_struct_decode`. -/
def structDecodeField (st : Struct) : Dec Struct := do
  match ← fieldDecode st with
  | (st', some i) => pure (structSetHasField st' i)
  | (st', none) => pure st'

/-- `obus_struct_decode`. -/
def structDecode (st : Struct) : Dec Struct := do
  let n ← readU16
  iter structDecodeField n.toNat (structClearHasFields st)

end Obus
