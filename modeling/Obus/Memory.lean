import Obus.Lib.BitWords
import Obus.Lib.Cells
import Obus.Struct

/-!
# The memory of structs

The functions of `obus_field.c` and `obus_struct.c` on the memory of a struct: the presence bits
packed in words, string pointers into a heap of cells, array fields with their count and their
allocation.  `Struct.lean` has the same functions on values; `StructMem.value` is the value of a
field in a heap.

An allocation may fail, as the parameter `mem` says of each of them by its number.  A struct owns
the arrays that its fields point to, so that they are part of its memory; when a struct is merged or
copied, the array of a field of the source may be the very array of the destination (`shared`, by
the index of the field).  An array whose `NULL` pointer stands next to a count has no items, and an
access to one is recorded as a fault of the heap.
-/

namespace Obus

/-! ## The memory of a field -/

/-- A `char *`: absent, the static empty string, or a string of the heap. -/
inductive StrPtr where
  | null | empty
  | cell (loc : ℕ)
  deriving DecidableEq, Repr

/-- The memory of one value: as its cell, a string as the pointer to it. -/
abbrev BaseType.Mem : BaseType → Type
  | u8 | i8 | bool => UInt8
  | u16 | i16 => UInt16
  | u32 | i32 | enum | f32 => UInt32
  | u64 | i64 | f64 => UInt64
  | string => StrPtr

/-- What an item of a new array holds: `calloc` zeroes it, and a string is set to the empty one. -/
def BaseType.newItem : (t : BaseType) → t.Mem
  | u8 | i8 | bool => (0 : UInt8)
  | u16 | i16 => (0 : UInt16)
  | u32 | i32 | enum | f32 => (0 : UInt32)
  | u64 | i64 | f64 => (0 : UInt64)
  | string => .empty

/-- The memory of an array field: the count, and the pointer to the allocated items. -/
structure ArrayMem (t : BaseType) where
  nItems : UInt32
  /-- The allocated items; `none` is a `NULL` pointer. -/
  array : Option (List t.Mem)

/-- The memory of a field. -/
abbrev FieldType.Mem : FieldType → Type
  | .value t => t.Mem
  | .array t => ArrayMem t

/-- The memory of a struct on a descriptor: its fields, and the words of the presence bits. -/
structure StructMem (d : StructDesc) where
  vals : (k : Fin d.length) → (d.get k).type.Mem
  bits : List UInt32
  room : d.length ≤ 32 * bits.length

/-- The heap of the strings. -/
abbrev StringHeap := CellHeap CString

namespace Memory

variable (mem : ℕ → Bool)

/-! ## Values -/

/-- `free` of a string pointer, unless it is the static empty string. -/
def freeString : StrPtr → StringHeap → StringHeap
  | .cell l, h => h.free l
  | _, h => h

/-- `obus_copy_value` for strings. -/
def copyString (dst src : StrPtr) (h : StringHeap) : Except Errno Unit × StrPtr × StringHeap :=
  match src with
  | .cell l =>
    -- a string that was freed is taken for the empty one
    let h := if (h.read? l).isNone then h.crash .usedFreed else h
    match h.alloc mem ((h.read? l).getD (CString.ofBytes [])) with
    | (none, h) => (.error .enomem, dst, h)
    | (some l', h) => (.ok (), .cell l', freeString dst h)
  | _ => (.ok (), .empty, freeString dst h)

/-- `obus_copy_value`.  The drivers of enumerations load and store a plain word. -/
def copyValue : (t : BaseType) → (dst src : t.Mem) → StringHeap →
    Except Errno Unit × t.Mem × StringHeap
  | .bool, _, src, h => (.ok (), if src = (0 : UInt8) then (0 : UInt8) else (1 : UInt8), h)
  | .u8, _, src, h | .i8, _, src, h => (.ok (), src, h)
  | .u16, _, src, h | .i16, _, src, h => (.ok (), src, h)
  | .u32, _, src, h | .i32, _, src, h | .enum, _, src, h | .f32, _, src, h => (.ok (), src, h)
  | .u64, _, src, h | .i64, _, src, h | .f64, _, src, h => (.ok (), src, h)
  | .string, dst, src, h => copyString mem dst src h

/-- `obus_destroy_value` at an address, absent beyond an allocation: only a string is looked at. -/
def destroyValue : (t : BaseType) → Option t.Mem → StringHeap → StringHeap
  | .string, some p, h => freeString p h
  | .string, none, h => h.crash .outside
  | _, _, h => h

/-! ## Arrays -/

section Arrays

variable {t : BaseType}

/-- The item of an array at the address that `obus_field_array_item` gives. -/
def item? (a : Option (List t.Mem)) (i : ℕ) : Option t.Mem := (a.getD [])[i]?

/-- Read an item. -/
def readItem (a : Option (List t.Mem)) (i : ℕ) (h : StringHeap) : t.Mem × StringHeap :=
  match item? a i with
  | some v => (v, h)
  | none => (t.newItem, h.crash .outside)

/-- `obus_field_array_alloc`; no items need no allocation. -/
def fieldArrayAlloc (t : BaseType) (n : ℕ) (h : StringHeap) :
    Option (Option (List t.Mem)) × StringHeap :=
  if n = 0 then (some none, h)
  else
    match h.tick mem with
    | (true, h) => (some (some (List.replicate n t.newItem)), h)
    | (false, h) => (none, h)

/-- The loop of `obus_field_array_destroy`, from an index on.  The address of the first item of a
`NULL` array is `NULL`, and is skipped. -/
def destroyItems (a : Option (List t.Mem)) : ℕ → ℕ → StringHeap → StringHeap
  | 0, _, h => h
  | n + 1, i, h =>
    destroyItems a n (i + 1) (if a.isNone ∧ i = 0 then h else destroyValue t (item? a i) h)

/-- `obus_field_array_destroy`. -/
def fieldArrayDestroy (v : ArrayMem t) (h : StringHeap) : StringHeap :=
  destroyItems v.array v.nItems.toNat 0 h

/-- `obus_field_array_ref_value`: for strings, the first item of the destination with the pointer of
the source is cleared, and the pointer is read again.  The source may be read from the array of the
destination. -/
def fieldArrayRefValue : (t : BaseType) → (shared : Bool) → (src dst : Option (List t.Mem)) →
    (nDst i : ℕ) →
    StringHeap → Option t.Mem × Option (List t.Mem) × StringHeap
  | .string, shared, src, dst, nDst, i, h =>
    let (p, h) := readItem (if shared then dst else src) i h
    match ((dst.getD []).take nDst).idxOf? p with
    | some j =>
      let dst := dst.map fun items => items.set j .null
      let (p, h) := readItem (if shared then dst else src) i h
      (some p, dst, h)
    | none => (none, dst, if (dst.getD []).length < nDst then h.crash .outside else h)
  | _, _, _, dst, _, _, h => (none, dst, h)

/-- The body of the loop of `obus_field_array_copy`: the new item, and the array of the destination.
-/
def copyItem (t : BaseType) (shared : Bool) (src dst : Option (List t.Mem)) (nDst i : ℕ)
    (h : StringHeap) : Except Errno t.Mem × Option (List t.Mem) × StringHeap :=
  match fieldArrayRefValue t shared src dst nDst i h with
  | (some v, dst, h) => (.ok v, dst, h)
  | (none, dst, h) =>
    let (v, h) := readItem (if shared then dst else src) i h
    match copyValue mem t t.newItem v h with
    | (.ok (), v, h) => (.ok v, dst, h)
    | (.error e, _, h) => (.error e, dst, h)

/-- The loop of `obus_field_array_copy`, from an index on: the new items. -/
def copyItems (t : BaseType) (shared : Bool) (src : Option (List t.Mem)) (nDst : ℕ) :
    ℕ → ℕ → Option (List t.Mem) → StringHeap →
    Except Errno (List t.Mem) × Option (List t.Mem) × StringHeap
  | 0, _, dst, h => (.ok [], dst, h)
  | n + 1, i, dst, h =>
    match copyItem mem t shared src dst nDst i h with
    | (.error e, dst, h) => (.error e, dst, h)
    | (.ok v, dst, h) =>
      match copyItems t shared src nDst n (i + 1) dst h with
      | (.error e, dst, h) => (.error e, dst, h)
      | (.ok vs, dst, h) => (.ok (v :: vs), dst, h)

/-- `obus_field_array_copy`: on an error the old array stays, without the pointers that were taken
over. -/
def fieldArrayCopy (shared : Bool) (dst src : ArrayMem t) (h : StringHeap) :
    Except Errno Unit × ArrayMem t × StringHeap :=
  match fieldArrayAlloc mem t src.nItems.toNat h with
  | (none, h) => (.error .enomem, dst, h)
  | (some new, h) =>
    match copyItems mem t shared src.array dst.nItems.toNat src.nItems.toNat 0 dst.array h with
    | (.error e, old, h) => (.error e, { dst with array := old }, h)
    | (.ok vs, old, h) =>
      (.ok (), ⟨src.nItems, new.map fun _ => vs⟩, fieldArrayDestroy { dst with array := old } h)

end Arrays

/-! ## Fields -/

/-- `obus_field_init`. -/
def fieldInit (drv : Option EnumDriver) : (t : FieldType) → t.Mem
  | .value .enum => ((drv.map EnumDriver.default).getD 0 : UInt32)
  | .value t => t.newItem
  | .array _ => ⟨0, none⟩

/-- `obus_field_destroy`. -/
def fieldDestroy : (t : FieldType) → t.Mem → StringHeap → StringHeap
  | .value t, v, h => destroyValue t (some v) h
  | .array _, v, h => fieldArrayDestroy v h

/-- `obus_field_copy`. -/
def fieldCopy (shared : Bool) : (t : FieldType) → (dst src : t.Mem) → StringHeap →
    Except Errno Unit × t.Mem × StringHeap
  | .value t, dst, src, h => copyValue mem t dst src h
  | .array _, dst, src, h => fieldArrayCopy mem shared dst src h

/-! ## Structs -/

section Structs

variable {d : StructDesc}

/-- `obus_struct_has_field`. -/
def hasField (st : StructMem d) (i : ℕ) : Bool := if i < d.length then bitTest st.bits i else false

/-- `obus_struct_set_has_field`. -/
def setHasField (st : StructMem d) (i : ℕ) : StructMem d :=
  if i < d.length then
    { st with bits := bitSet st.bits i, room := st.room.trans_eq (by rw [length_bitSet]) }
  else st

/-- `obus_struct_clear_has_field`. -/
def clearHasField (st : StructMem d) (i : ℕ) : StructMem d :=
  if i < d.length then
    { st with bits := bitClear st.bits i, room := st.room.trans_eq (by rw [length_bitClear]) }
  else st

/-- `obus_struct_clear_has_fields`. -/
def clearHasFields (st : StructMem d) : StructMem d := (List.range d.length).foldl clearHasField st

/-- Change the memory of a field. -/
def setVal (st : StructMem d) (k : Fin d.length) (v : (d.get k).type.Mem) : StructMem d :=
  { st with vals := Function.update st.vals k v }

/-- `obus_struct_init`, on the memory of a struct. -/
def structInit (st : StructMem d) : StructMem d :=
  clearHasFields { st with vals := fun k => fieldInit (d.get k).enumDrv (d.get k).type }

/-- `obus_struct_destroy`. -/
def structDestroy (st : StructMem d) (h : StringHeap) : StringHeap :=
  (List.finRange d.length).foldl (fun h k => fieldDestroy (d.get k).type (st.vals k) h) h

/-- The loop of `obus_struct_merge` and `obus_struct_copy`, whose counter has 16 bits: the fields
that are wanted are copied, and marked if they are to be.  Without fuel there is no result. -/
def copyFields (shared wanted : ℕ → Bool) (mark : Bool) (src : StructMem d) :
    ℕ → UInt16 → StructMem d → StringHeap → Option (Except Errno Unit × StructMem d × StringHeap)
  | 0, _, _, _ => none
  | n + 1, i, dst, h =>
    if hi : i.toNat < d.length then
      if wanted i.toNat then
        let k : Fin d.length := ⟨i.toNat, hi⟩
        match fieldCopy mem (shared k) (d.get k).type (dst.vals k) (src.vals k) h with
        | (.error e, v, h) => some (.error e, setVal dst k v, h)
        | (.ok (), v, h) =>
          let dst := setVal dst k v
          copyFields shared wanted mark src n (i + 1)
            (if mark then setHasField dst i.toNat else dst) h
      else copyFields shared wanted mark src n (i + 1) dst h
    else some (.ok (), dst, h)

/-- `obus_struct_copy`, on structs with the same descriptor. -/
def structCopy (shared : ℕ → Bool) (fuel : ℕ) (dst src : StructMem d) (h : StringHeap) :
    Option (Except Errno Unit × StructMem d × StringHeap) :=
  copyFields mem shared (fun _ => true) false src fuel 0 dst h

/-- `obus_struct_merge`, on structs with the same descriptor. -/
def structMerge (shared : ℕ → Bool) (fuel : ℕ) (dst src : StructMem d) (h : StringHeap) :
    Option (Except Errno Unit × StructMem d × StringHeap) :=
  copyFields mem shared (hasField src) true src fuel 0 dst h

/-- The same loop on a struct that is its own source. -/
def copyOwnFields (wanted : StructMem d → ℕ → Bool) (mark : Bool) :
    ℕ → UInt16 → StructMem d → StringHeap → Option (Except Errno Unit × StructMem d × StringHeap)
  | 0, _, _, _ => none
  | n + 1, i, st, h =>
    if hi : i.toNat < d.length then
      if wanted st i.toNat then
        let k : Fin d.length := ⟨i.toNat, hi⟩
        match fieldCopy mem true (d.get k).type (st.vals k) (st.vals k) h with
        | (.error e, v, h) => some (.error e, setVal st k v, h)
        | (.ok (), v, h) =>
          let st := setVal st k v
          copyOwnFields wanted mark n (i + 1) (if mark then setHasField st i.toNat else st) h
      else copyOwnFields wanted mark n (i + 1) st h
    else some (.ok (), st, h)

end Structs

end Memory

end Obus
