import Obus.Java.Buffer

/-!
# The descriptors of the Java library

`Descriptor.java`, as far as structures are concerned, and the type table of the generator
`obus_java.py`.  The generator makes a descriptor for every field of a description, and a driver for
every enumeration; no two constants of an enumeration have the same number, as such a driver does
not compile.

A descriptor of a structure carries what is true of all of them: the uids of its fields are
different and not zero, and each field has a place of its own.
-/

namespace Obus.Java

/-! ## Types -/

/-- A driver of an enumeration that the generator writes, with the numbers of the constants. -/
structure EnumDriver where
  values : List (BitVec 32)
  nodup : values.Nodup
  deriving DecidableEq

/-- The constants of an enumeration. -/
abbrev EnumDriver.Const (d : EnumDriver) : Type := Fin d.values.length

/-- `toInt`. -/
def EnumDriver.toInt (d : EnumDriver) (val : d.Const) : BitVec 32 := d.values.get val

/-- `fromInt`; a number without a constant is a decoding error. -/
def EnumDriver.fromInt (d : EnumDriver) (val : BitVec 32) : Except Exc d.Const :=
  match (List.finRange d.values.length).find? fun c => d.toInt c = val with
  | some c => .ok c
  | none => .error (.decodeError (.invalidEnum val.toInt))

/-- The types of fields of `FieldType`. -/
inductive FieldType where
  | u8 | i8 | u16 | i16 | u32 | i32 | u64 | i64 | enum | string | bool | f32 | f64
  deriving DecidableEq

/-- The number of a type. -/
def FieldType.code : FieldType → BitVec 32
  | .u8 => 0
  | .i8 => 1
  | .u16 => 2
  | .i16 => 3
  | .u32 => 4
  | .i32 => 5
  | .u64 => 6
  | .i64 => 7
  | .enum => 8
  | .string => 9
  | .bool => 10
  | .f32 => 11
  | .f64 => 12

/-- `OBUS_FIELD_ARRAY`. -/
def fieldArray : BitVec 32 := 0x80

/-- `OBUS_FIELD_MASK`. -/
def fieldMask : BitVec 32 := 0x7f

/-- `isFieldTypeInt`. -/
def FieldType.isInt : FieldType → Bool
  | .u8 | .i8 | .u16 | .i16 | .u32 | .i32 => true
  | _ => false

/-- The types of Java that the generator uses. -/
inductive JavaType where
  | int | long | string | boolean | float | double
  | enum (driver : EnumDriver)
  deriving DecidableEq

/-- The values of a type, without `null`. -/
def JavaType.Val : JavaType → Type
  | .int => BitVec 32
  | .long => BitVec 64
  | .string => JString
  | .boolean => Bool
  | .float => BitVec 32
  | .double => BitVec 64
  | .enum d => d.Const

/-- The entries of an array; those of a class may be `null`. -/
def JavaType.Elem : JavaType → Type
  | .int => BitVec 32
  | .boolean => Bool
  | c => Option c.Val

/-- The values that a field of a type, or of an array of it, is set to. -/
def JavaType.Param (c : JavaType) (isArray : Bool) : Type := bif isArray then List c.Elem else c.Val

/-- The base types of descriptions. -/
inductive IdlBase where
  | uint8 | int8 | uint16 | int16 | uint32 | int32 | uint64 | int64
  | handle | string | bool | float | double
  | enum (driver : EnumDriver)

/-- `_typeMap`, and `MyObusType` for enumerations: the type of parameters, with whose accessors a
field is set and got, and the type of the field. -/
def typeMap : IdlBase → JavaType × FieldType
  | .uint8 => (.int, .u8)
  | .int8 => (.int, .i8)
  | .uint16 => (.int, .u16)
  | .int16 => (.int, .i16)
  | .uint32 => (.int, .u32)
  | .int32 => (.int, .i32)
  | .uint64 => (.long, .u64)
  | .int64 => (.long, .i64)
  | .handle => (.int, .u16)
  | .string => (.string, .string)
  | .bool => (.boolean, .bool)
  | .float => (.float, .f32)
  | .double => (.double, .f64)
  | .enum d => (.enum d, .enum)

/-! ## Descriptors -/

/-- `FieldDesc`, as the generator writes it for a field. -/
structure FieldDesc where
  uid : BitVec 32
  base : IdlBase
  isArray : Bool
  idx : ℕ

namespace FieldDesc

/-- The type of the field without the mark of arrays. -/
def fieldType (f : FieldDesc) : FieldType := (typeMap f.base).2

/-- The type whose accessors are used. -/
def javaType (f : FieldDesc) : JavaType := (typeMap f.base).1

/-- `type`. -/
def type (f : FieldDesc) : BitVec 32 :=
  if f.isArray then f.fieldType.code ||| fieldArray else f.fieldType.code

/-- `driver`; `none` is `null`. -/
def driver (f : FieldDesc) : Option EnumDriver :=
  match f.base with
  | .enum d => some d
  | _ => none

end FieldDesc

/-- `StructDesc`: the fields in the order of the map of descriptors. -/
structure StructDesc where
  fields : List FieldDesc
  uids : (fields.map FieldDesc.uid).Nodup
  uid_ne_zero : ∀ f ∈ fields, f.uid ≠ 0
  idxs : (fields.map FieldDesc.idx).Nodup
  idx_lt : ∀ f ∈ fields, f.idx < fields.length

namespace StructDesc

/-- A descriptor without fields. -/
def empty : StructDesc := ⟨[], List.nodup_nil, by simp, List.nodup_nil, by simp⟩

/-- The order of the map. -/
abbrev UidLE (f g : FieldDesc) : Prop := f.uid.toInt ≤ g.uid.toInt

/-- `addField`, of a field whose uid is new: its place is behind the others. -/
def addField (desc : StructDesc) (uid : BitVec 32) (base : IdlBase) (isArray : Bool)
    (hnew : ∀ f ∈ desc.fields, f.uid ≠ uid) (hzero : uid ≠ 0) : StructDesc :=
  let f : FieldDesc := ⟨uid, base, isArray, desc.fields.length⟩
  have hperm : (desc.fields.orderedInsert UidLE f).Perm (f :: desc.fields) :=
    List.perm_orderedInsert _ _ _
  { fields := desc.fields.orderedInsert UidLE f
    uids := by
      refine (hperm.map FieldDesc.uid).nodup_iff.mpr (List.nodup_cons.mpr ⟨?_, desc.uids⟩)
      rintro hmem
      obtain ⟨g, hg, heq⟩ := List.mem_map.mp hmem
      exact hnew g hg heq
    uid_ne_zero := by
      intro g hg
      rcases List.mem_cons.mp (hperm.mem_iff.mp hg) with rfl | hg
      · exact hzero
      · exact desc.uid_ne_zero g hg
    idxs := by
      refine (hperm.map FieldDesc.idx).nodup_iff.mpr (List.nodup_cons.mpr ⟨?_, desc.idxs⟩)
      rintro hmem
      obtain ⟨g, hg, heq⟩ := List.mem_map.mp hmem
      exact absurd heq (desc.idx_lt g hg).ne
    idx_lt := by
      intro g hg
      rw [hperm.length_eq, List.length_cons]
      rcases List.mem_cons.mp (hperm.mem_iff.mp hg) with rfl | hg
      · exact Nat.lt_succ_self _
      · exact (desc.idx_lt g hg).trans (Nat.lt_succ_self _) }

/-- `get` of the map of descriptors. -/
def get (desc : StructDesc) (uid : BitVec 32) : Option FieldDesc :=
  desc.fields.find? fun f => f.uid = uid

end StructDesc

end Obus.Java
