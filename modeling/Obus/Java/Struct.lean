import Obus.Java.Descriptor

/-!
# The structures of the Java library

`ObusStruct.java`.  A field that is present has an object in a table; an `int` is kept in a second
table, and the object is then only a mark.  The setters choose what the object is, and so do the
decoder, the encoder and the getters, each with casts of its own.  There are no getters for the
types `Float` and `Double`.

A loop of the decoder over a number of entries is `iter`, one of the encoder over an array or over
the descriptors is `each`.
-/

namespace Obus.Java

open Fallible

/-- The objects in the table of fields: boxed values and strings, arrays of `int` or of `boolean`,
arrays of references. -/
inductive Obj where
  | boxed (c : JavaType) (v : c.Val)
  | prims (c : JavaType) (a : List c.Val)
  | refs (c : JavaType) (a : List (Option c.Val))

/-- `Boolean.TRUE`. -/
def Obj.TRUE : Obj := .boxed .boolean true

/-- A cast to a class. -/
def castTo (c : JavaType) : Option Obj → Except Exc (Option c.Val)
  | none => .ok none
  | some (.boxed c' v) => if h : c' = c then .ok (some (h ▸ v)) else .error .classCast
  | some _ => .error .classCast

/-- The value of a boxed object. -/
def unbox {α : Type} : Option α → Except Exc α
  | none => .error .nullPointer
  | some v => .ok v

/-- A cast to a class whose value is used. -/
def valueOf (c : JavaType) (val : Option Obj) : Except Exc c.Val := castTo c val >>= unbox

/-- A cast to `int[]` or `boolean[]`. -/
def castToPrims (c : JavaType) : Option Obj → Except Exc (Option (List c.Val))
  | none => .ok none
  | some (.prims c' a) => if h : c' = c then .ok (some (h ▸ a)) else .error .classCast
  | some _ => .error .classCast

/-- A cast to an array of references. -/
def castToRefs (c : JavaType) : Option Obj → Except Exc (Option (List (Option c.Val)))
  | none => .ok none
  | some (.refs c' a) => if h : c' = c then .ok (some (h ▸ a)) else .error .classCast
  | some _ => .error .classCast

/-- A cast to `Object[]`. -/
def castToObjects : Option Obj → Except Exc (Option (List (Option Obj)))
  | none => .ok none
  | some (.refs c a) => .ok (some (a.map (Option.map (Obj.boxed c))))
  | some _ => .error .classCast

/-- An expression that may throw, in a program. -/
def eval {σ α : Type} (x : Except Exc α) : Fallible σ Exc α := fun s => x.map fun a => (a, s)

/-- A structure with its two tables. -/
structure ObusStruct where
  desc : StructDesc
  fields : ℕ → Option Obj
  fieldsInt : ℕ → BitVec 32

namespace ObusStruct

/-- `create`. -/
def create (desc : StructDesc) : ObusStruct := ⟨desc, fun _ => none, fun _ => 0⟩

/-- `hasField`. -/
def hasField (s : ObusStruct) (f : FieldDesc) : Bool := (s.fields f.idx).isSome

/-- An assignment to an entry of the table. -/
def put (s : ObusStruct) (f : FieldDesc) (val : Option Obj) : ObusStruct :=
  { s with fields := Function.update s.fields f.idx val }

/-! ## Getters -/

/-- `getFieldBool`. -/
def getFieldBool (s : ObusStruct) (f : FieldDesc) : Except Exc Bool :=
  valueOf .boolean (s.fields f.idx)

/-- `getFieldBoolArray`. -/
def getFieldBoolArray (s : ObusStruct) (f : FieldDesc) : Except Exc (Option (List Bool)) :=
  castToPrims .boolean (s.fields f.idx)

/-- `getFieldInt`. -/
def getFieldInt (s : ObusStruct) (f : FieldDesc) : BitVec 32 := s.fieldsInt f.idx

/-- `getFieldIntArray`. -/
def getFieldIntArray (s : ObusStruct) (f : FieldDesc) : Except Exc (Option (List (BitVec 32))) :=
  castToPrims .int (s.fields f.idx)

/-- `getFieldLong`. -/
def getFieldLong (s : ObusStruct) (f : FieldDesc) : Except Exc (Option (BitVec 64)) :=
  castTo .long (s.fields f.idx)

/-- `getFieldLongArray`. -/
def getFieldLongArray (s : ObusStruct) (f : FieldDesc) :
    Except Exc (Option (List (Option (BitVec 64)))) :=
  castToRefs .long (s.fields f.idx)

/-- `getFieldEnum`, with the cast of the generated getter. -/
def getFieldEnum (d : EnumDriver) (s : ObusStruct) (f : FieldDesc) : Except Exc (Option d.Const) :=
  castTo (.enum d) (s.fields f.idx)

/-- `getFieldEnumArray`, with the cast of the generated getter. -/
def getFieldEnumArray (d : EnumDriver) (s : ObusStruct) (f : FieldDesc) :
    Except Exc (Option (List (Option d.Const))) :=
  castToRefs (.enum d) (s.fields f.idx)

/-- `getFieldString`. -/
def getFieldString (s : ObusStruct) (f : FieldDesc) : Except Exc (Option JString) :=
  castTo .string (s.fields f.idx)

/-- `getFieldStringArray`. -/
def getFieldStringArray (s : ObusStruct) (f : FieldDesc) :
    Except Exc (Option (List (Option JString))) :=
  castToRefs .string (s.fields f.idx)

/-- The getter that the generator names, if there is such a method: `getFieldFloat` and
`getFieldDouble` do not exist. -/
def getField : (c : JavaType) → (isArray : Bool) →
    Option (ObusStruct → FieldDesc → Except Exc (Option (c.Param isArray)))
  | .int, false => some fun s f => .ok (some (s.getFieldInt f))
  | .int, true => some getFieldIntArray
  | .long, false => some getFieldLong
  | .long, true => some getFieldLongArray
  | .string, false => some getFieldString
  | .string, true => some getFieldStringArray
  | .boolean, false => some fun s f => (s.getFieldBool f).map some
  | .boolean, true => some getFieldBoolArray
  | .enum d, false => some (getFieldEnum d)
  | .enum d, true => some (getFieldEnumArray d)
  | .float, _ => none
  | .double, _ => none

/-! ## Setters -/

/-- `setFieldBool`. -/
def setFieldBool (s : ObusStruct) (f : FieldDesc) (val : Bool) : ObusStruct :=
  s.put f (some (.boxed .boolean val))

/-- `setFieldBoolArray`. -/
def setFieldBoolArray (s : ObusStruct) (f : FieldDesc) (val : Option (List Bool)) : ObusStruct :=
  s.put f (val.map (Obj.prims .boolean))

/-- `setFieldInt`: the object is a mark of the presence. -/
def setFieldInt (s : ObusStruct) (f : FieldDesc) (val : BitVec 32) : ObusStruct :=
  { s.put f (some Obj.TRUE) with fieldsInt := Function.update s.fieldsInt f.idx val }

/-- `setFieldIntArray`. -/
def setFieldIntArray (s : ObusStruct) (f : FieldDesc) (val : Option (List (BitVec 32))) :
    ObusStruct :=
  s.put f (val.map (Obj.prims .int))

/-- The common shape of the setters of a reference. -/
def setRef (c : JavaType) (s : ObusStruct) (f : FieldDesc) (val : Option c.Val) : ObusStruct :=
  s.put f (val.map (Obj.boxed c))

/-- The common shape of the setters of an array of references. -/
def setRefArray (c : JavaType) (s : ObusStruct) (f : FieldDesc)
    (val : Option (List (Option c.Val))) : ObusStruct :=
  s.put f (val.map (Obj.refs c))

/-- `setFieldLong`. -/
def setFieldLong (s : ObusStruct) (f : FieldDesc) (val : Option (BitVec 64)) : ObusStruct :=
  setRef .long s f val

/-- `setFieldLongArray`. -/
def setFieldLongArray (s : ObusStruct) (f : FieldDesc) (val : Option (List (Option (BitVec 64)))) :
    ObusStruct :=
  setRefArray .long s f val

/-- `setFieldEnum`. -/
def setFieldEnum (d : EnumDriver) (s : ObusStruct) (f : FieldDesc) (val : Option d.Const) :
    ObusStruct :=
  setRef (.enum d) s f val

/-- `setFieldEnumArray`. -/
def setFieldEnumArray (d : EnumDriver) (s : ObusStruct) (f : FieldDesc)
    (val : Option (List (Option d.Const))) : ObusStruct :=
  setRefArray (.enum d) s f val

/-- `setFieldString`. -/
def setFieldString (s : ObusStruct) (f : FieldDesc) (val : Option JString) : ObusStruct :=
  setRef .string s f val

/-- `setFieldStringArray`. -/
def setFieldStringArray (s : ObusStruct) (f : FieldDesc) (val : Option (List (Option JString))) :
    ObusStruct :=
  setRefArray .string s f val

/-- `setFieldFloat`. -/
def setFieldFloat (s : ObusStruct) (f : FieldDesc) (val : Option (BitVec 32)) : ObusStruct :=
  setRef .float s f val

/-- `setFieldFloatArray`. -/
def setFieldFloatArray (s : ObusStruct) (f : FieldDesc) (val : Option (List (Option (BitVec 32)))) :
    ObusStruct :=
  setRefArray .float s f val

/-- `setFieldDouble`. -/
def setFieldDouble (s : ObusStruct) (f : FieldDesc) (val : Option (BitVec 64)) : ObusStruct :=
  setRef .double s f val

/-- `setFieldDoubleArray`. -/
def setFieldDoubleArray (s : ObusStruct) (f : FieldDesc)
    (val : Option (List (Option (BitVec 64)))) : ObusStruct :=
  setRefArray .double s f val

/-- The setter that the generator names, for a value that is not `null`. -/
def setField : (c : JavaType) → (isArray : Bool) → ObusStruct → FieldDesc → c.Param isArray →
    ObusStruct
  | .int, false, s, f, val => s.setFieldInt f val
  | .int, true, s, f, val => s.setFieldIntArray f (some val)
  | .long, false, s, f, val => s.setFieldLong f (some val)
  | .long, true, s, f, val => s.setFieldLongArray f (some val)
  | .string, false, s, f, val => s.setFieldString f (some val)
  | .string, true, s, f, val => s.setFieldStringArray f (some val)
  | .boolean, false, s, f, val => s.setFieldBool f val
  | .boolean, true, s, f, val => s.setFieldBoolArray f (some val)
  | .float, false, s, f, val => s.setFieldFloat f (some val)
  | .float, true, s, f, val => s.setFieldFloatArray f (some val)
  | .double, false, s, f, val => s.setFieldDouble f (some val)
  | .double, true, s, f, val => s.setFieldDoubleArray f (some val)
  | .enum d, false, s, f, val => setFieldEnum d s f (some val)
  | .enum d, true, s, f, val => setFieldEnumArray d s f (some val)

end ObusStruct

/-! ## The encoder -/

/-- `toInt` of a driver that may be `null`, of a constant that may be too. -/
def driverToInt (driver : Option EnumDriver) (val : Option Obj) : Except Exc (BitVec 32) :=
  match driver with
  | none => .error .nullPointer
  | some d => (valueOf (.enum d) val).map d.toInt

/-- `encodeValue`. -/
def encodeValue (cs : Charset) (f : FieldDesc) (val : Option Obj) : Write :=
  match f.fieldType with
  | .u64 => eval (valueOf .long val) >>= writeU64
  | .i64 => eval (valueOf .long val) >>= writeI64
  | .string => eval (castTo .string val) >>= writeString cs
  | .bool =>
    writeU8 (match val with
      | some (.boxed .boolean true) => 1
      | _ => 0)
  | .enum => eval (driverToInt f.driver val) >>= writeI32
  | .f32 => eval (valueOf .float val) >>= writeF32
  | .f64 => eval (valueOf .double val) >>= writeF64
  | _ => fail .illegalArgument

/-- `encodeValueInt`. -/
def encodeValueInt (f : FieldDesc) (val : BitVec 32) : Write :=
  match f.fieldType with
  | .u8 => writeU8 val
  | .i8 => writeI8 val
  | .u16 => writeU16 val
  | .i16 => writeI16 val
  | .u32 => writeU32 val
  | .i32 => writeI32 val
  | _ => fail .illegalArgument

/-- `encodeArray`. -/
def encodeArray (cs : Charset) (f : FieldDesc) (array : List (Option Obj)) : Write := do
  writeU32 (BitVec.ofNat 32 array.length)
  each (encodeValue cs f) array

/-- `encodeArrayInt`. -/
def encodeArrayInt (f : FieldDesc) (array : List (BitVec 32)) : Write := do
  writeU32 (BitVec.ofNat 32 array.length)
  each (encodeValueInt f) array

/-- The content of a field that is present. -/
def encodeKnown (cs : Charset) (f : FieldDesc) (field : Option Obj)
    (fieldInt : BitVec 32) : Write :=
  if f.fieldType.isInt then
    if f.isArray then eval (castToPrims .int field >>= unbox) >>= encodeArrayInt f
    else encodeValueInt f fieldInt
  else if f.isArray then eval (castToObjects field >>= unbox) >>= encodeArray cs f
  else encodeValue cs f field

/-- An iteration of the loop of `encode`. -/
def ObusStruct.encodeField (cs : Charset) (s : ObusStruct) (f : FieldDesc) : Write :=
  if s.hasField f then do
    writeU16 f.uid
    writeU8 f.type
    encodeKnown cs f (s.fields f.idx) (s.fieldsInt f.idx)
  else pure ()

/-- `encode`. -/
def ObusStruct.encode (cs : Charset) (s : ObusStruct) : Write := do
  writeU16 (BitVec.ofNat 32 (s.desc.fields.countP s.hasField))
  each (s.encodeField cs) s.desc.fields

/-! ## The decoder -/

/-- `fromInt` of a driver that may be `null`. -/
def driverFromInt (driver : Option EnumDriver) (val : BitVec 32) : Except Exc Obj :=
  match driver with
  | none => .error .nullPointer
  | some d => (d.fromInt val).map (Obj.boxed (.enum d))

/-- `decodeValue`. -/
def decodeValue (cs : Charset) (f : FieldDesc) : Read (Option Obj) :=
  match f.fieldType with
  | .u64 => (fun v => some (.boxed .long v)) <$> readU64
  | .i64 => (fun v => some (.boxed .long v)) <$> readI64
  | .string => Option.map (Obj.boxed .string) <$> readString cs
  | .bool => (fun v => some (.boxed .boolean (decide (v = 1)))) <$> readU8
  | .enum => readI32 >>= fun v => some <$> eval (driverFromInt f.driver v)
  | .f32 => (fun v => some (.boxed .float v)) <$> readF32
  | .f64 => (fun v => some (.boxed .double v)) <$> readF64
  | _ => fail (.decodeError (.unknownFieldType f.type.toNat))

/-- `decodeValueInt`. -/
def decodeValueInt (f : FieldDesc) : Read (BitVec 32) :=
  match f.fieldType with
  | .u8 => readU8
  | .i8 => readI8
  | .u16 => readU16
  | .i16 => readI16
  | .u32 => readU32
  | .i32 => readI32
  | _ => fail (.decodeError (.unknownFieldType f.type.toNat))

/-- The class of the array that `decodeArray` creates. -/
def arrayClass (f : FieldDesc) : Except Exc JavaType :=
  match f.fieldType with
  | .u64 => .ok .long
  | .i64 => .ok .long
  | .enum =>
    match f.driver with
    | none => .error .nullPointer
    | some d => .ok (.enum d)
  | .string => .ok .string
  | .bool => .ok .boolean
  | .f32 => .ok .float
  | .f64 => .ok .double
  | _ => .error (.decodeError (.unknownFieldType f.type.toNat))

/-- An entry that is stored in an array of a class. -/
def storeIn (c : JavaType) (val : Option Obj) : Except Exc (Option c.Val) :=
  match castTo c val with
  | .ok v => .ok v
  | .error _ => .error .arrayStore

/-- An iteration of the loop over the entries of an array. -/
def decodeItem (cs : Charset) (f : FieldDesc) (c : JavaType) (array : List (Option c.Val)) :
    Read (List (Option c.Val)) := do
  let val ← decodeValue cs f
  let item ← eval (storeIn c val)
  pure (array ++ [item])

/-- `decodeArray`. -/
def decodeArray (cs : Charset) (f : FieldDesc) : Read Obj := do
  let itemCount ← readU32
  let c ← eval (arrayClass f)
  let n ← newArray itemCount
  let array ← iter (decodeItem cs f c) n []
  pure (.refs c array)

/-- `decodeArrayInt`. -/
def decodeArrayInt (f : FieldDesc) : Read Obj := do
  let itemCount ← readU32
  let n ← newArray itemCount
  let array ← iter (fun array => do
    let item ← decodeValueInt f
    pure (array ++ [item])) n []
  pure (.prims .int array)

/-- `skipField`. -/
def skipField (cs : Charset) (fieldType : BitVec 32) : Read Unit :=
  match (fieldType &&& fieldMask).toNat with
  | 0 | 10 => (fun _ => ()) <$> readU8
  | 1 => (fun _ => ()) <$> readI8
  | 2 => (fun _ => ()) <$> readU16
  | 3 => (fun _ => ()) <$> readI16
  | 4 => (fun _ => ()) <$> readU32
  | 5 => (fun _ => ()) <$> readI32
  | 6 => (fun _ => ()) <$> readU64
  | 7 => (fun _ => ()) <$> readI64
  | 9 => (fun _ => ()) <$> readString cs
  | 8 => (fun _ => ()) <$> readI32
  | 11 => (fun _ => ()) <$> readF32
  | 12 => (fun _ => ()) <$> readF64
  | _ => fail (.decodeError (.unknownFieldType fieldType.toNat))

/-- `skipFieldArray`: a loop up to a number that may be negative. -/
def skipFieldArray (cs : Charset) (fieldType : BitVec 32) : Read Unit := do
  let itemCount ← readU32
  iter (fun _ => skipField cs fieldType) itemCount.toInt.toNat ()

/-- The two ways to skip a field. -/
def skip (cs : Charset) (fieldType : BitVec 32) : Read Unit :=
  if fieldType &&& fieldArray ≠ 0 then skipFieldArray cs fieldType else skipField cs fieldType

/-- The content of a field whose descriptor is known. -/
def decodeKnown (cs : Charset) (f : FieldDesc) (struct : ObusStruct) : Read ObusStruct :=
  if f.fieldType.isInt then
    if f.isArray then do
      let field ← decodeArrayInt f
      pure (struct.put f (some field))
    else do
      let field ← decodeValueInt f
      pure (struct.setFieldInt f field)
  else if f.isArray then do
    let field ← decodeArray cs f
    pure (struct.put f (some field))
  else do
    let field ← decodeValue cs f
    pure (struct.put f field)

/-- An iteration of the loop of `decode`. -/
def decodeField (cs : Charset) (desc : StructDesc) (struct : ObusStruct) : Read ObusStruct := do
  let uid ← readU16
  let fieldType ← readU8
  match desc.get uid with
  | none =>
    skip cs fieldType
    pure struct
  | some f =>
    if fieldType ≠ f.type then
      skip cs fieldType
      pure struct
    else decodeKnown cs f struct

/-- `decode`. -/
def ObusStruct.decode (cs : Charset) (desc : StructDesc) : Read ObusStruct := do
  let fieldCount ← readU16
  iter (decodeField cs desc) fieldCount.toNat (ObusStruct.create desc)

end Obus.Java
