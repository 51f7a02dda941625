import Obus.Desc
import Obus.Python.Buffer

/-!
# Structures of the Python library

The descriptors of fields of `descriptors.py`, and the codec of `obus_struct.py`.  A structure keeps
the values of its fields in a dictionary under their names; a field that is not there has no entry,
and a field may be `None`.  The encoder writes whatever value it finds, if `struct` takes it.

The decoder reads the fields in any order, and skips those whose uid it does not know or whose type
is another one.  A dictionary with a fixed order is a list; one that is only looked up is a
function.
-/

namespace Obus.Python

open Fallible Cursor

/-! ## Descriptors -/

/-- `fieldType&OBUS_FIELD_MASK`, with the constants of `FieldType`. -/
def baseType? (type : ℕ) : Option BaseType :=
  [.u8, .i8, .u16, .i16, .u32, .i32, .u64, .i64, .enum, .string, .bool, .f32, .f64][type &&& 0x7f]?

/-- `(fieldType&OBUS_FIELD_ARRAY) != 0`. -/
def isArrayType (type : ℕ) : Bool := type &&& 0x80 != 0

/-- `FieldDriverEnum`, with the labels of its `Enum` and their numbers. -/
structure EnumDriver where
  items : List (List UInt8 × ℤ)
  names : (items.map Prod.fst).Nodup
  deriving DecidableEq

/-- The number of a label. -/
def EnumDriver.numberOf (d : EnumDriver) (name : List UInt8) : Except Exc ℤ :=
  match d.items.find? fun i => i.1 = name with
  | some i => .ok i.2
  | none => .error .keyError

/-- `Enum.toInt`: only a string can be a key, and a list is refused as one.  A string of characters
is the same key as its bytes in ASCII. -/
def EnumDriver.toInt (d : EnumDriver) : Value → Except Exc ℤ
  | .str name => d.numberOf name
  | .unicode name =>
    match asciiBytes name with
    | some name => d.numberOf name
    | none => .error .keyError
  | .list _ => .error .typeError
  | .none | .bool _ | .int _ | .float _ => .error .keyError

/-- `FieldDriverEnum.fromInt`: the first label with the number. -/
def EnumDriver.fromInt (d : EnumDriver) (n : ℤ) : Except Exc Value :=
  match d.items.find? fun i => i.2 = n with
  | some i => .ok (.str i.1)
  | none => .error (.decodeError (.invalidEnum n))

/-- `FieldDesc`. -/
structure FieldDesc where
  name : List UInt8
  uid : ℕ
  type : ℕ
  driver : Option EnumDriver
  deriving DecidableEq

/-- `StructDesc`: the fields in the order of the dictionary, whose keys are their uids. -/
structure StructDesc where
  fieldsDesc : List FieldDesc
  uids : (fieldsDesc.map FieldDesc.uid).Nodup
  deriving DecidableEq

/-- `fieldsDesc.get`. -/
def StructDesc.get (desc : StructDesc) (uid : ℕ) : Option FieldDesc :=
  desc.fieldsDesc.find? fun f => f.uid = uid

/-- `ObusStruct`: the values of the fields by their names. -/
structure ObusStruct where
  desc : StructDesc
  fields : List UInt8 → Option Value

/-! ## Fields -/

/-- `fieldDesc.driver.toInt`. -/
def FieldDesc.toInt (f : FieldDesc) (val : Value) : Except Exc ℤ :=
  match f.driver with
  | some d => d.toInt val
  | none => .error .attributeError

/-- `fieldDesc.driver.fromInt`. -/
def FieldDesc.fromInt (f : FieldDesc) (n : ℤ) : Except Exc Value :=
  match f.driver with
  | some d => d.fromInt n
  | none => .error .attributeError

section Codec

variable (fl : Floats)

/-- `_encodeField`. -/
def encodeField (f : FieldDesc) (val : Value) : Py Unit :=
  match baseType? f.type with
  | some .bool =>
    match val with
    | .bool true => writeU8 1
    | _ => writeU8 0
  | some .u8 => lift (packInt fl val) >>= writeU8
  | some .i8 => lift (packInt fl val) >>= writeI8
  | some .u16 => lift (packInt fl val) >>= writeU16
  | some .i16 => lift (packInt fl val) >>= writeI16
  | some .u32 => lift (packInt fl val) >>= writeU32
  | some .i32 => lift (packInt fl val) >>= writeI32
  | some .u64 => lift (packInt fl val) >>= writeU64
  | some .i64 => lift (packInt fl val) >>= writeI64
  | some .string => writeString val
  | some .enum => lift (f.toInt val) >>= writeI32
  | some .f32 => lift (packFloat fl val) >>= writeF32 fl
  | some .f64 => lift (packFloat fl val) >>= writeF64
  | none => fail .valueError

/-- `_decodeField`.  The text of the last exception cannot be made, and a `TypeError` is raised
instead. -/
def decodeField (f : FieldDesc) : Py Value :=
  match baseType? f.type with
  | some .bool => (fun n => .bool (n = 1)) <$> readU8
  | some .u8 => (fun n : ℕ => .int n) <$> readU8
  | some .i8 => Value.int <$> readI8
  | some .u16 => (fun n : ℕ => .int n) <$> readU16
  | some .i16 => Value.int <$> readI16
  | some .u32 => (fun n : ℕ => .int n) <$> readU32
  | some .i32 => Value.int <$> readI32
  | some .u64 => (fun n : ℕ => .int n) <$> readU64
  | some .i64 => Value.int <$> readI64
  | some .string => readString
  | some .enum => readI32 >>= fun n => lift (f.fromInt n)
  | some .f32 => Value.float <$> readF32 fl
  | some .f64 => Value.float <$> readF64
  | none => fail .typeError

/-- `_skipField`, with the same slip. -/
def skipField (type : ℕ) : Py Unit :=
  match baseType? type with
  | some .bool | some .u8 => (fun _ => ()) <$> readU8
  | some .i8 => (fun _ => ()) <$> readI8
  | some .u16 => (fun _ => ()) <$> readU16
  | some .i16 => (fun _ => ()) <$> readI16
  | some .u32 => (fun _ => ()) <$> readU32
  | some .i32 | some .enum => (fun _ => ()) <$> readI32
  | some .u64 => (fun _ => ()) <$> readU64
  | some .i64 => (fun _ => ()) <$> readI64
  | some .string => (fun _ => ()) <$> readString
  | some .f32 => (fun _ => ()) <$> readF32 fl
  | some .f64 => (fun _ => ()) <$> readF64
  | none => fail .typeError

/-- The items of a value as `len` and a loop find them: those of a list, or the characters of a
string. -/
def Value.items : Value → Except Exc (List Value)
  | .list l => .ok l
  | .str s => .ok (s.map fun c => .str [c])
  | .unicode s => .ok (s.map fun c => .unicode [c])
  | .none | .bool _ | .int _ | .float _ => .error .typeError

/-- `_encodeArray`. -/
def encodeArray (f : FieldDesc) (array : Value) : Py Unit := do
  let items ← lift array.items
  writeU32 items.length
  each (encodeField fl f) items

/-- `_decodeArray`. -/
def decodeArray (f : FieldDesc) : Py Value := do
  let itemCount ← readU32
  let array ← iter (fun array => decodeField fl f >>= fun item => pure (array ++ [item]))
      itemCount []
  pure (.list array)

/-- `_skipArray`. -/
def skipArray (type : ℕ) : Py Unit := do
  let itemCount ← readU32
  iter (fun _ => skipField fl type) itemCount ()

/-- The two branches of the encoder for a field. -/
def encodeValue (f : FieldDesc) (val : Value) : Py Unit :=
  if isArrayType f.type then encodeArray fl f val else encodeField fl f val

/-- The two branches of the decoder for a field that it keeps. -/
def decodeValue (f : FieldDesc) : Py Value :=
  if isArrayType f.type then decodeArray fl f else decodeField fl f

/-- The two branches of the decoder for a field that it skips. -/
def skipValue (type : ℕ) : Py Unit :=
  if isArrayType type then skipArray fl type else skipField fl type

end Codec

/-! ## Structures -/

namespace ObusStruct

/-- `ObusStruct.create`. -/
def create (desc : StructDesc) : ObusStruct := ⟨desc, fun _ => none⟩

/-- `hasField`. -/
def hasField (st : ObusStruct) (f : FieldDesc) : Bool := (st.fields f.name).isSome

/-- `setField`. -/
def setField (st : ObusStruct) (f : FieldDesc) (val : Value) : ObusStruct :=
  { st with fields := Function.update st.fields f.name (some val) }

/-- One field of `merge`. -/
def mergeField (other st : ObusStruct) (f : FieldDesc) : ObusStruct :=
  match other.fields f.name with
  | some val => st.setField f val
  | none => st

/-- `merge`.  Equal descriptors are taken for the same one. -/
def merge (st other : ObusStruct) : Except Exc ObusStruct :=
  if st.desc ≠ other.desc then .error .exception
  else .ok (st.desc.fieldsDesc.foldl (mergeField other) st)

variable (fl : Floats)

/-- One present field of `encode`. -/
def encodeEntry (st : ObusStruct) (f : FieldDesc) : Py Unit := do
  writeU16 f.uid
  writeU8 f.type
  encodeValue fl f ((st.fields f.name).getD .none)

/-- `encode`: the number of present fields, then these fields. -/
def encode (st : ObusStruct) : Py Unit := do
  writeU16 (st.desc.fieldsDesc.filter st.hasField).length
  each (st.encodeEntry fl) (st.desc.fieldsDesc.filter st.hasField)

/-- One field of `decode`: it is kept if its uid is known and its type is that of the descriptor. -/
def decodeEntry (desc : StructDesc) (st : ObusStruct) : Py ObusStruct := do
  let uid ← readU16
  let fieldType ← readU8
  match desc.get uid with
  | none => do
    skipValue fl fieldType
    pure st
  | some f =>
    if f.type ≠ fieldType then do
      skipValue fl fieldType
      pure st
    else do
      let val ← decodeValue fl f
      pure (st.setField f val)

/-- `decode`. -/
def decode (desc : StructDesc) : Py ObusStruct := do
  let fieldCount ← readU16
  iter (decodeEntry fl desc) fieldCount (create desc)

end ObusStruct

/-! ## Small facts -/

lemma baseType?_value (t : BaseType) : baseType? (FieldType.value t).code.toNat = some t := by
  cases t <;> rfl

lemma baseType?_array (t : BaseType) : baseType? (FieldType.array t).code.toNat = some t := by
  cases t <;> rfl

lemma isArrayType_value (t : BaseType) : isArrayType (FieldType.value t).code.toNat = false := by
  cases t <;> rfl

lemma isArrayType_array (t : BaseType) : isArrayType (FieldType.array t).code.toNat = true := by
  cases t <;> rfl

namespace StructDesc

variable {desc : StructDesc} {f g : FieldDesc}

lemma mem_of_get {uid : ℕ} (h : desc.get uid = some f) : f ∈ desc.fieldsDesc ∧ f.uid = uid := by
  have huid := List.find?_some (p := fun f : FieldDesc => decide (f.uid = uid)) h
  exact ⟨List.mem_of_find?_eq_some h, of_decide_eq_true huid⟩

lemma get_of_mem (hf : f ∈ desc.fieldsDesc) : desc.get f.uid = some f := by
  cases hget : desc.get f.uid with
  | none => exact absurd (decide_eq_true rfl) (List.find?_eq_none.mp hget f hf)
  | some g =>
    obtain ⟨hg, huid⟩ := mem_of_get hget
    rw [List.inj_on_of_nodup_map desc.uids hg hf huid]

end StructDesc

namespace ObusStruct

variable {st other : ObusStruct} {f : FieldDesc} {name : List UInt8}

@[simp] lemma setField_desc (st : ObusStruct) (f : FieldDesc) (val : Value) :
    (st.setField f val).desc = st.desc := rfl

@[simp] lemma setField_self (st : ObusStruct) (f : FieldDesc) (val : Value) :
    (st.setField f val).fields f.name = some val := Function.update_self _ _ _

lemma setField_of_ne (st : ObusStruct) {f : FieldDesc} (val : Value) (h : name ≠ f.name) :
    (st.setField f val).fields name = st.fields name := Function.update_of_ne h _ _

@[simp] lemma mergeField_desc (other st : ObusStruct) (f : FieldDesc) :
    (mergeField other st f).desc = st.desc := by
  unfold mergeField
  split <;> rfl

/-- What is under a name after fields have been merged. -/
lemma foldl_mergeField (l : List FieldDesc) (st : ObusStruct) :
    (l.foldl (mergeField other) st).desc = st.desc ∧
    ∀ name, (l.foldl (mergeField other) st).fields name =
      if name ∈ l.map FieldDesc.name then (other.fields name).or (st.fields name)
        else st.fields name := by
  induction l generalizing st with
  | nil => exact ⟨rfl, fun _ => rfl⟩
  | cons f l ih =>
    obtain ⟨hdesc, hfields⟩ := ih (mergeField other st f)
    refine ⟨hdesc.trans (mergeField_desc other st f), fun name => ?_⟩
    rw [List.foldl_cons, hfields name, List.map_cons]
    by_cases hname : name = f.name
    · subst hname
      have hfirst : (mergeField other st f).fields f.name = (other.fields f.name).or
          (st.fields f.name) := by
        unfold mergeField
        cases hother : other.fields f.name with
        | none => rfl
        | some val => exact setField_self st f val
      rw [if_pos List.mem_cons_self, hfirst]
      split
      · cases other.fields f.name <;> rfl
      · rfl
    · have hfirst : (mergeField other st f).fields name = st.fields name := by
        unfold mergeField
        split
        · exact setField_of_ne st _ hname
        · rfl
      rw [hfirst]
      simp only [List.mem_cons, hname, false_or]

/-- Merging succeeds where the descriptors are the same, and takes over the fields that the other
structure has. -/
lemma merge_spec (h : st.desc = other.desc) : ∃ m, st.merge other = .ok m ∧ m.desc = st.desc ∧
    ∀ f ∈ st.desc.fieldsDesc, m.fields f.name = (other.fields f.name).or (st.fields f.name) := by
  obtain ⟨hdesc, hfields⟩ := @foldl_mergeField other st.desc.fieldsDesc st
  refine ⟨_, if_neg (not_not.mpr h), hdesc, fun f hf => ?_⟩
  rw [hfields, if_pos (List.mem_map_of_mem hf)]

end ObusStruct

end Obus.Python
