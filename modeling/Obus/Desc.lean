import Obus.Buffer

/-!
# Descriptors and values

The static description of a bus (`struct obus_bus_desc` and what it points to) and the run-time
values that it describes.  Names, used in logs only, are left out; so are the struct offsets,
because a struct is modelled by its fields and not by its memory.

A value of a field has the type that its descriptor gives it (`FieldType.Val`), so that a struct
whose fields disagree with their descriptors cannot be built.
-/

namespace Obus

/-- The element types of `enum obus_field_type`, in the order of the source. -/
inductive BaseType where
  | u8 | i8 | u16 | i16 | u32 | i32 | u64 | i64 | enum | string | bool | f32 | f64
  deriving DecidableEq, Repr

namespace BaseType

/-- The number of a type in `enum obus_field_type`. -/
def code : BaseType → UInt8
  | u8 => 0 | i8 => 1 | u16 => 2 | i16 => 3 | u32 => 4 | i32 => 5 | u64 => 6 | i64 => 7
  | enum => 8 | string => 9 | bool => 10 | f32 => 11 | f64 => 12

/-- The type with a given number. -/
def ofCode? (c : UInt8) : Option BaseType :=
  [u8, i8, u16, i16, u32, i32, u64, i64, enum, string, bool, f32, f64][c.toNat]?

lemma ofCode?_code (t : BaseType) : ofCode? t.code = some t := by
  cases t <;> rfl

/-- The memory of one value: machine words as unsigned ones of the same width, an enumeration as the
32-bit word that its driver loads and stores, a float by its bits, a string possibly `NULL`. -/
abbrev Cell : BaseType → Type
  | u8 | i8 | bool => UInt8
  | u16 | i16 => UInt16
  | u32 | i32 | enum | f32 => UInt32
  | u64 | i64 | f64 => UInt64
  | string => Option CString

instance : (t : BaseType) → DecidableEq t.Cell
  | u8 | i8 | bool => inferInstanceAs (DecidableEq UInt8)
  | u16 | i16 => inferInstanceAs (DecidableEq UInt16)
  | u32 | i32 | enum | f32 => inferInstanceAs (DecidableEq UInt32)
  | u64 | i64 | f64 => inferInstanceAs (DecidableEq UInt64)
  | string => inferInstanceAs (DecidableEq (Option CString))

/-- Zeroed memory. -/
def zero : (t : BaseType) → t.Cell
  | u8 | i8 | bool => (0 : UInt8)
  | u16 | i16 => (0 : UInt16)
  | u32 | i32 | enum | f32 => (0 : UInt32)
  | u64 | i64 | f64 => (0 : UInt64)
  | string => none

/-- What an item of a new array holds: `calloc` zeroes it, and a string is set to the empty one. -/
def item : (t : BaseType) → t.Cell
  | string => some (CString.ofBytes [])
  | t => t.zero

/-- The value with a boolean normalised to 0 or 1. -/
def norm : (t : BaseType) → t.Cell → t.Cell
  | bool, v => if v = (0 : UInt8) then (0 : UInt8) else (1 : UInt8)
  | _, v => v

end BaseType

/-- A field holds one value or an array of them. -/
inductive FieldType where
  | value (t : BaseType)
  | array (t : BaseType)
  deriving DecidableEq, Repr

/-- The `uint8_t type` of a field: an array has the bit `OBUS_FIELD_ARRAY`. -/
def FieldType.code : FieldType → UInt8
  | .value t => t.code
  | .array t => t.code ||| 0x80

/-- `type & OBUS_FIELD_ARRAY`. -/
def isArrayCode (c : UInt8) : Bool := c &&& 0x80 != 0

/-- `type & OBUS_FIELD_MASK`. -/
def maskCode (c : UInt8) : UInt8 := c &&& 0x7f

@[simp] lemma isArrayCode_value (t : BaseType) : isArrayCode (FieldType.value t).code = false := by
  cases t <;> decide

@[simp] lemma isArrayCode_array (t : BaseType) : isArrayCode (FieldType.array t).code = true := by
  cases t <;> decide

@[simp] lemma ofCode?_maskCode_value (t : BaseType) :
    BaseType.ofCode? (maskCode (FieldType.value t).code) = some t := by
  cases t <;> decide

@[simp] lemma ofCode?_maskCode_array (t : BaseType) :
    BaseType.ofCode? (maskCode (FieldType.array t).code) = some t := by
  cases t <;> decide

/-- Two field types with the same code are the same. -/
lemma FieldType.code_inj {s t : FieldType} (h : s.code = t.code) : s = t := by
  have hmask : BaseType.ofCode? (maskCode s.code) = BaseType.ofCode? (maskCode t.code) := by rw [h]
  have harray : isArrayCode s.code = isArrayCode t.code := by rw [h]
  cases s with
  | value s =>
    cases t with
    | value t =>
      simp only [ofCode?_maskCode_value, Option.some.injEq] at hmask
      rw [hmask]
    | array t => simp at harray
  | array s =>
    cases t with
    | value t => simp at harray
    | array t =>
      simp only [ofCode?_maskCode_array, Option.some.injEq] at hmask
      rw [hmask]

/-- The memory of an array field: the item count and the allocated items.  A failed decoding leaves
the count without the items. -/
structure ArrayVal (t : BaseType) where
  /-- The `uint32_t` item count. -/
  nItems : UInt32
  /-- The allocated items. -/
  items : List t.Cell
  deriving DecidableEq

/-- The memory of a field. -/
abbrev FieldType.Val : FieldType → Type
  | .value t => t.Cell
  | .array t => ArrayVal t

instance : (t : FieldType) → DecidableEq t.Val
  | .value t => inferInstanceAs (DecidableEq t.Cell)
  | .array t => inferInstanceAs (DecidableEq (ArrayVal t))

namespace FieldType

/-- Zeroed memory. -/
def zero : (t : FieldType) → t.Val
  | .value t => t.zero
  | .array _ => ⟨0, []⟩

/-- The value with booleans normalised. -/
def norm : (t : FieldType) → t.Val → t.Val
  | .value t, v => t.norm v
  | .array t, v => { v with items := v.items.map t.norm }

/-- An array has as many items as its count says. -/
def Ok : (t : FieldType) → t.Val → Prop
  | .value _, _ => True
  | .array _, v => v.items.length = v.nItems.toNat

end FieldType

/-- `enum obus_field_role`. -/
inductive FieldRole where
  | property | method | argument
  deriving DecidableEq, Repr

/-- `struct obus_enum_driver`: its default value, and whether it is `obus_method_state_driver`.  The
generated drivers load and store the enumeration as a plain 32-bit word. -/
structure EnumDriver where
  default : UInt32
  isMethodState : Bool := false
  deriving DecidableEq, Repr

/-- `struct obus_field_desc`. -/
structure FieldDesc where
  uid : UInt16
  role : FieldRole
  type : FieldType
  /-- The driver, when the type is an enumeration. -/
  enumDrv : Option EnumDriver := none
  deriving DecidableEq, Repr

/-- `struct obus_struct_desc`. -/
abbrev StructDesc := List FieldDesc

/-- `struct obus_method_desc`; a method may have no argument struct. -/
structure MethodDesc where
  uid : UInt16
  argsDesc : Option StructDesc
  deriving DecidableEq, Repr

/-- `struct obus_event_desc`; an update is known by the uid of its field. -/
structure EventDesc where
  uid : UInt16
  updates : List UInt16
  deriving DecidableEq, Repr

/-- `struct obus_object_desc`. -/
structure ObjectDesc where
  uid : UInt16
  infoDesc : StructDesc
  events : List EventDesc
  methods : List MethodDesc
  deriving DecidableEq, Repr

/-- `struct obus_bus_event_desc`. -/
structure BusEventDesc where
  uid : UInt16
  deriving DecidableEq, Repr

/-- `struct obus_bus_desc`. -/
structure BusDesc where
  name : CString
  objects : List ObjectDesc
  events : List BusEventDesc
  crc : UInt32
  deriving DecidableEq

/-- The uids of a list are nonzero and pairwise distinct. -/
def UidsOk (uids : List UInt16) : Prop := uids.Nodup ∧ 0 ∉ uids

instance (uids : List UInt16) : Decidable (UidsOk uids) :=
  inferInstanceAs (Decidable (uids.Nodup ∧ 0 ∉ uids))

/-- The uids of a struct descriptor are usable. -/
def StructDesc.Ok (d : StructDesc) : Prop := UidsOk (d.map FieldDesc.uid)

instance (d : StructDesc) : Decidable d.Ok :=
  inferInstanceAs (Decidable (UidsOk (d.map FieldDesc.uid)))

/-- The uids of an object descriptor are usable, each kind in its own scope. -/
structure ObjectDesc.Ok (d : ObjectDesc) : Prop where
  info : d.infoDesc.Ok
  events : UidsOk (d.events.map EventDesc.uid)
  methods : UidsOk (d.methods.map MethodDesc.uid)
  args : ∀ m ∈ d.methods, ∀ a ∈ m.argsDesc, StructDesc.Ok a

/-- The uids of a bus descriptor are usable, each kind in its own scope. -/
structure BusDesc.Ok (d : BusDesc) : Prop where
  uids : UidsOk (d.objects.map ObjectDesc.uid)
  objects : ∀ o ∈ d.objects, o.Ok
  events : UidsOk (d.events.map BusEventDesc.uid)

/-! ## Looking up descriptors

The hash tables of `struct obus_bus_api` map a uid, or a pair of uids, to the descriptor inserted
under it.  Insertion refuses a key twice, so that a lookup finds the first descriptor with the uid.
-/

/-- `obus_bus_api_object`. -/
def BusDesc.object? (d : BusDesc) (uid : UInt16) : Option ObjectDesc :=
  if uid = 0 then none else d.objects.find? (·.uid = uid)

/-- `obus_bus_api_event`. -/
def BusDesc.event? (d : BusDesc) (objuid evtuid : UInt16) : Option EventDesc :=
  if evtuid = 0 then none
  else (d.object? objuid).bind fun o => o.events.find? (·.uid = evtuid)

/-- `obus_bus_api_method`. -/
def BusDesc.method? (d : BusDesc) (objuid mtduid : UInt16) : Option MethodDesc :=
  if mtduid = 0 then none
  else (d.object? objuid).bind fun o => o.methods.find? (·.uid = mtduid)

/-- `obus_bus_api_bus_event`. -/
def BusDesc.busEvent? (d : BusDesc) (uid : UInt16) : Option BusEventDesc :=
  if uid = 0 then none else d.events.find? (·.uid = uid)

/-- In a list with distinct uids a lookup finds the member. -/
lemma find?_uid {α β : Type} [DecidableEq β] {uid : α → β} {l : List α}
    (h : (l.map uid).Nodup) {a : α}
    (ha : a ∈ l) : l.find? (fun x => decide (uid x = uid a)) = some a := by
  induction l with
  | nil => simp at ha
  | cons x l ih =>
    rw [List.map_cons, List.nodup_cons] at h
    rcases List.mem_cons.mp ha with rfl | ha
    · simp
    · have hne : uid x ≠ uid a := fun hx => h.1 (List.mem_map.mpr ⟨a, ha, hx.symm⟩)
      rw [List.find?_cons, decide_eq_false hne]
      exact ih h.2 ha

namespace BusDesc.Ok

variable {d : BusDesc}

lemma object? (h : d.Ok) {o : ObjectDesc} (ho : o ∈ d.objects) : d.object? o.uid = some o := by
  have hne : o.uid ≠ 0 := fun h0 => h.uids.2 (h0 ▸ List.mem_map_of_mem ho)
  rw [BusDesc.object?, if_neg hne]
  exact find?_uid h.uids.1 ho

lemma event? (h : d.Ok) {o : ObjectDesc} (ho : o ∈ d.objects) {e : EventDesc} (he : e ∈ o.events) :
    d.event? o.uid e.uid = some e := by
  have hev := (h.objects o ho).events
  have hne : e.uid ≠ 0 := fun h0 => hev.2 (h0 ▸ List.mem_map_of_mem he)
  rw [BusDesc.event?, if_neg hne, h.object? ho]
  exact find?_uid hev.1 he

lemma method? (h : d.Ok) {o : ObjectDesc} (ho : o ∈ d.objects) {m : MethodDesc}
    (hm : m ∈ o.methods) : d.method? o.uid m.uid = some m := by
  have hmt := (h.objects o ho).methods
  have hne : m.uid ≠ 0 := fun h0 => hmt.2 (h0 ▸ List.mem_map_of_mem hm)
  rw [BusDesc.method?, if_neg hne, h.object? ho]
  exact find?_uid hmt.1 hm

lemma busEvent? (h : d.Ok) {e : BusEventDesc} (he : e ∈ d.events) : d.busEvent? e.uid = some e := by
  have hne : e.uid ≠ 0 := fun h0 => h.events.2 (h0 ▸ List.mem_map_of_mem he)
  rw [BusDesc.busEvent?, if_neg hne]
  exact find?_uid h.events.1 he

end BusDesc.Ok

end Obus
