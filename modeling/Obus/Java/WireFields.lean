import Obus.Java.StructRoundTrip
import Obus.WireStrings

/-!
# Fields of the C library in the Java library

Both libraries have fields of the same types.  What a field holds is a word or a string, or a list
of them (`Reading`); a number that is an `int` in Java is compared as one, a string by its bytes,
and an absent string counts as empty.

The decoder of the Java library reads the bytes that the encoder of the C library has written for a
struct (`yields_structWire`), unless one of its strings takes more than 65535 bytes
(`rejects_structWire`).  A string that is on the wire without any bytes leaves no object in the
table, although its field is present.
-/

namespace Obus.Java

open Fallible

/-! ## What fields hold -/

/-- What a value is: a word by its bits, a string by its bytes. -/
inductive Datum where
  | bits (n : ℕ)
  | text (bs : List UInt8)
  deriving DecidableEq

/-- What a field holds. -/
inductive Reading where
  | value (d : Datum)
  | array (ds : List Datum)
  deriving DecidableEq

/-- A value of the C library. -/
def cellDatum : (t : BaseType) → t.Cell → Datum
  | .u8, v => .bits (UInt8.toNat v)
  | .i8, v => .bits ((UInt8.toBitVec v).signExtend 32).toNat
  | .u16, v => .bits (UInt16.toNat v)
  | .i16, v => .bits ((UInt16.toBitVec v).signExtend 32).toNat
  | .u32, v | .i32, v | .enum, v | .f32, v => .bits (UInt32.toNat v)
  | .u64, v | .i64, v | .f64, v => .bits (UInt64.toNat v)
  | .bool, v => .bits (if v = (0 : UInt8) then 0 else 1)
  | .string, v => .text (Option.elim v [] Subtype.val)

/-- The memory of a field of the C library. -/
def valReading : (t : Obus.FieldType) → t.Val → Reading
  | .value t, v => .value (cellDatum t v)
  | .array t, v => .array (v.items.map (cellDatum t))

/-- A value of the Java library. -/
def JavaType.datum (cs : Charset) : (c : JavaType) → c.Val → Datum
  | .int, v => .bits (BitVec.toNat v)
  | .long, v => .bits (BitVec.toNat v)
  | .string, v => .text (cs.getBytes v)
  | .boolean, v => .bits (Bool.toNat v)
  | .float, v => .bits (BitVec.toNat v)
  | .double, v => .bits (BitVec.toNat v)
  | .enum d, v => .bits (d.toInt v).toNat

/-- A reference of the Java library; a string may be `null`. -/
def refDatum (cs : Charset) (c : JavaType) : Option c.Val → Option Datum
  | some v => some (c.datum cs v)
  | none => if c = .string then some (.text []) else none

/-- An array of the Java library. -/
def arrayReading (cs : Charset) : Option Obj → Option Reading
  | some (.prims c a) => some (.array (a.map (c.datum cs)))
  | some (.refs c a) => (a.mapM (refDatum cs c)).map .array
  | some (.boxed _ _) => none
  | none => none

/-- An object of the Java library that is no array. -/
def objectReading (cs : Charset) (f : FieldDesc) : Option Obj → Option Reading
  | some (.boxed c v) => some (.value (c.datum cs v))
  | some (.prims _ _) => none
  | some (.refs _ _) => none
  | none => if f.fieldType = .string then some (.value (.text [])) else none

/-- The entries of the two tables for a field. -/
def reading (cs : Charset) (f : FieldDesc) (field : Option Obj) (fieldInt : BitVec 32) :
    Option Reading :=
  if f.isArray then arrayReading cs field
  else if f.fieldType.isInt then field.map fun _ => .value (.bits fieldInt.toNat)
  else objectReading cs f field

/-- A field of a structure of the Java library. -/
def ObusStruct.reading (cs : Charset) (s : ObusStruct) (f : FieldDesc) : Option Reading :=
  Java.reading cs f (s.fields f.idx) (s.fieldsInt f.idx)

/-! ## The same field in both libraries -/

/-- The descriptors of a field in both libraries. -/
structure SameField (d : Obus.FieldDesc) (f : FieldDesc) : Prop where
  uid : f.uid.toNat = d.uid.toNat
  type : f.type.toNat = d.type.code.toNat

/-- A type of the C library. -/
def ofBase : BaseType → FieldType
  | .u8 => .u8
  | .i8 => .i8
  | .u16 => .u16
  | .i16 => .i16
  | .u32 => .u32
  | .i32 => .i32
  | .u64 => .u64
  | .i64 => .i64
  | .enum => .enum
  | .string => .string
  | .bool => .bool
  | .f32 => .f32
  | .f64 => .f64

lemma ofBase_inj {a b : BaseType} (h : ofBase a = ofBase b) : a = b := by
  cases a <;> cases b <;> first | rfl | cases h

lemma FieldType.code_eq {t : FieldType} {b : BaseType} (h : t.code.toNat = b.code.toNat) :
    t = ofBase b := by
  cases t <;> cases b <;> first | rfl | exact absurd h (by decide)

lemma FieldType.code_array_eq {t : FieldType} {b : BaseType}
    (h : (t.code ||| fieldArray).toNat = (b.code ||| 0x80).toNat) : t = ofBase b := by
  cases t <;> cases b <;> first | rfl | exact absurd h (by decide)

lemma FieldType.code_ne_array {t : FieldType} {b : BaseType} :
    t.code.toNat ≠ (b.code ||| 0x80).toNat ∧
    (t.code ||| fieldArray).toNat ≠ b.code.toNat := by
  have hlt : t.code.toNat < 16 := by cases t <;> decide
  have hlt' : b.code.toNat < 16 := by cases b <;> decide
  have hge : 128 ≤ (t.code ||| fieldArray).toNat := by cases t <;> decide
  have hge' : 128 ≤ (b.code ||| 0x80).toNat := by cases b <;> decide
  omega

section Types

variable {f : FieldDesc} {t : BaseType}

lemma isArray_of_value (htype : f.type.toNat = (Obus.FieldType.value t).code.toNat) :
    f.isArray = false ∧ f.fieldType = ofBase t := by
  rw [FieldDesc.type] at htype
  cases harray : f.isArray with
  | false =>
    rw [harray] at htype
    exact ⟨rfl, FieldType.code_eq htype⟩
  | true =>
    rw [harray] at htype
    exact absurd htype FieldType.code_ne_array.2

lemma isArray_of_array (htype : f.type.toNat = (Obus.FieldType.array t).code.toNat) :
    f.isArray = true ∧ f.fieldType = ofBase t := by
  rw [FieldDesc.type] at htype
  cases harray : f.isArray with
  | false =>
    rw [harray] at htype
    exact absurd htype FieldType.code_ne_array.1
  | true =>
    rw [harray] at htype
    exact ⟨rfl, FieldType.code_array_eq htype⟩

end Types

/-! ## Values -/

/-- The Java decoder takes a string that is on the wire. -/
def ItemShort : (t : BaseType) → t.Cell → Prop
  | .string, v => ∀ s ∈ sentString v, s.val.length < 65535
  | _, _ => True

/-- The charset keeps a string that is on the wire. -/
def ItemKept (cs : Charset) : (t : BaseType) → t.Cell → Prop
  | .string, v => ∀ s ∈ sentString v, cs.getBytes (cs.newString s.val) = s.val
  | _, _ => True

/-- The driver of an enumeration has a constant for a value. -/
def ItemDeclared (f : FieldDesc) : (t : BaseType) → t.Cell → Prop
  | .enum, v => ∀ d ∈ f.driver, UInt32.toBitVec v ∈ d.values
  | _, _ => True

/-- A string is on the wire without any bytes. -/
def ItemAbsent : (t : BaseType) → t.Cell → Prop
  | .string, v => sentString v = none
  | _, _ => False

/-- A value as it arrives in the Java library. -/
def itemArrives (cs : Charset) : (t : BaseType) → t.Cell → Datum
  | .string, v => .text (Option.elim (sentString v) [] fun s => cs.getBytes (cs.newString s.val))
  | t, v => cellDatum t v

lemma itemArrives_eq_iff {cs : Charset} (t : BaseType) (v : t.Cell) :
    itemArrives cs t v = cellDatum t (t.onWire v) ↔ ItemKept cs t v := by
  cases t with
  | string =>
    change Datum.text (Option.elim (sentString v) [] fun s => cs.getBytes (cs.newString s.val)) =
      Datum.text (Option.elim (sentString v) [] Subtype.val) ↔
      ∀ s ∈ sentString v, cs.getBytes (cs.newString s.val) = s.val
    rw [Datum.text.injEq]
    cases sentString v with
    | none => simp
    | some s => simp
  | _ => exact iff_of_true rfl trivial

section Values

variable {cs : Charset} {f : FieldDesc}

/-- The number that `decodeValueInt` reads. -/
lemma yields_wireInt (hint : f.fieldType.isInt = true) {t : BaseType}
    (htype : f.fieldType = ofBase t) (v : t.Cell) :
    ∃ n : BitVec 32, Yields (decodeValueInt f) (t.wire v) n ∧
    Datum.bits n.toNat = itemArrives cs t v := by
  rw [htype] at hint
  unfold decodeValueInt
  rw [htype]
  cases t with
  | u8 =>
    have hread := yields_readU8 (BitVec.ofNat 32 (UInt8.toNat v))
    have hlt := UInt8.toNat_lt v
    have hnat : (BitVec.ofNat 32 (UInt8.toNat v)).toNat = UInt8.toNat v := toNat_size (by omega)
    rw [setWidth_of_lt (by decide) (by rw [hnat]; exact hlt), hnat] at hread
    exact ⟨_, hread, congrArg Datum.bits hnat⟩
  | i8 =>
    have hread := yields_readI8 ((UInt8.toBitVec v).setWidth 32)
    have hnat : ((UInt8.toBitVec v).setWidth 32).toNat = UInt8.toNat v := by
      rw [BitVec.toNat_setWidth, Nat.mod_eq_of_lt]
      · rfl
      · exact (UInt8.toNat_lt v).trans (by decide)
    rw [hnat, BitVec.setWidth_setWidth_of_le _ (by decide), BitVec.setWidth_eq] at hread
    exact ⟨_, hread, rfl⟩
  | u16 =>
    have hread := yields_readU16 (BitVec.ofNat 32 (UInt16.toNat v))
    have hlt := UInt16.toNat_lt v
    have hnat : (BitVec.ofNat 32 (UInt16.toNat v)).toNat = UInt16.toNat v := toNat_size (by omega)
    rw [setWidth_of_lt (by decide) (by rw [hnat]; exact hlt), hnat] at hread
    exact ⟨_, hread, congrArg Datum.bits hnat⟩
  | i16 =>
    have hread := yields_readI16 ((UInt16.toBitVec v).setWidth 32)
    have hnat : ((UInt16.toBitVec v).setWidth 32).toNat = UInt16.toNat v := by
      rw [BitVec.toNat_setWidth, Nat.mod_eq_of_lt]
      · rfl
      · exact (UInt16.toNat_lt v).trans (by decide)
    rw [hnat, BitVec.setWidth_setWidth_of_le _ (by decide), BitVec.setWidth_eq] at hread
    exact ⟨_, hread, rfl⟩
  | u32 | i32 => exact ⟨UInt32.toBitVec v, yields_getInt_word (UInt32.toBitVec v), rfl⟩
  | u64 | i64 | enum | string | bool | f32 | f64 => cases hint

lemma stringBytes_length_of_some {v : Option CString} {s : CString} (hs : sentString v = some s) :
    (Obus.stringBytes v).length = s.val.length + 5 := by
  rcases stringBytes_cases v with ⟨hnone, -⟩ | ⟨s', last, hsome, -, hbytes⟩
  · rw [hnone] at hs
    cases hs
  · rw [hsome] at hs
    cases hs
    rw [hbytes, List.length_append, List.length_append, bigEndian_length, List.length_singleton]
    omega

/-- The reference that `decodeValue` reads: it is `null` for a string without bytes only. -/
lemma yields_wireRef (hint : f.fieldType.isInt = false) {t : BaseType}
    (htype : f.fieldType = ofBase t) {v : t.Cell}
    (hshort : ItemShort t v) (hdecl : ItemDeclared f t v) :
    ∃ o : Option f.javaType.Val, Yields (decodeValue cs f) (t.wire v)
      (o.map (Obj.boxed f.javaType)) ∧
      refDatum cs f.javaType o = some (itemArrives cs t v) ∧ (o = none ↔ ItemAbsent t v) := by
  obtain ⟨uid, base, isArray, idx⟩ := f
  cases base with
  | uint8 | int8 | uint16 | int16 | uint32 | int32 | handle => cases hint
  | uint64 =>
    obtain rfl : BaseType.u64 = t := ofBase_inj htype
    exact ⟨some (UInt64.toBitVec v), (yields_getLong (UInt64.toBitVec v)).map, rfl,
      iff_of_false (Option.some_ne_none _) id⟩
  | int64 =>
    obtain rfl : BaseType.i64 = t := ofBase_inj htype
    exact ⟨some (UInt64.toBitVec v), (yields_getLong (UInt64.toBitVec v)).map, rfl,
      iff_of_false (Option.some_ne_none _) id⟩
  | float =>
    obtain rfl : BaseType.f32 = t := ofBase_inj htype
    exact ⟨some (UInt32.toBitVec v), (yields_getInt_word (UInt32.toBitVec v)).map, rfl,
      iff_of_false (Option.some_ne_none _) id⟩
  | double =>
    obtain rfl : BaseType.f64 = t := ofBase_inj htype
    exact ⟨some (UInt64.toBitVec v), (yields_getLong (UInt64.toBitVec v)).map, rfl,
      iff_of_false (Option.some_ne_none _) id⟩
  | bool =>
    obtain rfl : BaseType.bool = t := ofBase_inj htype
    refine ⟨some (decide (v ≠ (0 : UInt8))), ?_, ?_, iff_of_false (Option.some_ne_none _) id⟩
    · by_cases hv : v = (0 : UInt8)
      · subst hv
        exact (yields_readU8 0).map
      · have hbyte : BaseType.wire .bool v = bigEndian 1 (1 : BitVec 32).toNat := by
          change bigEndian 1 (if v = (0 : UInt8) then (0 : UInt8) else 1).toNat = _
          rw [if_neg hv]
          rfl
        rw [hbyte, decide_eq_true hv]
        exact (yields_readU8 1).map
    · by_cases hv : v = (0 : UInt8)
      · subst hv
        rfl
      · change some (Datum.bits _) = some (Datum.bits (if v = (0 : UInt8) then 0 else 1))
        rw [if_neg hv, decide_eq_true hv]
        rfl
  | enum d =>
    obtain rfl : BaseType.enum = t := ofBase_inj htype
    obtain ⟨k, hk, hget⟩ := List.mem_iff_getElem.mp (hdecl d rfl)
    have hconst : d.toInt ⟨k, hk⟩ = UInt32.toBitVec v := hget
    refine ⟨some ⟨k, hk⟩, ?_, ?_, iff_of_false (Option.some_ne_none _) id⟩
    · have hread := yields_const d ⟨k, hk⟩
      rwa [hconst] at hread
    · change some (Datum.bits (d.toInt ⟨k, hk⟩).toNat) = _
      rw [hconst]
      rfl
  | string =>
    obtain rfl : BaseType.string = t := ofBase_inj htype
    rcases stringBytes_cases v with ⟨hnone, hbytes⟩ | ⟨s, last, hsome, -, hbytes⟩
    · refine ⟨none, ?_, ?_, iff_of_true rfl hnone⟩
      · change Yields _ (Obus.stringBytes v) _
        rw [hbytes]
        exact (yields_readString_null cs).map
      · change some (Datum.text []) = some (Datum.text _)
        rw [hnone]
        rfl
    · refine ⟨some (cs.newString s.val), ?_, ?_, iff_of_false (Option.some_ne_none _) fun h => ?_⟩
      · change Yields _ (Obus.stringBytes v) _
        rw [hbytes]
        exact (yields_readString_bytes cs last (hshort s hsome)).map
      · change some (Datum.text _) = some (Datum.text _)
        rw [hsome]
        rfl
      · have hnone : sentString v = none := h
        rw [hsome] at hnone
        cases hnone

/-- A string that is too long is refused. -/
lemma rejects_wireRef {t : BaseType} (htype : f.fieldType = ofBase t) {v : t.Cell}
    (hlong : ¬ItemShort t v)
    (hsmall : (t.wire v).length < 2 ^ 31) : Rejects (decodeValue cs f) (t.wire v) := by
  obtain ⟨uid, base, isArray, idx⟩ := f
  cases t with
  | string =>
    cases base with
    | string =>
      unfold ItemShort at hlong
      push Not at hlong
      obtain ⟨s, hs, hlength⟩ := hlong
      have hsize : (Obus.stringBytes v).length = s.val.length + 5 := stringBytes_length_of_some hs
      rcases stringBytes_cases v with ⟨hnone, -⟩ | ⟨s', last, hsome, -, hbytes⟩
      · rw [hnone] at hs
        cases hs
      · obtain rfl : s' = s := Option.some_inj.mp (hsome.symm.trans hs)
        change (Obus.stringBytes v).length < 2 ^ 31 at hsmall
        change Rejects _ (Obus.stringBytes v)
        rw [hbytes]
        exact (rejects_readString_size cs (by omega) (by omega) _).map
    | _ => cases htype
  | _ => exact absurd trivial hlong

end Values

/-! ## Fields -/

/-- A condition on each value of a field. -/
def EachItem (P : (t : BaseType) → t.Cell → Prop) : (t : Obus.FieldType) → t.Val → Prop
  | .value t, v => P t v
  | .array t, v => ∀ c ∈ v.items, P t c

/-- A string field is on the wire without any bytes. -/
def FieldAbsent : (t : Obus.FieldType) → t.Val → Prop
  | .value t, v => ItemAbsent t v
  | .array _, _ => False

/-- The memory of a field as it arrives in the Java library. -/
def valArrives (cs : Charset) : (t : Obus.FieldType) → t.Val → Reading
  | .value t, v => .value (itemArrives cs t v)
  | .array t, v => .array (v.items.map (itemArrives cs t))

lemma valArrives_eq_iff {cs : Charset} (t : Obus.FieldType) (v : t.Val) :
    valArrives cs t v = valReading t (t.onWire v) ↔ EachItem (ItemKept cs) t v := by
  cases t with
  | value t =>
    change Reading.value _ = Reading.value _ ↔ _
    rw [Reading.value.injEq]
    exact itemArrives_eq_iff t v
  | array t =>
    change Reading.array _ = Reading.array ((v.items.map t.onWire).map (cellDatum t)) ↔ _
    rw [Reading.array.injEq, List.map_map, List.map_inj_left]
    exact forall₂_congr fun c _ => itemArrives_eq_iff t c

/-- The entries of a field in both tables change. -/
def ObusStruct.store (s : ObusStruct) (f : FieldDesc) (o : Option Obj) (n : Option (BitVec 32)) :
    ObusStruct :=
  ⟨s.desc, Function.update s.fields f.idx o, n.elim s.fieldsInt (Function.update s.fieldsInt f.idx)⟩

lemma wire_pos (t : BaseType) (v : t.Cell) : 0 < (t.wire v).length := by
  cases t with
  | string =>
    change 0 < (Obus.stringBytes v).length
    rw [Obus.stringBytes, List.length_append, bigEndian_length]
    omega
  | _ => exact (bigEndian_length _ _).symm ▸ Nat.succ_pos _

lemma length_lt_of_wire {t : BaseType} {v : ArrayVal t} (hok : v.items.length = v.nItems.toNat)
    (hsmall : ((Obus.FieldType.array t).wire v).length < 2 ^ 31) :
    v.items.length < 2 ^ 31 ∧ (∀ c ∈ v.items, (t.wire c).length < 2 ^ 31) ∧
      (Obus.FieldType.array t).wire v = bigEndian 4 v.items.length ++ v.items.flatMap t.wire := by
  have hwire : (Obus.FieldType.array t).wire v = bigEndian 4 v.items.length ++
      v.items.flatMap t.wire := by
    rw [hok]
    rfl
  rw [hwire, List.length_append, bigEndian_length] at hsmall
  refine ⟨?_, fun c hc => ?_, hwire⟩
  · have hle : v.items.length ≤ (v.items.flatMap t.wire).length :=
      length_le_length_flatMap fun c _ => wire_pos t c
    omega
  · have hle := length_le_flatMap t.wire hc
    omega

section Known

variable {cs : Charset} {f : FieldDesc}

lemma arrayClass_eq (hint : f.fieldType.isInt = false) : arrayClass f = .ok f.javaType := by
  obtain ⟨uid, base, isArray, idx⟩ := f
  cases base <;> first | rfl | cases hint

lemma javaType_eq_string : f.javaType = .string ↔ f.fieldType = .string := by
  obtain ⟨uid, base, isArray, idx⟩ := f
  cases base <;> exact ⟨fun h => by cases h <;> rfl, fun h => by cases h <;> rfl⟩

lemma mapM_refDatum {β : Type} {c : JavaType} {r : β → Option c.Val} {d : β → Datum} {l : List β}
    (h : ∀ x ∈ l, refDatum cs c (r x) = some (d x)) :
    (l.map r).mapM (refDatum cs c) = some (l.map d) := by
  induction l with
  | nil => rfl
  | cons x l ih =>
    rw [List.map_cons, List.mapM_cons, h x List.mem_cons_self, ih fun y hy =>
      h y (List.mem_cons_of_mem x hy)]
    rfl

lemma not_itemAbsent_of_isInt {t : BaseType} (htype : f.fieldType = ofBase t)
    (hint : f.fieldType.isInt = true) (v : t.Cell) : ¬ItemAbsent t v := by
  rw [htype] at hint
  cases t with
  | string => cases hint
  | _ => exact id

lemma isInt_of_not_short {t : BaseType} (htype : f.fieldType = ofBase t) {v : t.Cell}
    (hlong : ¬ItemShort t v) : f.fieldType.isInt = false ∧ ItemDeclared f t = fun _ => True := by
  rw [htype]
  cases t with
  | string => exact ⟨rfl, rfl⟩
  | _ => exact absurd trivial hlong

/-- The references of the items of an array, as far as they are read. -/
lemma exists_refs (hint : f.fieldType.isInt = false) {t : BaseType}
    (htype : f.fieldType = ofBase t) :
    ∃ r : t.Cell → Option f.javaType.Val, ∀ c, ItemShort t c → ItemDeclared f t c →
      Yields (decodeValue cs f) (t.wire c) ((r c).map (Obj.boxed f.javaType)) ∧
        refDatum cs f.javaType (r c) = some (itemArrives cs t c) := by
  have hitem : ∀ c : t.Cell, ∃ o : Option f.javaType.Val, ItemShort t c → ItemDeclared f t c →
      Yields (decodeValue cs f) (t.wire c) (o.map (Obj.boxed f.javaType)) ∧
        refDatum cs f.javaType o = some (itemArrives cs t c) := by
    intro c
    by_cases hgood : ItemShort t c ∧ ItemDeclared f t c
    · obtain ⟨o, hread, hdatum, -⟩ := @yields_wireRef cs _ hint _ htype _ hgood.1 hgood.2
      exact ⟨o, fun _ _ => ⟨hread, hdatum⟩⟩
    · exact ⟨none, fun hshort hdecl => absurd ⟨hshort, hdecl⟩ hgood⟩
  choose r hr using hitem
  exact ⟨r, hr⟩

/-- A field whose strings are not too long is read. -/
lemma yields_wireKnown {t : Obus.FieldType} {v : t.Val} (htype : f.type.toNat = t.code.toNat)
    (hok : t.Ok v)
    (hshort : EachItem ItemShort t v) (hdecl : EachItem (ItemDeclared f) t v)
    (hsmall : (t.wire v).length < 2 ^ 31) :
    ∃ o n, (∀ struct, Yields (decodeKnown cs f struct) (t.wire v) (struct.store f o n)) ∧
      (∀ k, reading cs f o (n.getD k) = some (valArrives cs t v)) ∧
      (o = none ↔ FieldAbsent t v) := by
  cases t with
  | value t =>
    obtain ⟨harray, hbase⟩ := isArray_of_value htype
    cases hint : f.fieldType.isInt with
    | true =>
      obtain ⟨n, hread, hdatum⟩ := @yields_wireInt cs _ hint _ hbase v
      refine ⟨some Obj.TRUE, some n, fun struct => ?_, fun k => ?_,
        iff_of_false (Option.some_ne_none _) ?_⟩
      · rw [decodeKnown, if_pos hint, harray]
        exact hread.bind_pure
      · rw [reading, harray, if_neg Bool.false_ne_true, if_pos hint]
        exact congrArg (fun d => some (Reading.value d)) hdatum
      · exact not_itemAbsent_of_isInt hbase hint v
    | false =>
      obtain ⟨o, hread, hdatum, habsent⟩ := @yields_wireRef cs _ hint _ hbase _ hshort hdecl
      refine ⟨o.map (Obj.boxed f.javaType), none, fun struct => ?_, fun k => ?_, ?_⟩
      · rw [decodeKnown, hint, harray]
        exact hread.bind_pure
      · rw [reading, harray, hint]
        cases o with
        | none =>
          rw [refDatum] at hdatum
          split_ifs at hdatum with hstring
          refine Eq.trans ?_ (congrArg (Option.map Reading.value) hdatum)
          exact if_pos (javaType_eq_string.mp hstring)
        | some a => exact congrArg (Option.map Reading.value) hdatum
      · rw [Option.map_eq_none_iff]
        exact habsent
  | array t =>
    obtain ⟨harray, hbase⟩ := isArray_of_array htype
    obtain ⟨hlength, -, hwire⟩ := length_lt_of_wire hok hsmall
    rw [hwire]
    cases hint : f.fieldType.isInt with
    | true =>
      choose r hr using @yields_wireInt cs _ hint _ hbase
      refine ⟨some (.prims .int (v.items.map r)), none, fun struct => ?_, fun k => ?_,
        iff_of_false (Option.some_ne_none _) id⟩
      · rw [decodeKnown, if_pos hint, if_pos harray]
        exact (yields_decodeArrayInt hlength fun c _ => (hr c).1).bind_pure
      · rw [reading, if_pos harray]
        have hdata : (v.items.map r).map (JavaType.datum cs .int) = v.items.map
            (itemArrives cs t) :=
          (List.map_map ..).trans (List.map_congr_left fun c _ => (hr c).2)
        exact congrArg (fun ds => some (Reading.array ds)) hdata
    | false =>
      obtain ⟨r, hr⟩ := @exists_refs cs _ hint _ hbase
      refine ⟨some (.refs f.javaType (v.items.map r)), none, fun struct => ?_, fun k => ?_,
        iff_of_false (Option.some_ne_none _) id⟩
      · rw [decodeKnown, hint, if_neg Bool.false_ne_true, if_pos harray]
        exact (yields_decodeArray (arrayClass_eq hint) hlength fun c hc =>
          (hr c (hshort c hc) (hdecl c hc)).1).bind_pure
      · rw [reading, if_pos harray]
        exact congrArg (Option.map Reading.array)
          (mapM_refDatum fun c hc => (hr c (hshort c hc) (hdecl c hc)).2)

/-- A field with a string that is too long is refused. -/
lemma rejects_wireKnown {t : Obus.FieldType} {v : t.Val} (htype : f.type.toNat = t.code.toNat)
    (hok : t.Ok v)
    (hlong : ¬EachItem ItemShort t v) (hsmall : (t.wire v).length < 2 ^ 31) (struct : ObusStruct) :
    Rejects (decodeKnown cs f struct) (t.wire v) := by
  cases t with
  | value t =>
    obtain ⟨harray, hbase⟩ := isArray_of_value htype
    rw [decodeKnown, (isInt_of_not_short hbase hlong).1, harray]
    exact (rejects_wireRef hbase hlong hsmall).bind_self
  | array t =>
    obtain ⟨harray, hbase⟩ := isArray_of_array htype
    obtain ⟨hlength, hsmalls, hwire⟩ := length_lt_of_wire hok hsmall
    have hbad : ∃ c ∈ v.items, ¬ItemShort t c := by
      by_contra hall
      push Not at hall
      exact hlong hall
    obtain ⟨c, hc, hitem⟩ := hbad
    obtain ⟨hint, hdecl⟩ := isInt_of_not_short hbase hitem
    obtain ⟨r, hr⟩ := @exists_refs cs _ hint _ hbase
    rw [hwire, decodeKnown, hint, if_neg Bool.false_ne_true, if_pos harray]
    refine (rejects_decodeArray (arrayClass_eq hint) hlength (r := r) (fun c hc => ?_) hc
      (rejects_wireRef hbase hitem (hsmalls c hc))).bind_self
    by_cases hgood : ItemShort t c
    · exact Or.inl (hr c hgood (by rw [hdecl]; trivial)).1
    · exact Or.inr (rejects_wireRef hbase hgood (hsmalls c hc))

end Known

/-! ## Structures -/

/-- A condition on each value of the present fields. -/
def EachValue (P : (t : BaseType) → t.Cell → Prop) (st : Struct) : Prop :=
  ∀ s ∈ st, s.has = true → EachItem P s.desc.type s.val

/-- The present fields of a struct are the same in the Java library, and their enumerations have
constants there. -/
structure SharedStruct (desc : StructDesc) (st : Struct) : Prop where
  field : ∀ s ∈ st, s.has = true → ∃ f ∈ desc.fields, SameField s.desc f
  declared : ∀ s ∈ st, s.has = true → ∀ f ∈ desc.fields, SameField s.desc f →
    EachItem (ItemDeclared f) s.desc.type s.val

/-- A structure of the Java library has a field of the C library as it arrives. -/
def Holds (cs : Charset) (js : ObusStruct) (f : FieldDesc) (s : Slot) : Prop :=
  js.reading cs f = some (valArrives cs s.desc.type s.val) ∧
  (js.fields f.idx = none ↔ FieldAbsent s.desc.type s.val)

/-- A structure of the Java library has the present fields of a struct as they arrive, and no
others. -/
structure Arrived (cs : Charset) (desc : StructDesc) (st : Struct) (js : ObusStruct) : Prop where
  on : js.desc = desc
  present : ∀ s ∈ st, s.has = true → ∀ f ∈ desc.fields, SameField s.desc f → Holds cs js f s
  absent : ∀ f ∈ desc.fields, (∀ s ∈ st, s.has = true → f.uid.toNat ≠ s.desc.uid.toNat) →
  js.fields f.idx = none

section Structs

variable {cs : Charset} {desc : StructDesc} {f g : FieldDesc}

lemma SameField.unique {d : Obus.FieldDesc} (hf : f ∈ desc.fields) (hg : g ∈ desc.fields)
    (h : SameField d f) (h' : SameField d g) : f = g := by
  have huid : f.uid = g.uid := BitVec.eq_of_toNat_eq (h.uid.trans h'.uid.symm)
  exact List.inj_on_of_nodup_map desc.uids hf hg huid

lemma SameField.uid_lt {d : Obus.FieldDesc} (h : SameField d f) : f.uid.toNat < 65536 :=
  h.uid ▸ UInt16.toNat_lt d.uid

lemma idx_ne (hf : f ∈ desc.fields) (hg : g ∈ desc.fields) (hne : f ≠ g) : f.idx ≠ g.idx :=
  fun heq =>
  hne (List.inj_on_of_nodup_map desc.idxs hf hg heq)

lemma store_self (js : ObusStruct) (o : Option Obj) (n : Option (BitVec 32)) :
    (js.store f o n).fields f.idx = o ∧ (js.store f o n).fieldsInt f.idx =
      n.getD (js.fieldsInt f.idx) := by
  refine ⟨Function.update_self _ _ _, ?_⟩
  cases n with
  | none => rfl
  | some n => exact Function.update_self _ _ _

lemma store_of_ne (js : ObusStruct) (o : Option Obj) (n : Option (BitVec 32))
    (hne : g.idx ≠ f.idx) :
    (js.store f o n).fields g.idx = js.fields g.idx ∧ (js.store f o n).fieldsInt g.idx =
      js.fieldsInt g.idx := by
  refine ⟨Function.update_of_ne hne _ _, ?_⟩
  cases n with
  | none => rfl
  | some n => exact Function.update_of_ne hne _ _

lemma Holds.congr {js js' : ObusStruct} {s : Slot} (h : Holds cs js f s)
    (hfields : js'.fields f.idx = js.fields f.idx)
    (hints : js'.fieldsInt f.idx = js.fieldsInt f.idx) : Holds cs js' f s := by
  rwa [Holds, ObusStruct.reading, hfields, hints]

/-- The bytes of a field. -/
def slotWire (s : Slot) : List UInt8 :=
  bigEndian 2 s.desc.uid.toNat ++ (bigEndian 1 s.desc.type.code.toNat ++ s.desc.type.wire s.val)

/-- What is known of a field that the encoder of the C library has written. -/
structure Written (desc : StructDesc) (s : Slot) (f : FieldDesc) : Prop where
  mem : f ∈ desc.fields
  same : SameField s.desc f
  ok : s.desc.type.Ok s.val
  declared : EachItem (ItemDeclared f) s.desc.type s.val
  small : (s.desc.type.wire s.val).length < 2 ^ 31

/-- A field is read into its own entries. -/
lemma Written.yields {s : Slot} (h : Written desc s f)
    (hshort : EachItem ItemShort s.desc.type s.val) (js : ObusStruct) :
    ∃ o n, Yields (decodeField cs desc js) (slotWire s) (js.store f o n) ∧
    Holds cs (js.store f o n) f s := by
  obtain ⟨o, n, hread, hreading, hnone⟩ :=
    @yields_wireKnown cs f _ _ h.same.type h.ok hshort h.declared h.small
  have hfield := yields_decodeField h.mem h.same.uid_lt (hread js)
  rw [h.same.uid, h.same.type] at hfield
  obtain ⟨hfields, hints⟩ := store_self (f := f) js o n
  refine ⟨o, n, hfield, ?_, ?_⟩
  · rw [ObusStruct.reading, hfields, hints]
    exact hreading _
  · rw [hfields]
    exact hnone

lemma Written.rejects {s : Slot} (h : Written desc s f)
    (hlong : ¬EachItem ItemShort s.desc.type s.val) (js : ObusStruct) :
    Rejects (decodeField cs desc js) (slotWire s) := by
  have hfield := rejects_decodeField h.mem h.same.uid_lt
    (@rejects_wireKnown cs f _ _ h.same.type h.ok hlong h.small js)
  rwa [h.same.uid, h.same.type] at hfield

/-- The fields of a list are read one after the other; the entries of others stay as they are. -/
lemma yields_slots {l : List Slot} (hl : ∀ s ∈ l, ∃ f, Written desc s f)
    (hnodup : (l.map fun s => s.desc.uid).Nodup)
    (hshort : ∀ s ∈ l, EachItem ItemShort s.desc.type s.val) (js : ObusStruct) :
    ∃ js', Yields (iter (decodeField cs desc) l.length js) (l.flatMap slotWire) js' ∧
    js'.desc = js.desc ∧
      (∀ s ∈ l, ∀ f ∈ desc.fields, SameField s.desc f → Holds cs js' f s) ∧
      ∀ f ∈ desc.fields, (∀ s ∈ l, f.uid.toNat ≠ s.desc.uid.toNat) →
        js'.fields f.idx = js.fields f.idx ∧ js'.fieldsInt f.idx = js.fieldsInt f.idx := by
  induction l generalizing js with
  | nil =>
    exact ⟨js, yields_pure, rfl, fun s hs => absurd hs List.not_mem_nil, fun _ _ _ => ⟨rfl, rfl⟩⟩
  | cons s l ih =>
    rw [List.map_cons, List.nodup_cons] at hnodup
    obtain ⟨f, hf⟩ := hl s List.mem_cons_self
    obtain ⟨o, n, hread, hholds⟩ := @Written.yields cs _ _ _ hf (hshort s List.mem_cons_self) js
    obtain ⟨js', hrest, hdesc, hpresent, hkept⟩ :=
      ih (fun s' hs' => hl s' (List.mem_cons_of_mem s hs')) hnodup.2
      (fun s' hs' => hshort s' (List.mem_cons_of_mem s hs')) (js.store f o n)
    have hother : ∀ s' ∈ l, f.uid.toNat ≠ s'.desc.uid.toNat := fun s' hs' heq => by
      refine hnodup.1 (List.mem_map.mpr ⟨s', hs', ?_⟩)
      exact UInt16.toNat_inj.mp (heq.symm.trans hf.same.uid)
    refine ⟨js', hread.bind hrest, hdesc, fun s' hs' g hg hsame => ?_, fun g hg hne => ?_⟩
    · rcases List.mem_cons.mp hs' with rfl | hs'
      · obtain rfl := hsame.unique hg hf.mem hf.same
        obtain ⟨hfields, hints⟩ := hkept g hg hother
        exact hholds.congr hfields hints
      · exact hpresent s' hs' g hg hsame
    · have hnf : g ≠ f := fun heq => hne s List.mem_cons_self (heq ▸ hf.same.uid)
      obtain ⟨hfields, hints⟩ := hkept g hg fun s' hs' => hne s' (List.mem_cons_of_mem s hs')
      obtain ⟨hfields', hints'⟩ := store_of_ne js o n (idx_ne hg hf.mem hnf)
      exact ⟨hfields.trans hfields', hints.trans hints'⟩

/-- Nothing is read where a string is too long. -/
lemma rejects_slots {l : List Slot} (hl : ∀ s ∈ l, ∃ f, Written desc s f) {s : Slot} (hs : s ∈ l)
    (hlong : ¬EachItem ItemShort s.desc.type s.val) (js : ObusStruct) :
    Rejects (iter (decodeField cs desc) l.length js) (l.flatMap slotWire) := by
  induction l generalizing js with
  | nil => exact absurd hs List.not_mem_nil
  | cons a l ih =>
    obtain ⟨f, hf⟩ := hl a List.mem_cons_self
    rw [List.flatMap_cons]
    by_cases hshort : EachItem ItemShort a.desc.type a.val
    · obtain ⟨o, n, hread, -⟩ := @Written.yields cs _ _ _ hf hshort js
      rcases List.mem_cons.mp hs with rfl | hs
      · exact absurd hshort hlong
      · exact hread.rejects (ih (fun s' hs' => hl s' (List.mem_cons_of_mem a hs')) hs _)
    · exact (hf.rejects hshort js).bind _

variable {st : Struct}

lemma written_of_shared (hst : st.Countable) (hshared : SharedStruct desc st)
    (hsmall : (structWire st).length < 2 ^ 31) :
    ∀ s ∈ st.filter Slot.has, ∃ f, Written desc s f := by
  intro s hs
  obtain ⟨hmem, hhas⟩ := List.mem_filter.mp hs
  obtain ⟨f, hf, hsame⟩ := hshared.field s hmem hhas
  refine ⟨f, hf, hsame, hst.arrays s hmem hhas, hshared.declared s hmem hhas f hf hsame, ?_⟩
  have hle := length_le_flatMap slotWire hs
  rw [structWire, List.length_append] at hsmall
  have hpart : (s.desc.type.wire s.val).length ≤ (slotWire s).length := by
    rw [slotWire, List.length_append, List.length_append]
    omega
  exact lt_of_le_of_lt (hpart.trans (hle.trans (Nat.le_add_left _ _))) hsmall

/-- The decoder reads a struct of the C library whose strings are not too long. -/
lemma yields_structWire (hst : st.Countable) (hshared : SharedStruct desc st)
    (hsmall : (structWire st).length < 2 ^ 31)
    (hnodup : (st.desc.map Obus.FieldDesc.uid).Nodup) (hshort : EachValue ItemShort st) :
    ∃ js, Yields (ObusStruct.decode cs desc) (structWire st) js ∧ Arrived cs desc st js := by
  have hsublist : ((st.filter Slot.has).map fun s => s.desc.uid).Nodup := by
    refine List.Nodup.sublist (List.filter_sublist.map _) ?_
    rwa [Struct.desc, List.map_map] at hnodup
  obtain ⟨js, hread, hdesc, hpresent, hkept⟩ :=
    @yields_slots cs desc _ (written_of_shared hst hshared hsmall) hsublist
    (fun s hs => hshort s (List.mem_filter.mp hs).1 (List.mem_filter.mp hs).2)
      (ObusStruct.create desc)
  refine ⟨js, ?_, hdesc, fun s hs hhas => hpresent s (List.mem_filter.mpr ⟨hs, hhas⟩),
    fun f hf hne => ?_⟩
  · rw [ObusStruct.decode, structWire]
    refine (yields_count hst.count).bind ?_
    rwa [toNat_size (hst.count.trans (by decide))]
  · refine (hkept f hf fun s hs => ?_).1
    exact hne s (List.mem_filter.mp hs).1 (List.mem_filter.mp hs).2

/-- It refuses a struct with a string that is too long. -/
lemma rejects_structWire (hst : st.Countable) (hshared : SharedStruct desc st)
    (hsmall : (structWire st).length < 2 ^ 31)
    (hlong : ¬EachValue ItemShort st) : Rejects (ObusStruct.decode cs desc) (structWire st) := by
  unfold EachValue at hlong
  push Not at hlong
  obtain ⟨s, hs, hhas, hitem⟩ := hlong
  rw [ObusStruct.decode, structWire]
  refine (yields_count hst.count).rejects ?_
  rw [toNat_size (hst.count.trans (by decide))]
  exact rejects_slots (written_of_shared hst hshared hsmall)
    (List.mem_filter.mpr ⟨hs, hhas⟩) hitem _

end Structs

end Obus.Java
