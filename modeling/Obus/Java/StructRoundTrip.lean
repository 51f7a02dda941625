import Obus.Java.StructLemmas
import Obus.Java.BufferLemmas

/-!
# Structures through the accessors, the encoder and the decoder

Whether what the generated setters put into a structure of the Java library is what the generated
getters find in the one that is decoded from its encoding.  It is, exactly if no field is set whose
type does not go together with the casts or has no getter (arrays of `boolean`; `Float`, `Double`
and their arrays), no array of `Long` or of an enumeration has a `null`, the strings are not too
long and the charset keeps them, uids have 16 bits, and the encoding does not outgrow the largest
buffer (`round_trips_iff`).
-/

namespace Obus.Java

open Fallible

/-! ## What is to be carried -/

/-- The values of the fields that are set, and not to `null`. -/
abbrev Values := (f : FieldDesc) → Option (f.javaType.Param f.isArray)

/-- A field with its value. -/
abbrev Entry := Σ f : FieldDesc, f.javaType.Param f.isArray

/-- The fields of a structure that are set. -/
def entries (desc : StructDesc) (vals : Values) : List Entry :=
  desc.fields.filterMap fun f => (vals f).map (Sigma.mk f)

/-- A structure whose fields are set with the generated setters. -/
def setAll (desc : StructDesc) (vals : Values) : ObusStruct :=
  (entries desc vals).foldl (fun s e => ObusStruct.setField e.1.javaType e.1.isArray s e.1 e.2)
    (ObusStruct.create desc)

/-- An `int` modulo the width of the field. -/
def wrapInt : FieldType → BitVec 32 → BitVec 32
  | .u8, v => (v.setWidth 8).setWidth 32
  | .i8, v => (v.setWidth 8).signExtend 32
  | .u16, v => (v.setWidth 16).setWidth 32
  | .i16, v => (v.setWidth 16).signExtend 32
  | _, v => v

/-- A value whose integers are taken modulo the width of the field. -/
def wrapped (t : FieldType) : (c : JavaType) → (isArray : Bool) → c.Param isArray → c.Param isArray
  | .int, false, v => wrapInt t v
  | .int, true, a => List.map (wrapInt t) a
  | _, _, v => v

/-- What is found of a field: nothing if it has not been set, and its value otherwise. -/
def Found (s : ObusStruct) (f : FieldDesc) : Option (f.javaType.Param f.isArray) → Prop
  | none => s.hasField f = false
  | some v => s.hasField f = true ∧ ∃ get, ObusStruct.getField f.javaType f.isArray = some get ∧
      get s f = .ok (some (wrapped f.fieldType f.javaType f.isArray v))

/-- A structure is set, encoded behind what is in a buffer, and decoded from there, and then
everything is found. -/
def RoundTrips (cs : Charset) (desc : StructDesc) (vals : Values) (b : TxBuffer) : Prop :=
  ∃ b' s' t, Leads ((setAll desc vals).encode cs) b () b' ∧
    Leads (ObusStruct.decode cs desc) ⟨b'.bytes, b.bytes.length⟩ s' t ∧
    ∀ f ∈ desc.fields, Found s' f (vals f)

/-- A string whose size is accepted and that the charset keeps. -/
def StringCarried (cs : Charset) (s : JString) : Prop :=
  (cs.getBytes s).length < 65535 ∧ cs.newString (cs.getBytes s) = s

/-- An array without `null`. -/
def NoNull {α : Type} (a : List (Option α)) : Prop := none ∉ a

/-- An array of strings that are carried, or `null`. -/
def StringsCarried (cs : Charset) (a : List (Option JString)) : Prop :=
  ∀ s, some s ∈ a → StringCarried cs s

/-- A value that is carried, by its type. -/
def Carried (cs : Charset) : (c : JavaType) → (isArray : Bool) → c.Param isArray → Prop
  | .int, _, _ => True
  | .long, false, _ => True
  | .long, true, a => NoNull a
  | .string, false, s => StringCarried cs s
  | .string, true, a => StringsCarried cs a
  | .boolean, false, _ => True
  | .boolean, true, _ => False
  | .float, _, _ => False
  | .double, _, _ => False
  | .enum _, false, _ => True
  | .enum d, true, a => NoNull (α := d.Const) a

/-! ## The bytes of a structure -/

/-- The number of bytes of an `int`. -/
def intWidth : FieldType → ℕ
  | .u8 | .i8 => 1
  | .u16 | .i16 => 2
  | _ => 4

/-- The bytes of a value. -/
def valBytes (cs : Charset) (t : FieldType) : (c : JavaType) → c.Val → List UInt8
  | .int, v => bigEndian (intWidth t) (BitVec.toNat v)
  | .long, v => bigEndian 8 (BitVec.toNat v)
  | .string, s => stringBytes cs s
  | .boolean, v => bigEndian 1 (bif v then 1 else 0)
  | .float, v => bigEndian 4 (BitVec.toNat v)
  | .double, v => bigEndian 8 (BitVec.toNat v)
  | .enum d, v => bigEndian 4 (d.toInt v).toNat

/-- The bytes of a reference; those of `null` are of a string. -/
def refBytes (cs : Charset) (t : FieldType) (c : JavaType) : Option c.Val → List UInt8
  | none => bigEndian 4 0
  | some v => valBytes cs t c v

/-- The bytes of an entry of an array. -/
def elemBytes (cs : Charset) (t : FieldType) : (c : JavaType) → c.Elem → List UInt8
  | .int, v => valBytes cs t .int v
  | .boolean, v => valBytes cs t .boolean v
  | .long, v => refBytes cs t .long v
  | .string, v => refBytes cs t .string v
  | .float, v => refBytes cs t .float v
  | .double, v => refBytes cs t .double v
  | .enum d, v => refBytes cs t (.enum d) v

/-- The chunks that the content of a field is written in. -/
def contentChunks (cs : Charset) (t : FieldType) (c : JavaType) :
    (isArray : Bool) → c.Param isArray → List (List UInt8)
  | false, v => [valBytes cs t c v]
  | true, a => bigEndian 4 (List.length a) :: List.map (elemBytes cs t c) a

/-- The chunks of a field with its uid and its type. -/
def entryChunks (cs : Charset) (e : Entry) : List (List UInt8) :=
  bigEndian 2 e.1.uid.toNat :: bigEndian 1 e.1.type.toNat ::
    contentChunks cs e.1.fieldType e.1.javaType e.1.isArray e.2

/-- The chunks of a structure. -/
def structChunks (cs : Charset) (l : List Entry) : List (List UInt8) :=
  bigEndian 2 l.length :: l.flatMap (entryChunks cs)

/-! ## Encoding -/

/-- A reference that can be encoded. -/
def RefEncodable (cs : Charset) : (c : JavaType) → Option c.Val → Prop
  | .string, some s => (cs.getBytes s).length + 5 < 2 ^ 31
  | .string, none => True
  | _, some _ => True
  | _, none => False

/-- An array of such references. -/
def RefsEncodable (cs : Charset) (c : JavaType) (a : List (Option c.Val)) : Prop :=
  ∀ v ∈ a, RefEncodable cs c v

/-- A value that can be encoded: strings are not too long for any buffer, there is a `null` only
among strings, and no array of `boolean`. -/
def Encodable (cs : Charset) : (c : JavaType) → (isArray : Bool) → c.Param isArray → Prop
  | .int, _, _ => True
  | .boolean, false, _ => True
  | .boolean, true, _ => False
  | .long, false, v => RefEncodable cs .long (some v)
  | .long, true, a => RefsEncodable cs .long a
  | .string, false, v => RefEncodable cs .string (some v)
  | .string, true, a => RefsEncodable cs .string a
  | .float, false, v => RefEncodable cs .float (some v)
  | .float, true, a => RefsEncodable cs .float a
  | .double, false, v => RefEncodable cs .double (some v)
  | .double, true, a => RefsEncodable cs .double a
  | .enum d, false, v => RefEncodable cs (.enum d) (some v)
  | .enum d, true, a => RefsEncodable cs (.enum d) a

/-- The object that a setter puts into the table. -/
def objOf : (c : JavaType) → (isArray : Bool) → c.Param isArray → Obj
  | .int, false, _ => Obj.TRUE
  | .int, true, a => .prims .int a
  | .boolean, false, v => .boxed .boolean v
  | .boolean, true, a => .prims .boolean a
  | .long, false, v => .boxed .long v
  | .long, true, a => .refs .long a
  | .string, false, v => .boxed .string v
  | .string, true, a => .refs .string a
  | .float, false, v => .boxed .float v
  | .float, true, a => .refs .float a
  | .double, false, v => .boxed .double v
  | .double, true, a => .refs .double a
  | .enum d, false, v => .boxed (.enum d) v
  | .enum d, true, a => .refs (.enum d) a

/-- What it puts into the table of numbers. -/
def intOf : (c : JavaType) → (isArray : Bool) → c.Param isArray → Option (BitVec 32)
  | .int, false, v => some v
  | _, _, _ => none

section Encoding

variable {cs : Charset} {f : FieldDesc}

lemma driverToInt_boxed (d : EnumDriver) (v : (JavaType.enum d).Val) :
    driverToInt (some d) (some (.boxed (.enum d) v)) = .ok (d.toInt v) := by
  rw [driverToInt, valueOf_boxed]
  rfl

/-- What is written of a word does not depend on its higher bits. -/
lemma write_length (n : ℕ) : writeU32 (BitVec.ofNat 32 n) = write (bigEndian 4 n) := by
  have hmod : bigEndian 4 (n % 2 ^ 32) = bigEndian 4 n := bigEndian_mod 4 n
  rw [writeU32, BitVec.toNat_ofNat, hmod]

lemma encodeValueInt_eq (hint : f.javaType = .int) (v : BitVec 32) :
    encodeValueInt f v = write (valBytes cs f.fieldType .int v) := by
  obtain ⟨uid, base, isArray, idx⟩ := f
  cases base <;> first | rfl | cases hint

lemma encodeArrayInt_eq (hint : f.javaType = .int) (a : List (BitVec 32)) :
    encodeArrayInt f a = each write
      (bigEndian 4 a.length :: a.map (valBytes cs f.fieldType .int)) := by
  have hitems : each (encodeValueInt f) a =
      each write (List.map (valBytes cs f.fieldType .int) a) :=
    each_map fun v _ => encodeValueInt_eq hint v
  rw [encodeArrayInt, write_length, hitems]
  rfl

/-- The types whose values are references. -/
def IsRef (c : JavaType) : Prop := c ≠ .int ∧ c ≠ .boolean

/-- A reference that can be encoded is written as its bytes. -/
lemma encodeValue_eq (href : IsRef f.javaType) {o : Option f.javaType.Val}
    (ho : RefEncodable cs f.javaType o) :
    encodeValue cs f (o.map (Obj.boxed f.javaType)) =
      write (refBytes cs f.fieldType f.javaType o) := by
  obtain ⟨uid, base, isArray, idx⟩ := f
  cases base with
  | string =>
    cases o with
    | none => rfl
    | some s => exact (eval_ok (castTo_boxed .string s) _).trans (writeString_eq ho)
  | uint64 =>
    cases o with
    | none => exact absurd ho id
    | some v => exact eval_ok (valueOf_boxed .long v) _
  | int64 =>
    cases o with
    | none => exact absurd ho id
    | some v => exact eval_ok (valueOf_boxed .long v) _
  | float =>
    cases o with
    | none => exact absurd ho id
    | some v => exact eval_ok (valueOf_boxed .float v) _
  | double =>
    cases o with
    | none => exact absurd ho id
    | some v => exact eval_ok (valueOf_boxed .double v) _
  | enum d =>
    cases o with
    | none => exact absurd ho id
    | some v => exact eval_ok (driverToInt_boxed d v) _
  | bool => exact absurd rfl href.2
  | _ => exact absurd rfl href.1

/-- A reference that has been encoded can be. -/
lemma refEncodable_of_leads (href : IsRef f.javaType) {o : Option f.javaType.Val} {b b' : TxBuffer}
    {u : Unit}
    (h : Leads (encodeValue cs f (o.map (Obj.boxed f.javaType))) b u b') :
    RefEncodable cs f.javaType o := by
  obtain ⟨uid, base, isArray, idx⟩ := f
  cases base with
  | string =>
    cases o with
    | none => trivial
    | some s =>
      have hwrite : encodeValue cs ⟨uid, .string, isArray, idx⟩ (some (.boxed .string s)) =
          writeString cs (some s) :=
        eval_ok (castTo_boxed .string s) _
      exact small_of_leads_writeString ((congrFun hwrite b).symm.trans h)
  | bool => exact absurd rfl href.2
  | uint8 | int8 | uint16 | int16 | uint32 | int32 | handle => exact absurd rfl href.1
  | _ =>
    cases o with
    | none => exact absurd h (not_leads_eval rfl _)
    | some v => trivial

lemma encodeArray_eq {c : JavaType} {a : List (Option c.Val)} {g : Option c.Val → List UInt8}
    (hitem : ∀ o ∈ a, encodeValue cs f (o.map (Obj.boxed c)) = write (g o)) :
    encodeArray cs f (a.map (Option.map (Obj.boxed c))) =
      each write (bigEndian 4 a.length :: a.map g) := by
  have hitems : each (fun o => encodeValue cs f (o.map (Obj.boxed c))) a = each write (a.map g) :=
    each_map hitem
  have hboxed : each (fun o => encodeValue cs f (o.map (Obj.boxed c))) a =
      each (encodeValue cs f) (a.map (Option.map (Obj.boxed c))) := each_map fun _ _ => rfl
  rw [encodeArray, List.length_map, write_length, ← hboxed, hitems]
  rfl

/-- The content of an array of references, in the table. -/
lemma encodeKnown_refs (hint : f.fieldType.isInt = false) (harray : f.isArray = true) (c : JavaType)
    (a : List (Option c.Val)) (n : BitVec 32) :
    encodeKnown cs f (some (.refs c a)) n = encodeArray cs f
      (a.map (Option.map (Obj.boxed c))) := by
  rw [encodeKnown, hint, harray]
  rfl

/-- A value that can be encoded is written in its chunks. -/
lemma encodeKnown_eq {v : f.javaType.Param f.isArray} (hv : Encodable cs f.javaType f.isArray v)
    {n : BitVec 32} (hn : ∀ k, intOf f.javaType f.isArray v = some k → n = k) :
    encodeKnown cs f (some (objOf f.javaType f.isArray v)) n =
      each write (contentChunks cs f.fieldType f.javaType f.isArray v) := by
  have hint := @encodeValueInt_eq cs f
  have hints := @encodeArrayInt_eq cs f
  have href := @encodeValue_eq cs f
  have hrefs := @encodeKnown_refs cs f
  obtain ⟨uid, base, isArray, idx⟩ := f
  cases isArray with
  | false =>
    rw [contentChunks, each_singleton]
    cases base with
    | bool => cases v <;> rfl
    | uint8 | int8 | uint16 | int16 | uint32 | int32 | handle =>
      exact (hint rfl n).trans (congrArg (fun k => write (valBytes cs _ .int k)) (hn v rfl))
    | _ => exact href (o := some v) ⟨by rintro ⟨⟩, by rintro ⟨⟩⟩ hv
  | true =>
    cases base with
    | bool => exact absurd hv id
    | uint8 | int8 | uint16 | int16 | uint32 | int32 | handle => exact hints rfl v
    | _ =>
      refine (hrefs rfl rfl _ v n).trans (encodeArray_eq fun o ho => ?_)
      exact href ⟨by rintro ⟨⟩, by rintro ⟨⟩⟩ (hv o ho)

/-- A value that has been encoded can be. -/
lemma encodable_of_leads {v : f.javaType.Param f.isArray} {n : BitVec 32} {b b' : TxBuffer}
    {u : Unit}
    (h : Leads (encodeKnown cs f (some (objOf f.javaType f.isArray v)) n) b u b') :
    Encodable cs f.javaType f.isArray v := by
  have href := @refEncodable_of_leads cs f
  have hrefs := @encodeKnown_refs cs f
  have hitems : ∀ {c : JavaType} {a : List (Option c.Val)},
      Leads (encodeArray cs f (a.map (Option.map (Obj.boxed c)))) b u b' → ∀ o ∈ a,
        ∃ t t', Leads (encodeValue cs f (o.map (Obj.boxed c))) t () t' := by
    intro c a hlead o ho
    obtain ⟨_, t, -, hrest⟩ := leads_bind.mp hlead
    exact exists_leads_of_each hrest (List.mem_map_of_mem ho)
  obtain ⟨uid, base, isArray, idx⟩ := f
  cases isArray with
  | false =>
    cases base with
    | bool | uint8 | int8 | uint16 | int16 | uint32 | int32 | handle => trivial
    | _ => exact href (o := some v) ⟨by rintro ⟨⟩, by rintro ⟨⟩⟩ h
  | true =>
    cases base with
    | bool => exact absurd h (not_leads_eval rfl _)
    | uint8 | int8 | uint16 | int16 | uint32 | int32 | handle => trivial
    | _ =>
      intro o ho
      obtain ⟨t, t', hlead⟩ := hitems ((congrFun (hrefs rfl rfl _ v n) b).symm.trans h) o ho
      exact href ⟨by rintro ⟨⟩, by rintro ⟨⟩⟩ hlead

end Encoding

/-! ## Decoding -/

/-- A string whose size is accepted. -/
def StringShort (cs : Charset) (s : JString) : Prop := (cs.getBytes s).length < 65535

/-- A reference that is not a string of a size which is refused. -/
def RefShort (cs : Charset) : (c : JavaType) → Option c.Val → Prop
  | .string, some s => StringShort cs s
  | _, _ => True

/-- An array of such references. -/
def RefsShort (cs : Charset) (a : List (Option JString)) : Prop := ∀ o ∈ a, RefShort cs .string o

/-- A value without such strings. -/
def Short (cs : Charset) : (c : JavaType) → (isArray : Bool) → c.Param isArray → Prop
  | .string, false, s => StringShort cs s
  | .string, true, a => RefsShort cs a
  | _, _, _ => True

/-- The reference that comes from the bytes of another. -/
def receivedRef (cs : Charset) : (c : JavaType) → Option c.Val → Option c.Val
  | .string, o => Option.map (fun s => cs.newString (cs.getBytes s)) o
  | _, o => o

/-- The value that comes from the bytes of another. -/
def received (cs : Charset) (t : FieldType) : (c : JavaType) → (isArray : Bool) → c.Param isArray →
    c.Param isArray
  | .int, false, v => wrapInt t v
  | .int, true, a => List.map (wrapInt t) a
  | .string, false, s => cs.newString (cs.getBytes s)
  | .string, true, a => List.map (receivedRef cs .string) a
  | _, _, v => v

/-- A field gets an object, and a number if there is one. -/
def ObusStruct.setTo (s : ObusStruct) (f : FieldDesc) (o : Obj) : Option (BitVec 32) → ObusStruct
  | none => { s with fields := Function.update s.fields f.idx (some o) }
  | some n => ⟨s.desc, Function.update s.fields f.idx (some o), Function.update s.fieldsInt f.idx n⟩

lemma setField_eq {c : JavaType} {isArray : Bool} (s : ObusStruct) (f : FieldDesc)
    (v : c.Param isArray) :
    ObusStruct.setField c isArray s f v = s.setTo f (objOf c isArray v) (intOf c isArray v) := by
  cases c <;> cases isArray <;> rfl

section Decoding

variable {cs : Charset} {f : FieldDesc}

lemma yields_decodeValueInt (hint : f.javaType = .int) (v : BitVec 32) :
    Yields (decodeValueInt f) (valBytes cs f.fieldType .int v) (wrapInt f.fieldType v) := by
  obtain ⟨uid, base, isArray, idx⟩ := f
  cases base with
  | uint8 => exact yields_readU8 v
  | int8 => exact yields_readI8 v
  | uint16 | handle => exact yields_readU16 v
  | int16 => exact yields_readI16 v
  | uint32 | int32 => exact yields_getInt_word v
  | _ => cases hint

lemma fromInt_toInt (d : EnumDriver) (c : d.Const) : d.fromInt (d.toInt c) = .ok c := by
  have hinj : Function.Injective d.toInt := List.nodup_iff_injective_get.mp d.nodup
  rw [EnumDriver.fromInt]
  cases hfind : (List.finRange d.values.length).find? fun c' => d.toInt c' = d.toInt c with
  | none =>
    have hno := List.find?_eq_none.mp hfind c (List.mem_finRange c)
    exact absurd (decide_eq_true rfl) hno
  | some c' =>
    have heq : d.toInt c' = d.toInt c := by simpa using List.find?_some hfind
    rw [hinj heq]

lemma yields_const (d : EnumDriver) (c : d.Const) :
    Yields (readI32 >>= fun v => some <$> eval (driverFromInt (some d) v))
      (bigEndian 4 (d.toInt c).toNat) (some (.boxed (.enum d) c)) := by
  have hconst : driverFromInt (some d) (d.toInt c) = .ok (.boxed (.enum d) c) := by
    rw [driverFromInt, fromInt_toInt]
    rfl
  rw [← List.append_nil (bigEndian 4 _)]
  refine (yields_getInt_word (d.toInt c)).bind ?_
  rw [hconst]
  exact yields_pure

/-- A reference is read from its bytes. -/
lemma yields_decodeValue (href : IsRef f.javaType) {o : Option f.javaType.Val}
    (ho : RefEncodable cs f.javaType o) (hshort : RefShort cs f.javaType o) :
    Yields (decodeValue cs f) (refBytes cs f.fieldType f.javaType o)
      ((receivedRef cs f.javaType o).map (Obj.boxed f.javaType)) := by
  obtain ⟨uid, base, isArray, idx⟩ := f
  cases base with
  | bool => exact absurd rfl href.2
  | uint8 | int8 | uint16 | int16 | uint32 | int32 | handle => exact absurd rfl href.1
  | string =>
    cases o with
    | none => exact (yields_readString_null cs).map
    | some s => exact (yields_readString cs hshort).map
  | uint64 | int64 | double =>
    cases o with
    | none => exact absurd ho id
    | some v => exact (yields_getLong v).map
  | float =>
    cases o with
    | none => exact absurd ho id
    | some v => exact (yields_getInt_word v).map
  | enum d =>
    cases o with
    | none => exact absurd ho id
    | some c => exact yields_const d c

/-- A string that is too long is refused. -/
lemma rejects_decodeValue {o : Option f.javaType.Val} (ho : RefEncodable cs f.javaType o)
    (hlong : ¬RefShort cs f.javaType o) :
    Rejects (decodeValue cs f) (refBytes cs f.fieldType f.javaType o) := by
  obtain ⟨uid, base, isArray, idx⟩ := f
  cases base with
  | string =>
    cases o with
    | none => exact absurd trivial hlong
    | some s =>
      have hsmall : (cs.getBytes s).length + 5 < 2 ^ 31 := ho
      exact (rejects_readString cs (not_lt.mp hlong) (by omega)).map
  | _ => exact absurd trivial hlong

lemma foldl_concat {α β : Type} (r : α → β) (l : List α) (acc : List β) :
    l.foldl (fun acc x => acc ++ [r x]) acc = acc ++ l.map r := by
  induction l generalizing acc with
  | nil => exact (List.append_nil acc).symm
  | cons x l ih => rw [List.foldl_cons, ih, List.map_cons, List.append_assoc, List.singleton_append]

section Arrays

variable {β : Type} {l : List β} {g : β → List UInt8}

lemma yields_decodeArrayInt {r : β → BitVec 32} (hl : l.length < 2 ^ 31)
    (hitem : ∀ x ∈ l, Yields (decodeValueInt f) (g x) (r x)) :
    Yields (decodeArrayInt f) (bigEndian 4 l.length ++ l.flatMap g) (.prims .int (l.map r)) := by
  have hitems := yields_iter
    (fun x hx acc => (hitem x hx).bind_pure (g := fun item : BitVec 32 => acc ++ [item])) []
  rw [foldl_concat, List.nil_append] at hitems
  rw [decodeArrayInt]
  refine (yields_size hl).bind ?_
  rw [newArray_size hl, pure_bind]
  exact hitems.bind_pure

variable {c : JavaType} {r : β → Option c.Val}

lemma yields_decodeItem {x : β} (hitem : Yields (decodeValue cs f) (g x) ((r x).map (Obj.boxed c)))
    (acc : List (Option c.Val)) : Yields (decodeItem cs f c acc) (g x) (acc ++ [r x]) := by
  rw [decodeItem, ← List.append_nil (g x)]
  refine hitem.bind ?_
  rw [storeIn_boxed]
  exact yields_pure

lemma yields_decodeArray (hclass : arrayClass f = .ok c) (hl : l.length < 2 ^ 31)
    (hitem : ∀ x ∈ l, Yields (decodeValue cs f) (g x) ((r x).map (Obj.boxed c))) :
    Yields (decodeArray cs f) (bigEndian 4 l.length ++ l.flatMap g) (.refs c (l.map r)) := by
  have hitems := yields_iter (fun x hx acc => yields_decodeItem (hitem x hx) acc) []
  rw [foldl_concat, List.nil_append] at hitems
  rw [decodeArray_eq hclass]
  refine (yields_size hl).bind ?_
  rw [newArray_size hl, pure_bind]
  exact hitems.bind_pure

/-- An array with an entry that is refused is refused. -/
lemma rejects_decodeArray (hclass : arrayClass f = .ok c) (hl : l.length < 2 ^ 31)
    (hitem : ∀ x ∈ l, Yields (decodeValue cs f) (g x) ((r x).map (Obj.boxed c)) ∨
      Rejects (decodeValue cs f) (g x))
    {x : β} (hx : x ∈ l) (hbad : Rejects (decodeValue cs f) (g x)) :
    Rejects (decodeArray cs f) (bigEndian 4 l.length ++ l.flatMap g) := by
  have hrejects : ∀ y, Rejects (decodeValue cs f) (g y) →
      ∀ acc, Rejects (decodeItem cs f c acc) (g y) := by
    intro y hno acc
    exact hno.bind_self
  have hitems : ∀ y ∈ l, ∀ acc, Yields (decodeItem cs f c acc) (g y) (acc ++ [r y]) ∨
      Rejects (decodeItem cs f c acc) (g y) :=
    fun y hy acc => (hitem y hy).imp (fun hyes => yields_decodeItem hyes acc) fun hno =>
      hrejects y hno acc
  rw [decodeArray_eq hclass]
  refine (yields_size hl).rejects ?_
  rw [newArray_size hl, pure_bind]
  exact (rejects_iter hitems hx (hrejects x hbad) []).bind_self

end Arrays

/-- An array whose entries are read from their own bytes. -/
lemma yields_decodeArray_same {c : JavaType} {a : List (Option c.Val)}
    {g : Option c.Val → List UInt8} (hclass : arrayClass f = .ok c) (ha : a.length < 2 ^ 31)
    (hitem : ∀ o ∈ a, Yields (decodeValue cs f) (g o) (o.map (Obj.boxed c))) :
    Yields (decodeArray cs f) (bigEndian 4 a.length ++ a.flatMap g) (.refs c a) := by
  have hid := yields_decodeArray (r := fun o => o) hclass ha hitem
  rwa [List.map_id'] at hid

lemma yields_decodeBool (hbool : f.javaType = .boolean) (v : Bool) :
    Yields (decodeValue cs f) (valBytes cs f.fieldType .boolean v) (some (.boxed .boolean v)) := by
  obtain ⟨uid, base, isArray, idx⟩ := f
  cases base with
  | bool =>
    cases v with
    | false => exact (yields_readU8 0).map
    | true => exact (yields_readU8 1).map
  | _ => cases hbool

/-- The number of entries of an array. -/
def arrayLength {c : JavaType} : (isArray : Bool) → c.Param isArray → ℕ
  | false, _ => 0
  | true, a => List.length a

/-- The content of a field is read from its chunks. -/
lemma yields_decodeKnown {v : f.javaType.Param f.isArray} (hv : Encodable cs f.javaType f.isArray v)
    (hshort : Short cs f.javaType f.isArray v) (hlength : arrayLength f.isArray v < 2 ^ 31)
    (struct : ObusStruct) :
    Yields (decodeKnown cs f struct) (contentChunks cs f.fieldType f.javaType f.isArray v).flatten
      (struct.setTo f (objOf f.javaType f.isArray (received cs f.fieldType f.javaType f.isArray v))
        (intOf f.javaType f.isArray (received cs f.fieldType f.javaType f.isArray v))) := by
  have hint := @yields_decodeValueInt cs f
  have hints := @yields_decodeArrayInt f
  have hbool := @yields_decodeBool cs f
  have href := @yields_decodeValue cs f
  have hrefs := @yields_decodeArray cs f
  have hsame := @yields_decodeArray_same cs f
  obtain ⟨uid, base, isArray, idx⟩ := f
  cases isArray with
  | false =>
    rw [contentChunks, List.flatten_singleton]
    cases base with
    | bool => exact (hbool rfl v).bind_pure
    | uint8 | int8 | uint16 | int16 | uint32 | int32 | handle => exact (hint rfl v).bind_pure
    | string => exact (href (o := some v) ⟨by rintro ⟨⟩, by rintro ⟨⟩⟩ hv hshort).bind_pure
    | _ => exact (href (o := some v) ⟨by rintro ⟨⟩, by rintro ⟨⟩⟩ hv trivial).bind_pure
  | true =>
    cases base with
    | bool => exact absurd hv id
    | uint8 | int8 | uint16 | int16 | uint32 | int32 | handle =>
      exact (hints hlength fun x _ => hint rfl x).bind_pure
    | string =>
      exact (hrefs rfl hlength fun o ho => href ⟨by rintro ⟨⟩, by rintro ⟨⟩⟩ (hv o ho)
        (hshort o ho)).bind_pure
    | _ =>
      exact (hsame rfl hlength fun o ho => href ⟨by rintro ⟨⟩, by rintro ⟨⟩⟩
        (hv o ho) trivial).bind_pure

/-- Nothing is read from the chunks of a content with a string that is too long. -/
lemma rejects_decodeKnown {v : f.javaType.Param f.isArray}
    (hv : Encodable cs f.javaType f.isArray v)
    (hlong : ¬Short cs f.javaType f.isArray v) (hlength : arrayLength f.isArray v < 2 ^ 31)
    (struct : ObusStruct) :
    Rejects (decodeKnown cs f struct)
      (contentChunks cs f.fieldType f.javaType f.isArray v).flatten := by
  have hyes := @yields_decodeValue cs f
  have hno := @rejects_decodeValue cs f
  have hrefs := @rejects_decodeArray cs f
  obtain ⟨uid, base, isArray, idx⟩ := f
  cases base with
  | string =>
    cases isArray with
    | false =>
      rw [contentChunks, List.flatten_singleton]
      exact (hno (o := some v) hv hlong).bind_self
    | true =>
      have hsome : ¬RefsShort cs v := hlong
      unfold RefsShort at hsome
      push Not at hsome
      obtain ⟨o, ho, hbad⟩ := hsome
      refine (hrefs (r := receivedRef cs .string) rfl hlength (fun o ho => ?_) ho
        (hno (hv o ho) hbad)).bind_self
      by_cases hgood : RefShort cs .string o
      · exact Or.inl (hyes ⟨by rintro ⟨⟩, by rintro ⟨⟩⟩ (hv o ho) hgood)
      · exact Or.inr (hno (hv o ho) hgood)
  | _ => exact absurd trivial hlong

end Decoding

/-! ## Fields -/

section Fields

variable {cs : Charset} {desc : StructDesc}

lemma get_of_mem {f : FieldDesc} (hf : f ∈ desc.fields) : desc.get f.uid = some f := by
  cases hfind : desc.get f.uid with
  | none =>
    have hno := List.find?_eq_none.mp hfind f hf
    exact absurd (decide_eq_true rfl) hno
  | some g =>
    have huid : g.uid = f.uid := by simpa using List.find?_some hfind
    rw [List.inj_on_of_nodup_map desc.uids (List.mem_of_find?_eq_some hfind) hf huid]

lemma mem_of_get {uid : BitVec 32} {f : FieldDesc} (h : desc.get uid = some f) :
    f ∈ desc.fields ∧ f.uid = uid :=
  ⟨List.mem_of_find?_eq_some h, by simpa using List.find?_some h⟩

lemma setWidth_of_lt {w : ℕ} (hw : w ≤ 32) {v : BitVec 32} (hv : v.toNat < 2 ^ w) :
    (v.setWidth w).setWidth 32 = v := by
  have hpow : 2 ^ w ≤ 2 ^ 32 := Nat.pow_le_pow_right (by decide) hw
  apply BitVec.eq_of_toNat_eq
  rw [BitVec.toNat_setWidth, BitVec.toNat_setWidth, Nat.mod_eq_of_lt hv,
    Nat.mod_eq_of_lt (hv.trans_le hpow)]

lemma code_lt (t : FieldType) : t.code.toNat < 2 ^ 8 ∧ (t.code ||| fieldArray).toNat < 2 ^ 8 := by
  cases t <;> decide

lemma type_lt (f : FieldDesc) : f.type.toNat < 2 ^ 8 := by
  rw [FieldDesc.type]
  split_ifs
  · exact (code_lt f.fieldType).2
  · exact (code_lt f.fieldType).1

/-- The uid and the type of a field are read, and then its content. -/
lemma decodeField_header {f : FieldDesc} (hf : f ∈ desc.fields) (struct : ObusStruct) :
    ∃ k : BitVec 32 → BitVec 32 → Read ObusStruct,
      (decodeField cs desc struct = readU16 >>= fun uid => readU8 >>= fun type => k uid type) ∧
      k f.uid f.type = decodeKnown cs f struct := by
  refine ⟨_, rfl, ?_⟩
  rw [get_of_mem hf]
  exact if_neg (not_not.mpr rfl)

/-- A field whose content is read is read. -/
lemma yields_decodeField {f : FieldDesc} (hf : f ∈ desc.fields) (huid : f.uid.toNat < 65536)
    {struct struct' : ObusStruct}
    {bs : List UInt8} (hcontent : Yields (decodeKnown cs f struct) bs struct') :
    Yields (decodeField cs desc struct)
      (bigEndian 2 f.uid.toNat ++ (bigEndian 1 f.type.toNat ++ bs)) struct' := by
  obtain ⟨k, hk, hknown⟩ := @decodeField_header cs _ _ hf struct
  have hu := yields_readU16 f.uid
  have ht := yields_readU8 f.type
  rw [setWidth_of_lt (by decide) huid] at hu
  rw [setWidth_of_lt (by decide) (type_lt f)] at ht
  rw [hk]
  refine hu.bind (ht.bind ?_)
  rwa [hknown]

/-- A field whose content is refused is refused. -/
lemma rejects_decodeField {f : FieldDesc} (hf : f ∈ desc.fields) (huid : f.uid.toNat < 65536)
    {struct : ObusStruct} {bs : List UInt8} (hcontent : Rejects (decodeKnown cs f struct) bs) :
    Rejects (decodeField cs desc struct)
      (bigEndian 2 f.uid.toNat ++ (bigEndian 1 f.type.toNat ++ bs)) := by
  obtain ⟨k, hk, hknown⟩ := @decodeField_header cs _ _ hf struct
  have hu := yields_readU16 f.uid
  have ht := yields_readU8 f.type
  rw [setWidth_of_lt (by decide) huid] at hu
  rw [setWidth_of_lt (by decide) (type_lt f)] at ht
  rw [hk]
  refine hu.rejects (ht.rejects ?_)
  rwa [hknown]

end Fields

/-! ## Entries -/

section Entries

variable {desc : StructDesc} {vals : Values}

lemma mem_entries {e : Entry} : e ∈ entries desc vals ↔ e.1 ∈ desc.fields ∧
    vals e.1 = some e.2 := by
  rw [entries, List.mem_filterMap]
  constructor
  · rintro ⟨f, hf, heq⟩
    obtain ⟨v, hv, rfl⟩ := Option.map_eq_some_iff.mp heq
    exact ⟨hf, hv⟩
  · rintro ⟨hf, hv⟩
    exact ⟨e.1, hf, by rw [hv, Option.map_some]⟩

/-- The fields of the entries are among those of the structure, in their order. -/
lemma entries_sublist : ((entries desc vals).map Sigma.fst).Sublist desc.fields := by
  rw [entries]
  induction desc.fields with
  | nil => exact List.Sublist.refl _
  | cons f fields ih =>
    cases hv : vals f with
    | none =>
      rw [List.filterMap_cons_none (by rw [hv, Option.map_none])]
      exact ih.cons f
    | some v =>
      rw [List.filterMap_cons_some (by rw [hv, Option.map_some])]
      exact ih.cons_cons f

lemma entries_idx_nodup : ((entries desc vals).map fun e => e.1.idx).Nodup := by
  have hsub := (@entries_sublist desc vals).map FieldDesc.idx
  rw [List.map_map] at hsub
  exact desc.idxs.sublist hsub

lemma entries_uid_nodup : ((entries desc vals).map fun e => e.1.uid).Nodup := by
  have hsub := (@entries_sublist desc vals).map FieldDesc.uid
  rw [List.map_map] at hsub
  exact desc.uids.sublist hsub

/-- There are not too many entries for their number, as uids are not zero. -/
lemma entries_length_lt (huid : ∀ e ∈ entries desc vals, e.1.uid.toNat < 65536) :
    (entries desc vals).length < 65536 := by
  have hnodup : ((entries desc vals).map fun e => e.1.uid.toNat).Nodup := by
    have hmap := (@entries_uid_nodup desc vals).map (f := BitVec.toNat) fun _ _ h =>
      BitVec.eq_of_toNat_eq h
    rwa [List.map_map] at hmap
  have hsub : ((entries desc vals).map fun e => e.1.uid.toNat) ⊆ (List.range' 1 65535) := by
    intro n hn
    obtain ⟨e, he, rfl⟩ := List.mem_map.mp hn
    have hzero := desc.uid_ne_zero e.1 (mem_entries.mp he).1
    have hpos : e.1.uid.toNat ≠ 0 := fun h => hzero (BitVec.eq_of_toNat_eq h)
    have hlt := huid e he
    exact List.mem_range'_1.mpr ⟨by omega, by omega⟩
  have hle := (hnodup.subperm hsub).length_le
  rw [List.length_map, List.length_range'] at hle
  omega

/-- What a sequence of assignments leaves in the two tables. -/
lemma foldl_setTo (o : Entry → Obj) (n : Entry → Option (BitVec 32)) {l : List Entry}
    (hidx : (l.map fun e => e.1.idx).Nodup) (s : ObusStruct) :
    (∀ e ∈ l, (l.foldl (fun s e => s.setTo e.1 (o e) (n e)) s).fields e.1.idx = some (o e) ∧
      ∀ k, n e = some k → (l.foldl (fun s e => s.setTo e.1 (o e) (n e)) s).fieldsInt e.1.idx = k) ∧
    (∀ i ∉ l.map fun e => e.1.idx, (l.foldl (fun s e => s.setTo e.1 (o e) (n e)) s).fields i =
      s.fields i ∧
      (l.foldl (fun s e => s.setTo e.1 (o e) (n e)) s).fieldsInt i = s.fieldsInt i) := by
  induction l generalizing s with
  | nil => exact ⟨fun e he => absurd he List.not_mem_nil, fun i _ => ⟨rfl, rfl⟩⟩
  | cons e l ih =>
    rw [List.map_cons, List.nodup_cons] at hidx
    obtain ⟨hset, hkept⟩ := ih hidx.2 (s.setTo e.1 (o e) (n e))
    have hfield : (s.setTo e.1 (o e) (n e)).fields = Function.update s.fields e.1.idx
        (some (o e)) := by
      cases n e <;> rfl
    have hother : ∀ i, i ≠ e.1.idx → (s.setTo e.1 (o e) (n e)).fieldsInt i = s.fieldsInt i := by
      intro i hi
      cases n e with
      | none => rfl
      | some k => exact Function.update_of_ne hi _ _
    refine ⟨fun e' he' => ?_, fun i hi => ?_⟩
    · rw [List.foldl_cons]
      rcases List.mem_cons.mp he' with rfl | he'
      · obtain ⟨hobj, hint⟩ := hkept e'.1.idx hidx.1
        refine ⟨by rw [hobj, hfield, Function.update_self], fun k hk => ?_⟩
        rw [hint, hk]
        exact Function.update_self _ _ _
      · exact hset e' he'
    · rw [List.map_cons, List.mem_cons, not_or] at hi
      obtain ⟨hobj, hint⟩ := hkept i hi.2
      rw [List.foldl_cons, hobj, hint, hfield, Function.update_of_ne hi.1]
      exact ⟨rfl, hother i hi.1⟩

lemma foldl_setTo_desc (o : Entry → Obj) (n : Entry → Option (BitVec 32)) (l : List Entry)
    (s : ObusStruct) : (l.foldl (fun s e => s.setTo e.1 (o e) (n e)) s).desc = s.desc := by
  induction l generalizing s with
  | nil => rfl
  | cons e l ih =>
    rw [List.foldl_cons, ih]
    cases n e <;> rfl

/-- What the setters leave. -/
lemma setAll_eq : setAll desc vals = (entries desc vals).foldl
    (fun s e => s.setTo e.1 (objOf e.1.javaType e.1.isArray e.2)
      (intOf e.1.javaType e.1.isArray e.2))
    (ObusStruct.create desc) := by
  have hstep : (fun (s : ObusStruct) (e : Entry) =>
      ObusStruct.setField e.1.javaType e.1.isArray s e.1 e.2) =
      fun s e => s.setTo e.1 (objOf e.1.javaType e.1.isArray e.2)
        (intOf e.1.javaType e.1.isArray e.2) := by
    funext s e
    exact setField_eq s e.1 e.2
  rw [setAll, hstep]

lemma setAll_desc : (setAll desc vals).desc = desc := by
  rw [setAll_eq, foldl_setTo_desc (fun e => objOf e.1.javaType e.1.isArray e.2) fun e =>
    intOf e.1.javaType e.1.isArray e.2]
  rfl

lemma setAll_of_some {f : FieldDesc} (hf : f ∈ desc.fields) {v : f.javaType.Param f.isArray}
    (hv : vals f = some v) : (setAll desc vals).fields f.idx = some (objOf f.javaType f.isArray v) ∧
      ∀ k, intOf f.javaType f.isArray v = some k → (setAll desc vals).fieldsInt f.idx = k := by
  rw [setAll_eq]
  exact (foldl_setTo (fun e => objOf e.1.javaType e.1.isArray e.2)
    (fun e => intOf e.1.javaType e.1.isArray e.2)
    entries_idx_nodup _).1 ⟨f, v⟩ (mem_entries.mpr ⟨hf, hv⟩)

/-- No field shares its place with an entry of another. -/
lemma idx_not_mem_entries {f : FieldDesc} (hf : f ∈ desc.fields) (hv : vals f = none) :
    f.idx ∉ (entries desc vals).map fun e => e.1.idx := by
  intro hmem
  obtain ⟨e, he, hidx⟩ := List.mem_map.mp hmem
  obtain ⟨hfield, hval⟩ := mem_entries.mp he
  have hsame : e.1 = f := List.inj_on_of_nodup_map desc.idxs hfield hf hidx
  subst hsame
  rw [hv] at hval
  cases hval

lemma setAll_of_none {f : FieldDesc} (hf : f ∈ desc.fields) (hv : vals f = none) :
    (setAll desc vals).fields f.idx = none := by
  rw [setAll_eq]
  exact ((foldl_setTo (fun e => objOf e.1.javaType e.1.isArray e.2)
    (fun e => intOf e.1.javaType e.1.isArray e.2)
    entries_idx_nodup _).2 f.idx (idx_not_mem_entries hf hv)).1

lemma hasField_setAll {f : FieldDesc} (hf : f ∈ desc.fields) :
    (setAll desc vals).hasField f = (vals f).isSome := by
  cases hv : vals f with
  | none => rw [ObusStruct.hasField, setAll_of_none hf hv, Option.isSome_none, Option.isSome_none]
  | some v =>
    rw [ObusStruct.hasField, (setAll_of_some hf hv).1, Option.isSome_some, Option.isSome_some]

lemma countP_hasField : desc.fields.countP (setAll desc vals).hasField =
    (entries desc vals).length := by
  have hcount : desc.fields.countP (setAll desc vals).hasField = desc.fields.countP fun f =>
      (vals f).isSome := by
    refine List.countP_congr fun f hf => ?_
    rw [hasField_setAll hf]
  have hlength : ∀ fields : List FieldDesc, (fields.countP fun f => (vals f).isSome) =
      (fields.filterMap fun f => (vals f).map (Sigma.mk f)).length := by
    intro fields
    induction fields with
    | nil => rfl
    | cons f fields ih =>
      cases hv : vals f with
      | none =>
        rw [List.filterMap_cons_none (by rw [hv, Option.map_none]), List.countP_cons_of_neg
          (by rw [hv]; exact Bool.false_ne_true), ih]
      | some v =>
        rw [List.filterMap_cons_some (by rw [hv, Option.map_some]), List.countP_cons_of_pos
          (by rw [hv]; rfl), ih,
          List.length_cons]
  rw [hcount, hlength, entries]

/-! ## The encoding of a structure -/

variable {cs : Charset}

/-- An entry that can be encoded is written in its chunks. -/
lemma encodeField_of_some {f : FieldDesc} (hf : f ∈ desc.fields) {v : f.javaType.Param f.isArray}
    (hv : vals f = some v) (hgood : Encodable cs f.javaType f.isArray v) :
    (setAll desc vals).encodeField cs f = each write (entryChunks cs ⟨f, v⟩) := by
  obtain ⟨hobj, hint⟩ := setAll_of_some hf hv
  have hhas : (setAll desc vals).hasField f = true := by
    rw [hasField_setAll hf, hv, Option.isSome_some]
  rw [ObusStruct.encodeField, if_pos hhas, hobj, encodeKnown_eq hgood hint]
  rfl

lemma encodeField_of_none {f : FieldDesc} (hf : f ∈ desc.fields) (hv : vals f = none) :
    (setAll desc vals).encodeField cs f = pure () := by
  have hhas : (setAll desc vals).hasField f = false := by
    rw [hasField_setAll hf, hv, Option.isSome_none]
  rw [ObusStruct.encodeField, hhas]
  rfl

/-- A structure whose values can be encoded is written in its chunks. -/
lemma encode_eq (hgood : ∀ e ∈ entries desc vals, Encodable cs e.1.javaType e.1.isArray e.2) :
    (setAll desc vals).encode cs = each write (structChunks cs (entries desc vals)) := by
  have hfields : ∀ fields, (∀ f ∈ fields, f ∈ desc.fields) →
      each ((setAll desc vals).encodeField cs) fields =
      each write ((fields.filterMap fun f => (vals f).map (Sigma.mk f)).flatMap
        (entryChunks cs)) := by
    intro fields hsub
    induction fields with
    | nil => rfl
    | cons f fields ih =>
      have hf := hsub f List.mem_cons_self
      have hrest := ih fun g hg => hsub g (List.mem_cons_of_mem f hg)
      cases hv : vals f with
      | none =>
        rw [List.filterMap_cons_none (by rw [hv, Option.map_none]), each, encodeField_of_none hf hv,
          hrest, pure_bind]
      | some v =>
        rw [List.filterMap_cons_some (by rw [hv, Option.map_some]), each, hrest, List.flatMap_cons,
          each_append,
          encodeField_of_some hf hv (hgood ⟨f, v⟩ (mem_entries.mpr ⟨hf, hv⟩))]
  have hcount : writeU16 (BitVec.ofNat 32 (entries desc vals).length) =
      write (bigEndian 2 (entries desc vals).length) := by
    rw [writeU16, BitVec.toNat_ofNat, ← bigEndian_mod 2, Nat.mod_mod_of_dvd _ (by decide),
      bigEndian_mod]
  rw [ObusStruct.encode, setAll_desc, countP_hasField, hcount, hfields desc.fields fun f hf => hf]
  rfl

/-- The values of a structure that has been encoded can be. -/
lemma encodable_of_leads_encode {b b' : TxBuffer} {u : Unit}
    (h : Leads ((setAll desc vals).encode cs) b u b') :
    ∀ e ∈ entries desc vals, Encodable cs e.1.javaType e.1.isArray e.2 := by
  rintro ⟨f, v⟩ he
  obtain ⟨hf, hv⟩ := mem_entries.mp he
  have hhas : (setAll desc vals).hasField f = true := by
    rw [hasField_setAll hf, hv, Option.isSome_some]
  obtain ⟨_, t, -, hfields⟩ := leads_bind.mp h
  rw [setAll_desc] at hfields
  obtain ⟨t₁, t₂, hfield⟩ := exists_leads_of_each hfields hf
  rw [ObusStruct.encodeField, if_pos hhas, (setAll_of_some hf hv).1] at hfield
  obtain ⟨_, t₃, -, htype⟩ := leads_bind.mp hfield
  obtain ⟨_, t₄, -, hknown⟩ := leads_bind.mp htype
  exact encodable_of_leads hknown

/-! ## The decoding of a structure -/

lemma flatten_flatMap {α β : Type} (g : α → List (List β)) (l : List α) :
    (l.flatMap g).flatten = l.flatMap fun a => (g a).flatten := by
  rw [List.flatMap_def, List.flatten_flatten, List.map_map, List.flatMap_def]
  rfl

/-- What the decoder makes of an entry. -/
def receivedEntry (cs : Charset) (s : ObusStruct) (e : Entry) : ObusStruct :=
  s.setTo e.1 (objOf e.1.javaType e.1.isArray
    (received cs e.1.fieldType e.1.javaType e.1.isArray e.2))
    (intOf e.1.javaType e.1.isArray (received cs e.1.fieldType e.1.javaType e.1.isArray e.2))

lemma yields_count {n : ℕ} (hn : n < 65536) :
    Yields readU16 (bigEndian 2 n) (BitVec.ofNat 32 n) := by
  have hsize : (BitVec.ofNat 32 n).toNat = n := toNat_size (by omega)
  have hread := yields_readU16 (BitVec.ofNat 32 n)
  rwa [setWidth_of_lt (by decide) (by rw [hsize]; exact hn), hsize] at hread

section Chunks

variable {l : List Entry} (hl : ∀ e ∈ l, e.1 ∈ desc.fields ∧ e.1.uid.toNat < 65536 ∧
  Encodable cs e.1.javaType e.1.isArray e.2 ∧ arrayLength e.1.isArray e.2 < 2 ^ 31)
  (hcount : l.length < 65536)

include hl hcount

/-- A structure is read from its chunks. -/
lemma yields_decode (hshort : ∀ e ∈ l, Short cs e.1.javaType e.1.isArray e.2) :
    Yields (ObusStruct.decode cs desc) (structChunks cs l).flatten
      (l.foldl (receivedEntry cs) (ObusStruct.create desc)) := by
  rw [ObusStruct.decode, structChunks, List.flatten_cons, flatten_flatMap]
  refine (yields_count hcount).bind ?_
  rw [toNat_size (by omega)]
  refine yields_iter (fun e he struct => ?_) _
  obtain ⟨hfield, huid, hgood, hlength⟩ := hl e he
  exact yields_decodeField hfield huid (yields_decodeKnown hgood (hshort e he) hlength struct)

/-- It is refused if one of them has a string that is too long. -/
lemma rejects_decode {e : Entry} (he : e ∈ l) (hlong : ¬Short cs e.1.javaType e.1.isArray e.2) :
    Rejects (ObusStruct.decode cs desc) (structChunks cs l).flatten := by
  rw [ObusStruct.decode, structChunks, List.flatten_cons, flatten_flatMap]
  refine (yields_count hcount).rejects ?_
  rw [toNat_size (by omega)]
  refine rejects_iter (g := receivedEntry cs) (fun e he struct => ?_) he (fun struct => ?_) _
  · obtain ⟨hfield, huid, hgood, hlength⟩ := hl e he
    by_cases hshort : Short cs e.1.javaType e.1.isArray e.2
    · exact Or.inl (yields_decodeField hfield huid (yields_decodeKnown hgood hshort hlength struct))
    · exact Or.inr (rejects_decodeField hfield huid
        (rejects_decodeKnown hgood hshort hlength struct))
  · obtain ⟨hfield, huid, hgood, hlength⟩ := hl e he
    exact rejects_decodeField hfield huid (rejects_decodeKnown hgood hlong hlength struct)

end Chunks

/-! ## Which fields are decoded -/

lemma lt_of_leads_readU16 {b b' : RxBuffer} {v : BitVec 32} (h : Leads readU16 b v b') :
    v.toNat < 65536 := by
  obtain ⟨w, hget, rfl⟩ := leads_map.mp h
  obtain ⟨bs, -, rfl⟩ := leads_map.mp hget
  have heq := unsigned_eq_setWidth (by decide) (BitVec.ofNat (8 * 2) (ofBigEndian bs))
  have hlt : (BitVec.ofNat (8 * 2) (ofBigEndian bs)).toNat < 65536 := BitVec.isLt _
  change BitVec.toNat (if _ then _ else _ + BitVec.ofNat 32 (2 ^ (8 * 2))) < 65536
  rw [heq, BitVec.toNat_setWidth, Nat.mod_eq_of_lt (by omega)]
  exact hlt

/-- The content of a field changes nothing of the others. -/
lemma fields_of_leads_decodeKnown {f : FieldDesc} {struct struct' : ObusStruct} {b b' : RxBuffer}
    (h : Leads (decodeKnown cs f struct) b struct' b') {i : ℕ} (hi : i ≠ f.idx) :
    struct'.fields i = struct.fields i := by
  unfold decodeKnown at h
  split_ifs at h
  all_goals
    obtain ⟨v, t, -, hpure⟩ := leads_bind.mp h
    obtain ⟨rfl, -⟩ := leads_pure.mp hpure
    exact Function.update_of_ne hi _ _

/-- Only fields whose uid has 16 bits are decoded. -/
lemma uid_lt_of_leads_decode {struct : ObusStruct} {b b' : RxBuffer}
    (h : Leads (ObusStruct.decode cs desc) b struct b')
    {f : FieldDesc} (hf : f ∈ desc.fields) (hhas : struct.hasField f = true) :
    f.uid.toNat < 65536 := by
  have hstep : ∀ (s : ObusStruct) (t : RxBuffer) (s' : ObusStruct) (t' : RxBuffer),
      (∀ f ∈ desc.fields, s.hasField f = true → f.uid.toNat < 65536) →
      Leads (decodeField cs desc s) t s' t' →
        ∀ f ∈ desc.fields, s'.hasField f = true → f.uid.toNat < 65536 := by
    intro s t s' t' hinv hlead f hf hhas
    obtain ⟨uid, t₁, huid, hlead⟩ := leads_bind.mp hlead
    obtain ⟨type, t₂, -, hlead⟩ := leads_bind.mp hlead
    have hlt := lt_of_leads_readU16 huid
    have hsame : s' = s → f.uid.toNat < 65536 := by
      rintro rfl
      exact hinv f hf hhas
    cases hget : desc.get uid with
    | none =>
      rw [hget] at hlead
      obtain ⟨_, t₃, -, hpure⟩ := leads_bind.mp hlead
      exact hsame (leads_pure.mp hpure).1.symm
    | some g =>
      obtain ⟨hg, rfl⟩ := mem_of_get hget
      rw [hget] at hlead
      by_cases htype : type ≠ g.type
      · simp only [if_pos htype] at hlead
        obtain ⟨_, t₃, -, hpure⟩ := leads_bind.mp hlead
        exact hsame (leads_pure.mp hpure).1.symm
      · simp only [if_neg htype] at hlead
        by_cases hidx : f.idx = g.idx
        · rwa [List.inj_on_of_nodup_map desc.idxs hf hg hidx]
        · refine hinv f hf ?_
          rwa [ObusStruct.hasField, ← fields_of_leads_decodeKnown hlead hidx]
  obtain ⟨count, t, -, hloop⟩ := leads_bind.mp h
  refine iter_invariant (I := fun s => ∀ f ∈ desc.fields, s.hasField f = true → f.uid.toNat < 65536)
    hstep ?_ hloop f hf hhas
  intro g _ hno
  cases hno

end Entries

/-! ## Values that are carried -/

section CarriedValues

variable {cs : Charset}

lemma map_eq_self_iff {α : Type} {r : α → α} {l : List α} : l.map r = l ↔ ∀ a ∈ l, r a = a := by
  have hinj : l.map r = l.map id ↔ ∀ a ∈ l, r a = id a := List.map_inj_left
  rwa [List.map_id] at hinj

lemma stringsCarried_iff {a : List (Option JString)} : StringsCarried cs a ↔
    RefsEncodable cs .string a ∧ RefsShort cs a ∧ a.map (receivedRef cs .string) = a := by
  constructor
  · intro h
    refine ⟨fun o ho => ?_, fun o ho => ?_, map_eq_self_iff.mpr fun o ho => ?_⟩
    · cases o with
      | none => trivial
      | some s =>
        have hsize := (h s ho).1
        exact (by omega : (cs.getBytes s).length + 5 < 2 ^ 31)
    · cases o with
      | none => trivial
      | some s => exact (h s ho).1
    · cases o with
      | none => rfl
      | some s => exact congrArg some (h s ho).2
  · rintro ⟨-, hshort, hkept⟩ s hs
    exact ⟨hshort (some s) hs, Option.some.inj (map_eq_self_iff.mp hkept (some s) hs)⟩

/-- A reference to a value that is not a string can be encoded unless it is `null`. -/
lemma refsEncodable_iff {c : JavaType} (hc : c ≠ .string) {a : List (Option c.Val)} :
    RefsEncodable cs c a ↔ NoNull a := by
  constructor
  · intro h hnone
    have hno := h none hnone
    cases c with
    | string => exact hc rfl
    | _ => exact hno
  · intro h o ho
    cases o with
    | none => exact absurd ho h
    | some v =>
      cases c with
      | string => exact absurd rfl hc
      | _ => trivial

/-- A value is carried if it can be encoded and decoded, there is a getter, and the charset keeps
it. -/
lemma carried_iff (t : FieldType) {c : JavaType} {isArray : Bool} {v : c.Param isArray} :
    Carried cs c isArray v ↔
    Encodable cs c isArray v ∧ Short cs c isArray v ∧
    (ObusStruct.getField c isArray).isSome = true ∧
      received cs t c isArray v = wrapped t c isArray v := by
  cases isArray with
  | false =>
    cases c with
    | string =>
      constructor
      · rintro ⟨hsize, hkept⟩
        exact ⟨(by omega : (cs.getBytes v).length + 5 < 2 ^ 31), hsize, rfl, hkept⟩
      · rintro ⟨-, hshort, -, hkept⟩
        exact ⟨hshort, hkept⟩
    | float | double => exact iff_of_false id fun h => Bool.false_ne_true h.2.2.1
    | _ => exact iff_of_true trivial ⟨trivial, trivial, rfl, rfl⟩
  | true =>
    cases c with
    | int => exact iff_of_true trivial ⟨trivial, trivial, rfl, rfl⟩
    | string =>
      refine stringsCarried_iff.trans ?_
      constructor
      · rintro ⟨hgood, hshort, hkept⟩
        exact ⟨hgood, hshort, rfl, hkept⟩
      · rintro ⟨hgood, hshort, -, hkept⟩
        exact ⟨hgood, hshort, hkept⟩
    | boolean => exact iff_of_false id And.left
    | float | double => exact iff_of_false id fun h => Bool.false_ne_true h.2.2.1
    | _ =>
      refine (@refsEncodable_iff cs _ (by rintro ⟨⟩) v).symm.trans ?_
      constructor
      · intro hgood
        exact ⟨hgood, trivial, rfl, rfl⟩
      · exact And.left

/-- A getter finds what is in the tables. -/
lemma get_of_fields {c : JavaType} {isArray : Bool}
    {get : ObusStruct → FieldDesc → Except Exc (Option (c.Param isArray))}
    (hget : ObusStruct.getField c isArray = some get) {s : ObusStruct} {f : FieldDesc}
    {v : c.Param isArray}
    (hobj : s.fields f.idx = some (objOf c isArray v))
    (hint : ∀ k, intOf c isArray v = some k → s.fieldsInt f.idx = k) : get s f = .ok (some v) := by
  have hboxed := castTo_boxed c
  have hprims := castToPrims_prims c
  have hrefs := castToRefs_refs c
  cases isArray with
  | false =>
    cases c with
    | int =>
      cases hget
      exact congrArg (fun k => Except.ok (some k)) (hint v rfl)
    | boolean =>
      cases hget
      have hval : s.getFieldBool f = .ok v := by
        rw [ObusStruct.getFieldBool, hobj]
        exact valueOf_boxed .boolean v
      exact congrArg (Except.map some) hval
    | float | double => cases hget
    | _ =>
      cases hget
      exact (congrArg (castTo _) hobj).trans (hboxed v)
  | true =>
    cases c with
    | int | boolean =>
      cases hget
      exact (congrArg (castToPrims _) hobj).trans (hprims v)
    | float | double => cases hget
    | _ =>
      cases hget
      exact (congrArg (castToRefs _) hobj).trans (hrefs v)

end CarriedValues

/-! ## The round trip -/

section RoundTrip

variable {cs : Charset} {desc : StructDesc} {vals : Values} {b : TxBuffer}

lemma valBytes_pos (t : FieldType) (c : JavaType) (v : c.Val) : 0 < (valBytes cs t c v).length := by
  cases c with
  | int =>
    have hwidth : 0 < intWidth t := by cases t <;> decide
    rwa [valBytes, bigEndian_length]
  | string =>
    exact (Nat.succ_pos _).trans_eq (stringBytes_length cs v).symm
  | _ =>
    rw [valBytes, bigEndian_length]
    decide

lemma refBytes_pos (t : FieldType) (c : JavaType) (o : Option c.Val) :
    0 < (refBytes cs t c o).length := by
  cases o with
  | none =>
    rw [refBytes, bigEndian_length]
    decide
  | some v => exact valBytes_pos t c v

lemma elemBytes_pos (t : FieldType) (c : JavaType) (v : c.Elem) :
    0 < (elemBytes cs t c v).length := by
  have hval := @valBytes_pos cs t c
  have href := @refBytes_pos cs t c
  cases c with
  | int | boolean => exact hval v
  | _ => exact href v

lemma length_le_flatten_map {α β : Type} {g : α → List β} (hpos : ∀ a, 0 < (g a).length)
    (l : List α) : l.length ≤ (l.map g).flatten.length := by
  induction l with
  | nil => exact le_rfl
  | cons a l ih =>
    have hhead := hpos a
    rw [List.map_cons, List.flatten_cons, List.length_append, List.length_cons]
    omega

/-- An array takes at least as many bytes as it has entries. -/
lemma arrayLength_le (t : FieldType) {c : JavaType} {isArray : Bool} (v : c.Param isArray) :
    arrayLength isArray v ≤ (contentChunks cs t c isArray v).flatten.length := by
  cases isArray with
  | false => exact Nat.zero_le _
  | true =>
    rw [contentChunks, List.flatten_cons, List.length_append]
    exact (length_le_flatten_map (elemBytes_pos t c) v).trans (Nat.le_add_left _ _)

lemma arrayLength_le_of_mem {l : List Entry} {e : Entry} (he : e ∈ l) :
    arrayLength e.1.isArray e.2 ≤ (structChunks cs l).flatten.length := by
  have hentry : (contentChunks cs e.1.fieldType e.1.javaType e.1.isArray e.2).flatten.length ≤
      (entryChunks cs e).flatten.length := by
    rw [entryChunks, List.flatten_cons, List.flatten_cons, List.length_append, List.length_append]
    omega
  have hmem : (entryChunks cs e).flatten ∈ l.map fun e => (entryChunks cs e).flatten :=
    List.mem_map_of_mem he
  have hall := (List.sublist_flatten_of_mem hmem).length_le
  rw [← List.flatMap_def] at hall
  rw [structChunks, List.flatten_cons, flatten_flatMap, List.length_append]
  exact (arrayLength_le e.1.fieldType e.2).trans (hentry.trans (hall.trans (Nat.le_add_left _ _)))

/-- What is found in the structure that the decoder makes of all entries. -/
lemma found_received {f : FieldDesc} (hf : f ∈ desc.fields)
    (hcarried : ∀ v, vals f = some v → Carried cs f.javaType f.isArray v) :
    Found ((entries desc vals).foldl (receivedEntry cs) (ObusStruct.create desc)) f (vals f) := by
  have htables := foldl_setTo
    (fun e => objOf e.1.javaType e.1.isArray
      (received cs e.1.fieldType e.1.javaType e.1.isArray e.2))
    (fun e => intOf e.1.javaType e.1.isArray
      (received cs e.1.fieldType e.1.javaType e.1.isArray e.2))
    (@entries_idx_nodup desc vals) (ObusStruct.create desc)
  cases hv : vals f with
  | none =>
    have hobj := (htables.2 f.idx (idx_not_mem_entries hf hv)).1
    exact congrArg Option.isSome hobj
  | some v =>
    obtain ⟨-, -, hsome, hkept⟩ := (carried_iff f.fieldType).mp (hcarried v hv)
    obtain ⟨get, hget⟩ := Option.isSome_iff_exists.mp hsome
    obtain ⟨hobj, hint⟩ := htables.1 ⟨f, v⟩ (mem_entries.mpr ⟨hf, hv⟩)
    refine ⟨congrArg Option.isSome hobj, get, hget, ?_⟩
    rw [← hkept]
    exact get_of_fields hget hobj hint

/-- What is found in it of a value is the received one. -/
lemma received_of_found {f : FieldDesc} (hf : f ∈ desc.fields) {v : f.javaType.Param f.isArray}
    (hv : vals f = some v)
    (hfound : Found ((entries desc vals).foldl (receivedEntry cs) (ObusStruct.create desc)) f
      (some v)) :
    (ObusStruct.getField f.javaType f.isArray).isSome = true ∧
      received cs f.fieldType f.javaType f.isArray v =
        wrapped f.fieldType f.javaType f.isArray v := by
  have htables := foldl_setTo
    (fun e => objOf e.1.javaType e.1.isArray
      (received cs e.1.fieldType e.1.javaType e.1.isArray e.2))
    (fun e => intOf e.1.javaType e.1.isArray
      (received cs e.1.fieldType e.1.javaType e.1.isArray e.2))
    (@entries_idx_nodup desc vals) (ObusStruct.create desc)
  obtain ⟨-, get, hget, hval⟩ := hfound
  obtain ⟨hobj, hint⟩ := htables.1 ⟨f, v⟩ (mem_entries.mpr ⟨hf, hv⟩)
  have hreceived := get_of_fields hget hobj hint
  refine ⟨by rw [hget, Option.isSome_some], ?_⟩
  exact Option.some.inj (Except.ok.inj (hreceived.symm.trans hval))

/-- Everything that is set is found behind the encoder and the decoder exactly if every value is
carried, uids have 16 bits, and the buffer does not grow beyond the largest one. -/
theorem round_trips_iff (cs : Charset) (desc : StructDesc) (vals : Values) (b : TxBuffer) :
    RoundTrips cs desc vals b ↔
    (∀ f ∈ desc.fields, ∀ v, vals f = some v → f.uid.toNat < 65536 ∧
      Carried cs f.javaType f.isArray v) ∧
      Fits b.capacity b.bytes.length ((structChunks cs (entries desc vals)).map List.length) := by
  have hsizes : ∀ {b'}, Leads (each write (structChunks cs (entries desc vals))) b () b' →
      ∀ e ∈ entries desc vals, arrayLength e.1.isArray e.2 < 2 ^ 31 := by
    intro b' hwrite e he
    have hle := @arrayLength_le_of_mem cs _ _ he
    have hroom := b'.room
    rw [bytes_of_leads_writeAll hwrite, List.length_append] at hroom
    have hsmall := b'.small
    omega
  constructor
  · rintro ⟨b', s', t, hencode, hdecode, hfound⟩
    have hgood := encodable_of_leads_encode hencode
    rw [encode_eq hgood] at hencode
    have hlength := hsizes hencode
    have hbytes := bytes_of_leads_writeAll hencode
    have huid : ∀ e ∈ entries desc vals, e.1.uid.toNat < 65536 := by
      rintro ⟨f, v⟩ he
      obtain ⟨hf, hv⟩ := mem_entries.mp he
      have hhas := hfound f hf
      rw [hv] at hhas
      exact uid_lt_of_leads_decode hdecode hf hhas.1
    have hcount := entries_length_lt huid
    have hl : ∀ e ∈ entries desc vals, e.1 ∈ desc.fields ∧ e.1.uid.toNat < 65536 ∧
        Encodable cs e.1.javaType e.1.isArray e.2 ∧ arrayLength e.1.isArray e.2 < 2 ^ 31 :=
      fun e he => ⟨(mem_entries.mp he).1, huid e he, hgood e he, hlength e he⟩
    rw [hbytes, ← List.append_nil (b.bytes ++ _)] at hdecode
    have hshort : ∀ e ∈ entries desc vals, Short cs e.1.javaType e.1.isArray e.2 := by
      intro e he
      by_contra hlong
      exact rejects_decode hl hcount he hlong b.bytes [] s' t hdecode
    have hread := yields_decode hl hcount hshort b.bytes []
    obtain ⟨rfl, -⟩ := hread.unique hdecode
    refine ⟨fun f hf v hv => ?_, exists_leads_writeAll.mp ⟨b', hencode⟩⟩
    have he : (⟨f, v⟩ : Entry) ∈ entries desc vals := mem_entries.mpr ⟨hf, hv⟩
    have hhas := hfound f hf
    rw [hv] at hhas
    exact ⟨huid ⟨f, v⟩ he, (carried_iff f.fieldType).mpr
      ⟨hgood ⟨f, v⟩ he, hshort ⟨f, v⟩ he, received_of_found hf hv hhas⟩⟩
  · rintro ⟨hall, hfits⟩
    have hcarried : ∀ e ∈ entries desc vals, e.1.uid.toNat < 65536 ∧
        Carried cs e.1.javaType e.1.isArray e.2 := by
      intro e he
      exact hall e.1 (mem_entries.mp he).1 e.2 (mem_entries.mp he).2
    have hgood : ∀ e ∈ entries desc vals, Encodable cs e.1.javaType e.1.isArray e.2 :=
      fun e he => ((carried_iff e.1.fieldType).mp (hcarried e he).2).1
    have hshort : ∀ e ∈ entries desc vals, Short cs e.1.javaType e.1.isArray e.2 :=
      fun e he => ((carried_iff e.1.fieldType).mp (hcarried e he).2).2.1
    obtain ⟨b', hwrite⟩ := exists_leads_writeAll.mpr hfits
    have hlength := hsizes hwrite
    have hcount := entries_length_lt fun e he => (hcarried e he).1
    have hl : ∀ e ∈ entries desc vals, e.1 ∈ desc.fields ∧ e.1.uid.toNat < 65536 ∧
        Encodable cs e.1.javaType e.1.isArray e.2 ∧ arrayLength e.1.isArray e.2 < 2 ^ 31 :=
      fun e he => ⟨(mem_entries.mp he).1, (hcarried e he).1, hgood e he, hlength e he⟩
    have hread := yields_decode hl hcount hshort b.bytes []
    rw [List.append_nil, ← bytes_of_leads_writeAll hwrite] at hread
    refine ⟨b', _, _, ?_, hread, fun f hf => found_received hf fun v hv => (hall f hf v hv).2⟩
    rwa [encode_eq hgood]

/-- The charset ISO-8859-1. -/
def latin1 : Charset :=
  ⟨fun s => s.map fun c => if c < 256 then c.toUInt8 else 63, fun bs => bs.map UInt8.toUInt16⟩

/-- A structure with an array of `boolean`. -/
def flagsDesc : StructDesc :=
  StructDesc.empty.addField 1 .bool true (by simp [StructDesc.empty]) (by decide)

/-- Arrays of `boolean` are set to an array with one entry. -/
def flagsVals : Values
  | ⟨_, .bool, true, _⟩ => some [true]
  | _ => none

/-- An array of `boolean` cannot be encoded: `boolean[]` is not an array of objects. -/
theorem flags_not_round_trips : ¬RoundTrips latin1 flagsDesc flagsVals TxBuffer.new := by
  rintro ⟨b', s', t, hencode, -, -⟩
  exact encodable_of_leads_encode hencode ⟨⟨1, .bool, true, 0⟩, [true]⟩
    (mem_entries.mpr ⟨List.mem_singleton_self _, rfl⟩)

end RoundTrip

end Obus.Java
