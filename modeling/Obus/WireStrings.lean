import Obus.RoundTrip

/-!
# Strings of any length on the wire

The size field of a string has 32 bits.  A string is written with as many bytes as the field says,
and the reader puts the NUL over the last one of them, so that a string whose size wraps arrives as
a beginning of itself, or not at all (`sentString`).  Everything else arrives as it is.

`structWire` are the bytes of a struct with such strings.  The encoder writes them whatever the
strings are, and the decoder reads from them the struct that is on the wire (`parses_structWire`).
-/

namespace Obus

open Prog

/-! ## What is on the wire -/

/-- A string of any length as it arrives. -/
def sentString : Option CString → Option CString
  | none => none
  | some s =>
    if (s.val.length + 1) % 2 ^ 32 = 0 then none
    else some ⟨s.val.take ((s.val.length + 1) % 2 ^ 32 - 1),
      fun h => s.property (List.mem_of_mem_take h)⟩

/-- A value as it arrives, but for booleans. -/
def BaseType.onWire : (t : BaseType) → t.Cell → t.Cell
  | .string, v => sentString v
  | _, v => v

/-- The memory of a field as it arrives, but for booleans. -/
def FieldType.onWire : (t : FieldType) → t.Val → t.Val
  | .value t, v => t.onWire v
  | .array t, v => { v with items := v.items.map t.onWire }

/-- A field as it arrives, but for booleans. -/
def Slot.onWire (s : Slot) : Slot := { s with val := s.desc.type.onWire s.val }

/-- The bytes of a value. -/
def BaseType.wire : (t : BaseType) → t.Cell → List UInt8
  | .string, v => stringBytes v
  | t, v => valueBytes t v

/-- The bytes of the memory of a field. -/
def FieldType.wire : (t : FieldType) → t.Val → List UInt8
  | .value t, v => t.wire v
  | .array t, v => bigEndian 4 v.nItems.toNat ++ v.items.flatMap t.wire

/-- The bytes of a struct. -/
def structWire (st : Struct) : List UInt8 :=
  bigEndian 2 (st.filter Slot.has).length ++ (st.filter Slot.has).flatMap fun s =>
    bigEndian 2 s.desc.uid.toNat ++ (bigEndian 1 s.desc.type.code.toNat ++ s.desc.type.wire s.val)

/-- A struct whose arrays have their items, and whose present fields can be counted. -/
structure Struct.Countable (st : Struct) : Prop where
  arrays : ∀ s ∈ st, s.has = true → s.desc.type.Ok s.val
  count : (st.filter Slot.has).length < 2 ^ 16

lemma Struct.On.countable {d : StructDesc} {st : Struct} (h : st.On d) (hd : d.Ok) :
    st.Countable := by
  refine ⟨h.arrays, ?_⟩
  rw [← List.countP_eq_length_filter]
  exact structDesc_count_lt (h.desc ▸ hd)

/-! ## The encoder -/

lemma writes_wire (t : BaseType) (v : t.Cell) : Writes (encodeValue t v) (t.wire v) := by
  cases t with
  | u8 | i8 | bool => exact writes_u8 _
  | u16 | i16 => exact writes_u16 _
  | u32 | i32 | enum | f32 => exact writes_u32 _
  | u64 | i64 | f64 => exact writes_u64 _
  | string => exact writes_string v

lemma writes_fieldWire (t : FieldType) (v : t.Val) (hok : t.Ok v) :
    Writes (fieldEncodeVal t v) (t.wire v) := by
  cases t with
  | value t => exact writes_wire t v
  | array t =>
    change v.items.length = v.nItems.toNat at hok
    have hitems : Writes (each (encodeValue t) v.items) (v.items.flatMap t.wire) :=
      writes_each fun c _ => writes_wire t c
    change Writes (arrayEncode t v) _
    unfold arrayEncode
    rw [← hok, List.take_length, if_neg (lt_irrefl _)]
    refine (writes_u32 v.nItems).bind ?_
    have hbind := hitems.bind (f := fun _ => pure ()) .pure
    rwa [List.append_nil] at hbind

/-- `obus_struct_encode` writes the bytes of the struct. -/
lemma writes_structWire {st : Struct} (h : st.Countable) :
    Writes (structEncode st) (structWire st) := by
  have hcount : (UInt16.ofNat (st.countP Slot.has)).toNat = (st.filter Slot.has).length := by
    rw [UInt16.toNat_ofNat', List.countP_eq_length_filter, Nat.mod_eq_of_lt h.count]
  have hhead := writes_u16 (UInt16.ofNat (st.countP Slot.has))
  rw [hcount] at hhead
  refine hhead.bind (writes_each fun s hs => ?_)
  obtain ⟨hmem, hhas⟩ := List.mem_filter.mp hs
  exact (writes_u16 _).bind ((writes_u8 _).bind (writes_fieldWire _ _ (h.arrays s hmem hhas)))

/-! ## The decoder -/

/-- A string on the wire: nothing, or the string that arrives and one more byte, behind their
number. -/
lemma stringBytes_cases (v : Option CString) :
    (sentString v = none ∧ stringBytes v = bigEndian 4 0) ∨
    ∃ s last, sentString v = some s ∧ s.val.length + 1 < 2 ^ 32 ∧
      stringBytes v = bigEndian 4 (s.val.length + 1) ++ (s.val ++ [last]) := by
  cases v with
  | none => exact Or.inl ⟨rfl, rfl⟩
  | some s =>
    have hlength : (CString.memory (some s)).length = s.val.length + 1 := by simp [CString.memory]
    have hmod : bigEndian 4 (s.val.length + 1) = bigEndian 4 ((s.val.length + 1) % 2 ^ 32) := by
      have hword := bigEndian_ofNat32 (s.val.length + 1)
      rwa [UInt32.toNat_ofNat', eq_comm] at hword
    have hle : (s.val.length + 1) % 2 ^ 32 ≤ s.val.length + 1 := Nat.mod_le _ _
    have hlt : (s.val.length + 1) % 2 ^ 32 < 2 ^ 32 := Nat.mod_lt _ (by decide)
    rw [stringBytes, hlength, hmod]
    by_cases hzero : (s.val.length + 1) % 2 ^ 32 = 0
    · refine Or.inl ⟨if_pos hzero, ?_⟩
      rw [hzero, List.take_zero, List.append_nil]
    · rcases List.eq_nil_or_concat ((CString.memory (some s)).take
        ((s.val.length + 1) % 2 ^ 32)) with hnil | ⟨init, last, hsplit⟩
      · have hlen := congrArg List.length hnil
        rw [List.length_take, hlength, Nat.min_eq_left hle] at hlen
        exact absurd hlen hzero
      · have hinit : init = s.val.take ((s.val.length + 1) % 2 ^ 32 - 1) := by
          have hdrop := congrArg List.dropLast hsplit
          rw [List.concat_eq_append, List.dropLast_concat, List.dropLast_eq_take, List.length_take,
            hlength, Nat.min_eq_left hle,
            List.take_take, Nat.min_eq_left (Nat.sub_le _ _), CString.memory,
              List.take_append_of_le_length (by omega)] at hdrop
          exact hdrop.symm
        have hcount : (s.val.take ((s.val.length + 1) % 2 ^ 32 - 1)).length + 1 =
            (s.val.length + 1) % 2 ^ 32 := by
          rw [List.length_take, Nat.min_eq_left (by omega),
            Nat.sub_add_cancel (Nat.pos_of_ne_zero hzero)]
        refine Or.inr ⟨_, last, if_neg hzero, ?_, ?_⟩
        · rwa [hcount]
        · rw [hcount, hsplit, hinit, List.concat_eq_append]

/-- A block whose last byte is overwritten with the NUL holds the string before it. -/
lemma ofBytes_overwritten (s : CString) (last : UInt8) :
    CString.ofBytes ((s.val ++ [last]).set (s.val.length + 1 - 1) 0) = s := by
  have hset : (s.val ++ [last]).set (s.val.length + 1 - 1) 0 =
      (s.val ++ [0]).set s.val.length 0 := by
    rw [List.set_append_right _ _ le_rfl, List.set_append_right _ _ (by omega), Nat.sub_self,
      Nat.add_sub_cancel, Nat.sub_self]
    rfl
  rw [hset]
  exact ofBytes_memory s

/-- What `obus_buffer_read_string` reads from the bytes of a string. -/
lemma parses_sentString (v old : Option CString) :
    Parses (readString old) (stringBytes v) (.ok (), sentString v) := by
  rcases stringBytes_cases v with ⟨hnone, hbytes⟩ | ⟨s, last, hsome, hlt, hbytes⟩
  · rw [hnone, hbytes]
    exact parses_readString (v := none) (by decide) old
  · have hsize : (UInt32.ofNat (s.val.length + 1)).toNat = s.val.length + 1 := by
      rw [UInt32.toNat_ofNat', Nat.mod_eq_of_lt hlt]
    have hne : UInt32.ofNat (s.val.length + 1) ≠ 0 := fun h0 => by
      rw [h0] at hsize
      exact Nat.succ_ne_zero _ hsize.symm
    have hhead := (parses_u32 (UInt32.ofNat (s.val.length + 1))).attempt
    have hdup := parses_dup (s.val ++ [last])
    rw [List.length_append, List.length_singleton] at hdup
    rw [hsize] at hhead
    rw [hsome, hbytes]
    unfold readString
    refine hhead.bind ?_
    simp only [if_neg hne, hsize]
    refine hdup.attempt.bind_nil ?_
    simp only [ofBytes_overwritten]
    exact .pure _

/-- `obus_decode_value` reads what is on the wire. -/
lemma parses_wire (t : BaseType) (v old : t.Cell) :
    Parses (decodeValue t old) (t.wire v) (.ok (), t.norm (t.onWire v)) := by
  cases t with
  | string => exact parses_sentString v old
  | _ => exact parses_value _ v old trivial

lemma parses_fieldWire (t : FieldType) (v old : t.Val) (hok : t.Ok v) :
    Parses (fieldDecodeVal t old) (t.wire v) (.ok (), t.norm (t.onWire v)) := by
  cases t with
  | value t => exact parses_wire t v old
  | array t =>
    change v.items.length = v.nItems.toNat at hok
    refine (parses_u32 v.nItems).attempt.bind ?_
    simp only [← hok]
    have hitems : Parses (decodeItems t v.items.length) (v.items.flatMap t.wire)
        (.ok (v.items.map fun c => t.norm (t.onWire c))) :=
          parses_items fun c _ => parses_wire t c t.item
    have hvalue : FieldType.norm (.array t) (FieldType.onWire (.array t) v) =
        ⟨v.nItems, v.items.map fun c => t.norm (t.onWire c)⟩ := by
      simp [FieldType.norm, FieldType.onWire, Function.comp_def]
    rw [hvalue]
    exact hitems.bind_nil (.pure _)

/-- Skipping a value consumes exactly its bytes. -/
lemma parses_skipWire {type : UInt8} {t : BaseType} (ht : BaseType.ofCode? (maskCode type) = some t)
    (v : t.Cell) : Parses (fieldSkipValue type) (t.wire v) () := by
  cases t with
  | string =>
    have hhead := (parses_u32 (UInt32.ofNat (CString.memory v).length)).attempt
    rw [bigEndian_ofNat32] at hhead
    have htake : ((CString.memory v).take ((CString.memory v).length % 2 ^ 32)).length =
        (UInt32.ofNat (CString.memory v).length).toNat := by
      rw [List.length_take, UInt32.toNat_ofNat', Nat.min_eq_left (Nat.mod_le _ _)]
    unfold fieldSkipValue
    rw [ht]
    refine hhead.bind ?_
    simp only [← htake]
    exact (parses_incReadPosition _).attempt.bind_nil (.pure ())
  | _ => exact parses_fieldSkipValue ht v trivial

/-- A field is read from its bytes as it is on the wire. -/
lemma Slot.readFrom_wire {s : Slot} (hok : s.desc.type.Ok s.val) :
    s.onWire.ReadFrom (s.desc.type.wire s.val) := by
  refine ⟨fun old => parses_fieldWire s.desc.type s.val old hok, ?_⟩
  obtain ⟨⟨uid, role, type, drv⟩, has, val⟩ := s
  change type.Ok val at hok
  change Parses (skipField type.code) (type.wire val) ()
  unfold skipField
  cases type with
  | value t =>
    rw [isArrayCode_value]
    exact parses_skipWire (ofCode?_maskCode_value t) val
  | array t =>
    change val.items.length = val.nItems.toNat at hok
    rw [isArrayCode_array]
    refine (parses_u32 val.nItems).attempt.bind ?_
    simp only [← hok]
    exact parses_iter t.wire (g := fun _ _ => ()) (l := val.items)
      (fun _ c _ => parses_skipWire (ofCode?_maskCode_array t) c) ()

/-- `obus_struct_decode` reads the struct that is on the wire. -/
lemma parses_structWire (st₀ : Struct) {st : Struct} (h : st.Countable) :
    Parses (structDecode st₀) (structWire st) (structArrive st₀ (st.map Slot.onWire)) := by
  have hfields := parses_structDecode_fields st₀ Slot.onWire
    (fun s => s.desc.type.wire s.val) h.count fun s hs => by
    obtain ⟨hmem, hhas⟩ := List.mem_filter.mp hs
    exact Slot.readFrom_wire (h.arrays s hmem hhas)
  have hfilter : (st.map Slot.onWire).filter Slot.has = (st.filter Slot.has).map Slot.onWire := by
    rw [List.filter_map]
    rfl
  rw [structArrive, hfilter]
  exact hfields

/-! ## Objects and events -/

/-- The bytes of an added object. -/
def objectWire (o : Object) : List UInt8 :=
  bigEndian 2 o.desc.uid.toNat ++ (bigEndian 2 o.handle.toNat ++ sizedBytes (structWire o.info))

/-- The bytes of an event. -/
def eventWire (e : Event) : List UInt8 :=
  bigEndian 2 e.obj.desc.uid.toNat ++ (bigEndian 2 e.obj.handle.toNat ++
    (bigEndian 2 e.desc.uid.toNat ++ sizedBytes (structWire e.info)))

/-- An object as it arrives, but for booleans. -/
def Object.onWire (o : Object) : Object := { o with info := o.info.map Slot.onWire }

/-- An event as it arrives, but for booleans. -/
def Event.onWire (e : Event) : Event := { e with info := e.info.map Slot.onWire }

lemma Struct.On.onWire {d : StructDesc} {st : Struct} (h : st.On d) :
    Struct.On d (st.map Slot.onWire) := by
  refine ⟨?_, fun s hs hhas => ?_⟩
  · rw [← h.desc, Struct.desc, List.map_map]
    rfl
  · obtain ⟨s, hmem, rfl⟩ := List.mem_map.mp hs
    have hok := h.arrays s hmem hhas
    obtain ⟨⟨uid, role, type, drv⟩, has, val⟩ := s
    cases type with
    | value t => trivial
    | array t => exact (List.length_map _).trans hok

/-- `obus_object_add_encode` writes the bytes of the object. -/
lemma writes_objectWire {o : Object} (h : o.info.Countable) :
    Writes (objectAddEncode o) (objectWire o) :=
  (writes_u16 _).bind ((writes_u16 _).bind (writes_sized (writes_structWire h)))

/-- `obus_event_encode` writes the bytes of the event. -/
lemma writes_eventWire {e : Event} (h : e.info.Countable) : Writes (eventEncode e) (eventWire e) :=
  (writes_u16 _).bind ((writes_u16 _).bind
    ((writes_u16 _).bind (writes_sized (writes_structWire h))))

/-- `obus_object_add_decode` reads the object that is on the wire. -/
lemma parses_objectWire (api : BusDesc) {o : Object} (h : o.info.Countable)
    (hlt : (structWire o.info).length < 2 ^ 32) :
    Parses (objectAddDecode api) (objectWire o) (o.onWire.arrive api) :=
  @parses_objectAdd_of api o.onWire _ hlt fun st₀ => parses_structWire st₀ h

/-- `obus_event_decode` reads the event that is on the wire. -/
lemma parses_eventWire (bus : Bus) {e : Event} (h : e.info.Countable)
    (hlt : (structWire e.info).length < 2 ^ 32) :
    Parses (eventDecode bus) (eventWire e) (e.onWire.arrive bus) :=
  @parses_event_of bus e.onWire _ hlt fun st₀ => parses_structWire st₀ h

end Obus
