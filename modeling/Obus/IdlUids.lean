import Obus.BusApi
import Obus.IdlNames
import Obus.Struct

/-!
# Uids in descriptions of buses

`ObusBus` of `obusparser.py`, and the descriptors that the generator of C writes for what it has
parsed.  The uids of the descriptors are words of 16 bits, and looked up in their scopes: the
objects of a bus, the events of an object, its properties and methods together, the arguments of a
method, and the bus events.

The parser refuses a uid that is 0, or that is used in the scope already, but it neither refuses
other numbers that are no words of 16 bits, nor looks at the uids of arguments.
`uids_established_iff` says that the uids of an accepted description are what the library relies on
exactly if the description avoids these two cases.
-/

namespace Obus.Idl

/-! ## Buses -/

/-- An `event` of a bus. -/
structure BusEventNode where
  name : Option Str
  uid : NumAttr

/-- The root of a document. -/
structure BusNode where
  tag : Str
  name : Option Str
  objects : List ObjectNode
  events : List BusEventNode

/-- `ObusBusEvent`. -/
structure BusEvent where
  name : Str
  uid : ℤ

/-- `ObusBus`. -/
structure Bus where
  name : Str
  objects : List Object
  events : List BusEvent

/-- The errors of a bus, with what their messages name. -/
inductive BusErr where
  | noBus
  | withoutName
  | object (e : Err)
  | objectNameUsed (name : Str)
  | objectUidUsed (uid : ℤ)
  | eventWithoutName
  | invalidEventUid (name : Str)
  | eventUidTooSmall (name : Str) (uid : ℤ)
  | eventNameUsed (name : Str)
  | eventUidUsed (uid : ℤ)
  | typeError

/-- `BUS_EVENT_UID_MIN_VALUE`. -/
def busEventUidMinValue : ℤ := 10

/-- `ObusBusEvent.__init__`. -/
def parseBusEvent (node : BusEventNode) : Except BusErr BusEvent :=
  match toUnderscored node.name with
  | none => .error .eventWithoutName
  | some name =>
    match node.uid with
    | .absent => .error .typeError
    | .text => .error (.invalidEventUid name)
    | .num n => if n < busEventUidMinValue then .error (.eventUidTooSmall name n) else .ok ⟨name, n⟩

/-- The internal events. -/
def internalEvents : List BusEvent :=
  [⟨['c', 'o', 'n', 'n', 'e', 'c', 't', 'e', 'd'], 1⟩,
    ⟨['d', 'i', 's', 'c', 'o', 'n', 'n', 'e', 'c', 't', 'e', 'd'], 2⟩,
    ⟨['c', 'o', 'n', 'n', 'e', 'c', 't', 'i', 'o', 'n', '_', 'r', 'e', 'f', 'u', 's', 'e', 'd'], 3⟩]

/-- The name, and then the uid, of an object is used already. -/
def checkObject (dict : List Object) (obj : Object) : Option BusErr :=
  (checkName Object.name .objectNameUsed dict obj).or
    (if dict.any fun q => q.uid = obj.uid then some (.objectUidUsed obj.uid) else none)

/-- The name, and then the uid, of a bus event is used already. -/
def checkBusEvent (dict : List BusEvent) (event : BusEvent) : Option BusErr :=
  (checkName BusEvent.name .eventNameUsed dict event).or
    (if dict.any fun q => q.uid = event.uid then some (.eventUidUsed event.uid) else none)

/-- `ObusBus.__init__`. -/
def parseBus (node : BusNode) : Except BusErr Bus :=
  if node.tag ≠ ['b', 'u', 's'] then .error .noBus
  else
    match toUnderscored node.name with
    | none => .error .withoutName
    | some name => do
      let objects ← parseAll (fun n => (parseObject n).mapError .object) checkObject node.objects []
      let events ← parseAll parseBusEvent checkBusEvent node.events internalEvents
      return ⟨name, objects, events⟩

/-! ## The descriptors -/

/-- A number in the initialiser of a `uint16_t`. -/
def word (n : ℤ) : UInt16 := ⟨BitVec.ofInt 16 n⟩

/-- `getLibobusType`, without the mark of arrays. -/
def libobusType : BaseType → Obus.BaseType
  | .int8 => .i8
  | .uint8 => .u8
  | .int16 => .i16
  | .uint16 => .u16
  | .int32 => .i32
  | .uint32 => .u32
  | .int64 => .i64
  | .uint64 => .u64
  | .string => .string
  | .handle => .u16
  | .enum => .enum
  | .bool => .bool
  | .float => .f32
  | .double => .f64

/-- `getLibobusType`. -/
def getLibobusType (t : ObusType) : FieldType :=
  if t.isArray then .array (libobusType t.base) else .value (libobusType t.base)

/-- The driver of an enumeration, with the value of its default. -/
def ObusEnum.driver (e : ObusEnum) : EnumDriver where
  default := ⟨BitVec.ofInt 32 ((named EnumValue.name e.values e.default).elim 0 EnumValue.value)⟩

/-- The descriptor of a property or of an argument. -/
def Field.desc (role : FieldRole) (f : Field) : FieldDesc :=
  ⟨word f.uid, role, getLibobusType f.type, f.type.enum.map ObusEnum.driver⟩

/-- The descriptor of the state of a method. -/
def Method.fieldDesc (m : Method) : FieldDesc := ⟨word m.uid, .method, .value .enum, some ⟨2, true⟩⟩

/-- The descriptor of the structure of an object. -/
def Object.infoDesc (o : Object) : StructDesc :=
  o.properties.map (Field.desc .property) ++ o.methods.map Method.fieldDesc

/-- The descriptor of the arguments of a method. -/
def Method.argsDesc (m : Method) : StructDesc := m.args.map (Field.desc .argument)

/-- The descriptor of a method. -/
def Method.desc (m : Method) : MethodDesc := ⟨word m.uid, some m.argsDesc⟩

/-- The descriptor of an event, with the fields that it updates. -/
def Event.desc (e : Event) : EventDesc :=
  ⟨word e.uid, e.properties.map (fun p => word p.uid) ++ e.methods.map fun m => word m.uid⟩

/-- The descriptor of an object. -/
def Object.desc (o : Object) : ObjectDesc :=
  ⟨word o.uid, o.infoDesc, o.events.map Event.desc, o.methods.map Method.desc⟩

/-- The descriptor of a bus. -/
def Bus.desc (bus : Bus) (crc : UInt32) : BusDesc where
  name := CString.ofBytes (bus.name.map Char.toUInt8)
  objects := bus.objects.map Object.desc
  events := bus.events.map fun e => ⟨word e.uid⟩
  crc := crc

/-! ## What the library relies on -/

/-- The uids of a scope are different numbers between 1 and 65535. -/
def Scope (uids : List ℤ) : Prop := uids.Nodup ∧ ∀ uid ∈ uids, 1 ≤ uid ∧ uid ≤ 65535

/-- In every structure of a descriptor, each field is found under its uid. -/
def FindsFields (d : StructDesc) : Prop :=
  ∀ st : Struct, st.desc = d → ∀ i s, st[i]? = some s → structGetFieldDesc st s.desc.uid =
    some (i, s)

/-- Each scope has usable uids, and whatever is looked up under a uid, the element that declares it
is found. -/
structure Bus.Established (bus : Bus) (crc : UInt32) : Prop where
  objects : Scope (bus.objects.map Object.uid)
  events : ∀ o ∈ bus.objects, Scope (o.events.map Event.uid)
  members : ∀ o ∈ bus.objects, Scope (o.properties.map Field.uid ++ o.methods.map Method.uid)
  args : ∀ o ∈ bus.objects, ∀ m ∈ o.methods, Scope (m.args.map Field.uid)
  busEvents : Scope (bus.events.map BusEvent.uid)
  api : ∃ api, busApiInit (bus.desc crc) = some (.ok api) ∧ api.Exact (bus.desc crc)
  infoFields : ∀ o ∈ bus.objects, FindsFields o.infoDesc
  argsFields : ∀ o ∈ bus.objects, ∀ m ∈ o.methods, FindsFields m.argsDesc

/-- A number that is not negative, and not too large for a word of 16 bits. -/
def NumAttr.Fits (uid : NumAttr) : Prop := ∀ n, uid = .num n → 0 ≤ n ∧ n ≤ 65535

/-- The uids of a description are not negative and not too large, and those of the arguments of a
method are different.  For a bus event it is only its size that matters. -/
structure BusNode.UidsUsable (node : BusNode) : Prop where
  objects : ∀ o ∈ node.objects, o.uid.Fits
  properties : ∀ o ∈ node.objects, ∀ p ∈ o.properties, p.uid.Fits
  methods : ∀ o ∈ node.objects, ∀ m ∈ o.methods, m.uid.Fits
  args : ∀ o ∈ node.objects, ∀ m ∈ o.methods, ∀ a ∈ m.args, a.uid.Fits
  events : ∀ o ∈ node.objects, ∀ e ∈ o.events, e.uid.Fits
  busEvents : ∀ e ∈ node.events, ∀ n, e.uid = .num n → n ≤ 65535
  argsDistinct : ∀ o ∈ node.objects, ∀ m ∈ o.methods, (m.args.map FieldNode.uid).Nodup

/-! ## What is parsed -/

section Dictionaries

variable {α ν ε κ : Type} {parse : ν → Except ε α} {check : List α → α → Option ε} {nodes : List ν}
  {dict r : List α}

/-- What is read off the nodes is read off the entries, in the same order. -/
lemma parseAll_map {f : α → κ} {g : ν → κ} (hparse : ∀ node a, parse node = .ok a → g node = f a)
    (h : parseAll parse check nodes dict = .ok r) : r.map f = dict.map f ++ nodes.map g := by
  induction nodes generalizing dict with
  | nil =>
    cases h
    rw [List.map_nil, List.append_nil]
  | cons node nodes ih =>
    obtain ⟨a, hnode, -, hrest⟩ := parseAll_cons h
    rw [ih hrest, List.map_append, List.map_singleton, List.map_cons, hparse node a hnode,
      List.append_assoc,
      List.singleton_append]

/-- The uids of what a loop has parsed are different, and none of them is among some others. -/
lemma parseAll_uids {uid : α → ℤ} {others : List ℤ}
    (hcheck : ∀ dict a, check dict a = none → uid a ∉ others ∧ uid a ∉ dict.map uid)
    (hdict : (others ++ dict.map uid).Nodup)
    (h : parseAll parse check nodes dict = .ok r) : (others ++ r.map uid).Nodup := by
  refine parseAll_invariant (I := fun dict => (others ++ dict.map uid).Nodup)
    (fun dict node a hdict _ hchecked => ?_)
    hdict h
  obtain ⟨hothers, hnew⟩ := hcheck dict a hchecked
  rw [List.map_append, List.map_singleton, ← List.append_assoc, List.nodup_append]
  refine ⟨hdict, List.nodup_singleton _, fun n hn n' hn' heq => ?_⟩
  rw [List.mem_singleton.mp hn'] at heq
  rcases List.mem_append.mp hn with hn | hn
  · exact hothers (heq ▸ hn)
  · exact hnew (heq ▸ hn)

lemma parseAll_nodup {uid : α → ℤ} (hcheck : ∀ dict a, check dict a = none → uid a ∉ dict.map uid)
    (hdict : (dict.map uid).Nodup) (h : parseAll parse check nodes dict = .ok r) :
    (r.map uid).Nodup :=
  @parseAll_uids _ _ _ _ _ _ _ _ _ []
    (fun dict a hchecked => ⟨List.not_mem_nil, hcheck dict a hchecked⟩) hdict h

/-- A check of uids that finds nothing. -/
lemma not_mem_of_check {uid : α → ℤ} {a : α} {c : Option ε} {e : ε}
    (h : (c.or (if dict.any fun q => uid q = uid a then some e else none)) = none) :
    uid a ∉ dict.map uid := by
  intro hmem
  obtain ⟨b, hb, heq⟩ := List.mem_map.mp hmem
  have hany : (dict.any fun q => uid q = uid a) = true :=
    List.any_eq_true.mpr ⟨b, hb, decide_eq_true heq⟩
  rw [if_pos hany, Option.or_eq_none_iff] at h
  exact absurd h.2 (by simp)

end Dictionaries

/-! ## Uids that are parsed -/

section Uids

lemma parseUid_ok {name : Str} {attr : NumAttr} {uid : ℤ} (h : parseUid name attr = .ok uid) :
    attr = .num uid ∧ uid ≠ 0 := by
  cases attr with
  | absent => cases h
  | text => cases h
  | num n =>
    unfold parseUid at h
    simp only at h
    split_ifs at h with hzero
    cases h
    exact ⟨rfl, hzero⟩

lemma parseField_uid {enums : List ObusEnum} {node : FieldNode} {f : Field}
    (h : parseField enums node = .ok f) : node.uid = .num f.uid ∧ f.uid ≠ 0 := by
  unfold parseField at h
  cases hname : toUnderscored node.name with
  | none => simp only [hname, reduceCtorEq] at h
  | some name =>
    simp only [hname] at h
    cases huid : parseUid name node.uid with
    | error e => simp only [huid, reduceCtorEq] at h
    | ok uid =>
      simp only [huid] at h
      cases htype : parseType enums node.type with
      | error e =>
        rw [htype] at h
        cases h
      | ok type =>
        rw [htype] at h
        cases h
        exact parseUid_ok huid

/-- A method, with the arguments. -/
lemma parseMethod_uid {enums : List ObusEnum} {node : MethodNode} {m : Method}
    (h : parseMethod enums node = .ok m) : (node.uid = .num m.uid ∧ m.uid ≠ 0) ∧
      parseAll (parseField enums) (checkName Field.name .nameUsed) node.args [] = .ok m.args := by
  unfold parseMethod at h
  cases hname : toUnderscored node.name with
  | none => simp only [hname, reduceCtorEq] at h
  | some name =>
    simp only [hname] at h
    cases huid : parseUid name node.uid with
    | error e => simp only [huid, reduceCtorEq] at h
    | ok uid =>
      simp only [huid] at h
      cases hargs : parseAll (parseField enums) (checkName Field.name .nameUsed) node.args [] with
      | error e =>
        rw [hargs] at h
        cases h
      | ok args =>
        rw [hargs] at h
        cases h
        exact ⟨parseUid_ok huid, rfl⟩

lemma addUpdate_uid {properties : List Field} {methods : List Method} {ev ev' : Event}
    {node : UpdateNode}
    (h : addUpdate properties methods ev node = .ok ev') : ev'.uid = ev.uid := by
  unfold addUpdate at h
  split at h
  · cases h
  · split at h
    · cases h
    · split_ifs at h
      cases h
      rfl
  · split at h
    · cases h
    · split_ifs at h
      cases h
      rfl
  · cases h

lemma addUpdates_uid {properties : List Field} {methods : List Method} {nodes : List UpdateNode}
    {ev ev' : Event} (h : addUpdates properties methods nodes ev = .ok ev') : ev'.uid = ev.uid := by
  induction nodes generalizing ev with
  | nil =>
    cases h
    rfl
  | cons node nodes ih =>
    rw [addUpdates] at h
    cases hstep : addUpdate properties methods ev node with
    | error e =>
      rw [hstep] at h
      cases h
    | ok ev₁ =>
      simp only [hstep] at h
      exact (ih h).trans (addUpdate_uid hstep)

lemma parseEvent_uid {properties : List Field} {methods : List Method} {node : EventNode}
    {ev : Event}
    (h : parseEvent properties methods node = .ok ev) : node.uid = .num ev.uid ∧ ev.uid ≠ 0 := by
  unfold parseEvent at h
  cases hname : toUnderscored node.name with
  | none => simp only [hname, reduceCtorEq] at h
  | some name =>
    simp only [hname] at h
    cases huid : parseUid name node.uid with
    | error e => simp only [huid, reduceCtorEq] at h
    | ok uid =>
      simp only [huid] at h
      rw [addUpdates_uid h]
      exact parseUid_ok huid

lemma parseBusEvent_uid {node : BusEventNode} {event : BusEvent}
    (h : parseBusEvent node = .ok event) :
    node.uid = .num event.uid ∧ busEventUidMinValue ≤ event.uid := by
  unfold parseBusEvent at h
  cases hname : toUnderscored node.name with
  | none => simp only [hname, reduceCtorEq] at h
  | some name =>
    cases huid : node.uid with
    | absent => simp only [hname, huid, reduceCtorEq] at h
    | text => simp only [hname, huid, reduceCtorEq] at h
    | num n =>
      simp only [hname, huid] at h
      split_ifs at h with hmin
      cases h
      exact ⟨rfl, not_lt.mp hmin⟩

end Uids

/-! ## Objects and buses -/

lemma not_mem_of_checkMethod {properties : List Field} {dict : List Method} {m : Method}
    (h : checkMethod properties dict m = none) : m.uid ∉ properties.map Field.uid ∧
    m.uid ∉ dict.map Method.uid := by
  rw [checkMethod, Option.or_eq_none_iff] at h
  have hany : ((properties.any fun q => q.uid = m.uid) || dict.any fun q => q.uid = m.uid) =
      false := by
    by_contra hany
    rw [Bool.not_eq_false] at hany
    rw [if_pos hany] at h
    exact absurd h.2 (by simp)
  rw [Bool.or_eq_false_iff] at hany
  refine ⟨fun hmem => ?_, fun hmem => ?_⟩
  · obtain ⟨q, hq, heq⟩ := List.mem_map.mp hmem
    exact absurd (List.any_eq_true.mpr ⟨q, hq, decide_eq_true heq⟩) (by rw [hany.1]; decide)
  · obtain ⟨q, hq, heq⟩ := List.mem_map.mp hmem
    exact absurd (List.any_eq_true.mpr ⟨q, hq, decide_eq_true heq⟩) (by rw [hany.2]; decide)

/-- The uids of an object and of what it declares. -/
structure ObjectUids (node : ObjectNode) (o : Object) : Prop where
  uid : node.uid = .num o.uid ∧ o.uid ≠ 0
  properties : node.properties.map FieldNode.uid = o.properties.map fun p => .num p.uid
  methods : node.methods.map MethodNode.uid = o.methods.map fun m => .num m.uid
  events : node.events.map EventNode.uid = o.events.map fun e => .num e.uid
  args : ∀ m ∈ o.methods, ∃ n ∈ node.methods, n.args.map FieldNode.uid = m.args.map fun a =>
    .num a.uid
  argsOf : ∀ n ∈ node.methods, ∃ m ∈ o.methods, n.args.map FieldNode.uid = m.args.map fun a =>
    .num a.uid
  members_nodup : (o.properties.map Field.uid ++ o.methods.map Method.uid).Nodup
  events_nodup : (o.events.map Event.uid).Nodup
  members_ne_zero : ∀ uid ∈ o.properties.map Field.uid ++ o.methods.map Method.uid, uid ≠ 0
  events_ne_zero : ∀ uid ∈ o.events.map Event.uid, uid ≠ 0
  args_ne_zero : ∀ m ∈ o.methods, ∀ uid ∈ m.args.map Field.uid, uid ≠ 0

lemma bind_eq_ok {ε α β : Type} {x : Except ε α} {f : α → Except ε β} {b : β} :
    x >>= f = .ok b ↔ ∃ a, x = .ok a ∧ f a = .ok b := by
  cases x with
  | error e => exact iff_of_false nofun (by rintro ⟨a, ⟨⟩, -⟩)
  | ok a =>
    constructor
    · exact fun h => ⟨a, rfl, h⟩
    · rintro ⟨a', h, hf⟩
      cases h
      exact hf

/-- The nonzero uids of what a loop has parsed, from an empty dictionary. -/
lemma parseAll_ne_zero {α ν ε : Type} {parse : ν → Except ε α} {check : List α → α → Option ε}
    {nodes : List ν} {r : List α}
    {uid : α → ℤ} (hparse : ∀ node a, parse node = .ok a → uid a ≠ 0)
    (h : parseAll parse check nodes [] = .ok r) : ∀ n ∈ r.map uid, n ≠ 0 := by
  intro n hn
  obtain ⟨a, ha, rfl⟩ := List.mem_map.mp hn
  rcases (parseAll_mem h).2.2 a ha with ha | ⟨node, -, hnode⟩
  · exact absurd ha List.not_mem_nil
  · exact hparse node a hnode

lemma parseObject_uids {node : ObjectNode} {o : Object} (h : parseObject node = .ok o) :
    ObjectUids node o := by
  unfold parseObject at h
  cases hname : toUnderscored node.name with
  | none => simp only [hname, reduceCtorEq] at h
  | some name =>
    simp only [hname] at h
    split_ifs at h
    obtain ⟨uid, huid, h⟩ := bind_eq_ok.mp h
    obtain ⟨enums, henums, h⟩ := bind_eq_ok.mp h
    obtain ⟨properties, hproperties, h⟩ := bind_eq_ok.mp h
    obtain ⟨methods, hmethods, h⟩ := bind_eq_ok.mp h
    obtain ⟨events, hevents, h⟩ := bind_eq_ok.mp h
    cases h
    have hmap : ∀ {α ν ε : Type} {parse : ν → Except ε α} {check : List α → α → Option ε}
        {nodes : List ν} {r : List α}
        {f : α → NumAttr} {g : ν → NumAttr}, (∀ node a, parse node = .ok a → g node = f a) →
        parseAll parse check nodes [] = .ok r → nodes.map g = r.map f := fun hparse h =>
      (parseAll_map hparse h).symm
    have hnodup : (properties.map Field.uid).Nodup :=
      parseAll_nodup (fun dict p hcheck => not_mem_of_check hcheck)
        (by exact List.nodup_nil) hproperties
    have hargs : ∀ n m, parseMethod enums n = .ok m → n.args.map FieldNode.uid = m.args.map fun a =>
        .num a.uid :=
      fun n m hm => hmap (fun _ _ ha => (parseField_uid ha).1) (parseMethod_uid hm).2
    exact
      { uid := parseUid_ok huid
        properties := hmap (fun _ _ hp => (parseField_uid hp).1) hproperties
        methods := hmap (fun _ _ hm => (parseMethod_uid hm).1.1) hmethods
        events := hmap (fun _ _ he => (parseEvent_uid he).1) hevents
        args := fun m hm => by
          rcases (parseAll_mem hmethods).2.2 m hm with hm | ⟨n, hn, hnode⟩
          · exact absurd hm List.not_mem_nil
          · exact ⟨n, hn, hargs n m hnode⟩
        argsOf := fun n hn => by
          obtain ⟨m, hm, hnode⟩ := (parseAll_mem hmethods).2.1 n hn
          exact ⟨m, hm, hargs n m hnode⟩
        members_nodup := parseAll_uids (fun dict m hcheck => not_mem_of_checkMethod hcheck)
          (by rwa [List.map_nil, List.append_nil]) hmethods
        events_nodup := parseAll_nodup (fun dict e hcheck => not_mem_of_check hcheck)
          (by exact List.nodup_nil) hevents
        members_ne_zero := fun uid huid => by
          rcases List.mem_append.mp huid with huid | huid
          · exact parseAll_ne_zero (fun _ _ hp => (parseField_uid hp).2) hproperties uid huid
          · exact parseAll_ne_zero (fun _ _ hm => (parseMethod_uid hm).1.2) hmethods uid huid
        events_ne_zero := parseAll_ne_zero (fun _ _ he => (parseEvent_uid he).2) hevents
        args_ne_zero := fun m hm => by
          rcases (parseAll_mem hmethods).2.2 m hm with hm | ⟨n, -, hnode⟩
          · exact absurd hm List.not_mem_nil
          · exact parseAll_ne_zero (fun _ _ ha => (parseField_uid ha).2) (parseMethod_uid hnode).2 }

/-- The uids of a bus and of what it declares. -/
structure BusUids (node : BusNode) (bus : Bus) : Prop where
  objects : ∀ o ∈ bus.objects, ∃ n ∈ node.objects, ObjectUids n o
  objectsOf : ∀ n ∈ node.objects, ∃ o ∈ bus.objects, ObjectUids n o
  objects_nodup : (bus.objects.map Object.uid).Nodup
  busEvents : bus.events.map (fun e => NumAttr.num e.uid) =
    internalEvents.map (fun e => .num e.uid) ++ node.events.map BusEventNode.uid
  busEvents_nodup : (bus.events.map BusEvent.uid).Nodup
  busEvents_pos : ∀ uid ∈ bus.events.map BusEvent.uid, 1 ≤ uid

lemma parseBus_uids {node : BusNode} {bus : Bus} (h : parseBus node = .ok bus) :
    BusUids node bus := by
  unfold parseBus at h
  split_ifs at h
  cases hname : toUnderscored node.name with
  | none => simp only [hname, reduceCtorEq] at h
  | some name =>
    simp only [hname] at h
    obtain ⟨objects, hobjects, h⟩ := bind_eq_ok.mp h
    obtain ⟨events, hevents, h⟩ := bind_eq_ok.mp h
    cases h
    have hparse : ∀ (n : ObjectNode) (o : Object), (parseObject n).mapError BusErr.object = .ok o →
        ObjectUids n o := by
      intro n o hno
      cases hn : parseObject n with
      | error e =>
        rw [hn] at hno
        cases hno
      | ok o' =>
        rw [hn] at hno
        cases hno
        exact parseObject_uids hn
    exact
      { objects := fun o ho => by
          rcases (parseAll_mem hobjects).2.2 o ho with ho | ⟨n, hn, hnode⟩
          · exact absurd ho List.not_mem_nil
          · exact ⟨n, hn, hparse n o hnode⟩
        objectsOf := fun n hn => by
          obtain ⟨o, ho, hnode⟩ := (parseAll_mem hobjects).2.1 n hn
          exact ⟨o, ho, hparse n o hnode⟩
        objects_nodup := parseAll_nodup (fun dict o hcheck => not_mem_of_check hcheck)
          (by exact List.nodup_nil) hobjects
        busEvents := parseAll_map (fun _ _ he => (parseBusEvent_uid he).1) hevents
        busEvents_nodup := parseAll_nodup (fun dict e hcheck => not_mem_of_check hcheck)
          (by decide) hevents
        busEvents_pos := fun uid huid => by
          obtain ⟨e, he, rfl⟩ := List.mem_map.mp huid
          rcases (parseAll_mem hevents).2.2 e he with he | ⟨n, -, hnode⟩
          · have hinternal : ∀ e ∈ internalEvents, 1 ≤ e.uid := by decide
            exact hinternal e he
          · exact le_trans (by decide) (parseBusEvent_uid hnode).2 }

/-! ## Lookups -/

section Lookups

lemma word_toNat {n : ℤ} (hlow : 1 ≤ n) (hhigh : n ≤ 65535) : (word n).toNat = n.toNat := by
  have hword : (word n).toNat = (BitVec.ofInt 16 n).toNat := rfl
  rw [hword, BitVec.toNat_ofInt]
  omega

lemma word_inj {n m : ℤ} (hn : 1 ≤ n ∧ n ≤ 65535) (hm : 1 ≤ m ∧ m ≤ 65535) (h : word n = word m) :
    n = m := by
  have hnat := congrArg UInt16.toNat h
  rw [word_toNat hn.1 hn.2, word_toNat hm.1 hm.2] at hnat
  omega

/-- The words of a scope are different, and not zero. -/
lemma Scope.words {uids : List ℤ} (h : Scope uids) : (uids.map word).Nodup ∧
    ∀ uid ∈ uids, word uid ≠ 0 := by
  refine ⟨(List.nodup_map_iff_inj_on h.1).mpr fun n hn m hm heq => word_inj (h.2 n hn)
    (h.2 m hm) heq, ?_⟩
  intro uid huid hzero
  have hnat := congrArg UInt16.toNat hzero
  rw [word_toNat (h.2 uid huid).1 (h.2 uid huid).2] at hnat
  have hpos := (h.2 uid huid).1
  have hzeroNat : (0 : UInt16).toNat = 0 := rfl
  omega

/-- The uids of the descriptors of what is in a scope. -/
lemma nodup_desc {α β : Type} {l : List α} {uid : α → ℤ} {desc : α → β} {uid' : β → UInt16}
    (h : Scope (l.map uid))
    (hdesc : ∀ a, uid' (desc a) = word (uid a)) : ((l.map desc).map uid').Nodup := by
  have hmap : (l.map desc).map uid' = (l.map uid).map word := by
    rw [List.map_map, List.map_map]
    exact List.map_congr_left fun a _ => hdesc a
  rw [hmap]
  exact h.words.1

/-- Where the uids of a descriptor are different, each field is the first one with its uid. -/
lemma findsFields_of_nodup {d : StructDesc} (h : (d.map FieldDesc.uid).Nodup) : FindsFields d := by
  rintro st rfl i s hs
  obtain ⟨hi, rfl⟩ := List.getElem?_eq_some_iff.mp hs
  have hfirst : st.findIdx? (fun s => decide (s.desc.uid = st[i].desc.uid)) = some i := by
    refine List.findIdx?_eq_some_iff_getElem.mpr ⟨hi, decide_eq_true rfl, fun j hj heq => ?_⟩
    have huid := of_decide_eq_true heq
    rw [Struct.desc, List.map_map] at h
    have hj' : j < (st.map (FieldDesc.uid ∘ Slot.desc)).length := by simpa using hj.trans hi
    have hi' : i < (st.map (FieldDesc.uid ∘ Slot.desc)).length := by simpa using hi
    have hindex := (@List.Nodup.getElem_inj_iff _ _ h j hj' i hi').mp (by simpa using huid)
    omega
  rw [structGetFieldDesc, hfirst, Option.bind_some, List.getElem?_eq_getElem hi, Option.map_some]

variable {bus : Bus} {o : Object} {crc : UInt32}

lemma infoDesc_uids : o.infoDesc.map FieldDesc.uid =
    (o.properties.map Field.uid ++ o.methods.map Method.uid).map word := by
  simp only [Object.infoDesc, List.map_append, List.map_map]
  rfl

lemma argsDesc_uids {m : Method} :
    m.argsDesc.map FieldDesc.uid = (m.args.map Field.uid).map word := by
  simp only [Method.argsDesc, List.map_map]
  rfl

/-- Usable uids make everything be found. -/
lemma established_of_scopes (hobjects : Scope (bus.objects.map Object.uid))
    (hevents : ∀ o ∈ bus.objects, Scope (o.events.map Event.uid))
    (hmembers : ∀ o ∈ bus.objects, Scope (o.properties.map Field.uid ++ o.methods.map Method.uid))
    (hargs : ∀ o ∈ bus.objects, ∀ m ∈ o.methods, Scope (m.args.map Field.uid))
    (hbusEvents : Scope (bus.events.map BusEvent.uid)) : bus.Established crc := by
  have hmethods : ∀ o ∈ bus.objects, Scope (o.methods.map Method.uid) := fun o ho =>
    ⟨(List.nodup_append.mp (hmembers o ho).1).2.1, fun uid huid => (hmembers o ho).2 uid
      (List.mem_append_right _ huid)⟩
  have hnonzero : (bus.desc crc).UidsNonzero := by
    refine ⟨fun o' ho' => ?_, fun o' ho' m' hm' => ?_, fun o' ho' e' he' => ?_, fun e' he' => ?_⟩
    · obtain ⟨o, ho, rfl⟩ := List.mem_map.mp ho'
      exact hobjects.words.2 _ (List.mem_map_of_mem ho)
    · obtain ⟨o, ho, rfl⟩ := List.mem_map.mp ho'
      obtain ⟨m, hm, rfl⟩ := List.mem_map.mp hm'
      exact (hmethods o ho).words.2 _ (List.mem_map_of_mem hm)
    · obtain ⟨o, ho, rfl⟩ := List.mem_map.mp ho'
      obtain ⟨e, he, rfl⟩ := List.mem_map.mp he'
      exact (hevents o ho).words.2 _ (List.mem_map_of_mem he)
    · obtain ⟨e, he, rfl⟩ := List.mem_map.mp he'
      exact hbusEvents.words.2 _ (List.mem_map_of_mem he)
  have hdistinct : (bus.desc crc).UidsDistinct := by
    refine ⟨nodup_desc hobjects fun _ => rfl, fun o' ho' => ?_, fun o' ho' => ?_,
      nodup_desc hbusEvents fun _ => rfl⟩
    · obtain ⟨o, ho, rfl⟩ := List.mem_map.mp ho'
      exact nodup_desc (hmethods o ho) fun _ => rfl
    · obtain ⟨o, ho, rfl⟩ := List.mem_map.mp ho'
      exact nodup_desc (hevents o ho) fun _ => rfl
  exact ⟨hobjects, hevents, hmembers, hargs, hbusEvents, busApiInit_of_distinct hnonzero hdistinct,
    fun o ho => findsFields_of_nodup (infoDesc_uids ▸ (hmembers o ho).words.1),
    fun o ho m hm => findsFields_of_nodup (argsDesc_uids ▸ (hargs o ho m hm).words.1)⟩

end Lookups

/-! ## The theorem -/

section Main

/-- The uids in a scope of a description are those of a scope that is parsed. -/
lemma scope_of_fits {α ν : Type} {nodes : List ν} {l : List α} {g : ν → NumAttr} {uid : α → ℤ}
    (hmap : nodes.map g = l.map fun a => NumAttr.num (uid a)) (hfits : ∀ n ∈ nodes, (g n).Fits)
    (hzero : ∀ n ∈ l.map uid, n ≠ 0) : ∀ n ∈ l.map uid, 1 ≤ n ∧ n ≤ 65535 := by
  intro n hn
  obtain ⟨a, ha, rfl⟩ := List.mem_map.mp hn
  have hmem : NumAttr.num (uid a) ∈ nodes.map g := by
    rw [hmap]
    exact List.mem_map_of_mem ha
  obtain ⟨node, hnode, heq⟩ := List.mem_map.mp hmem
  have hrange := hfits node hnode (uid a) heq
  have hne := hzero (uid a) hn
  omega

lemma fits_of_scope {α ν : Type} {nodes : List ν} {l : List α} {g : ν → NumAttr} {uid : α → ℤ}
    (hmap : nodes.map g = l.map fun a => NumAttr.num (uid a))
    (hscope : ∀ n ∈ l.map uid, 1 ≤ n ∧ n ≤ 65535) : ∀ n ∈ nodes, (g n).Fits := by
  intro node hnode n hn
  have hmem : g node ∈ l.map fun a => NumAttr.num (uid a) := by
    rw [← hmap]
    exact List.mem_map_of_mem hnode
  obtain ⟨a, ha, heq⟩ := List.mem_map.mp hmem
  rw [hn] at heq
  cases heq
  have hrange := hscope (uid a) (List.mem_map_of_mem ha)
  omega

/-- The uids of arguments are different where the attributes are. -/
lemma nodup_num {α : Type} {l : List α} {uid : α → ℤ} : (l.map fun a => NumAttr.num (uid a)).Nodup ↔
    (l.map uid).Nodup := by
  have hmap : (l.map fun a => NumAttr.num (uid a)) = (l.map uid).map NumAttr.num := by
    rw [List.map_map]
    rfl
  rw [hmap]
  exact List.nodup_map_iff fun n m h => by
    cases h
    rfl

/-- A description that is accepted has the uids that the library relies on exactly if none of its
uids is negative or too large, and the arguments of each method have different ones. -/
theorem uids_established_iff {node : BusNode} {bus : Bus} (h : parseBus node = .ok bus)
    (crc : UInt32) : bus.Established crc ↔ node.UidsUsable := by
  have huids := parseBus_uids h
  constructor
  · intro hest
    refine ⟨fun n hn => ?_, fun n hn => ?_, fun n hn => ?_, fun n hn m hm => ?_, fun n hn => ?_,
      fun e he k hk => ?_,
      fun n hn m hm => ?_⟩
    · obtain ⟨o, ho, huid⟩ := huids.objectsOf n hn
      intro k hk
      rw [huid.uid.1] at hk
      cases hk
      have hrange := hest.objects.2 o.uid (List.mem_map_of_mem ho)
      omega
    · obtain ⟨o, ho, huid⟩ := huids.objectsOf n hn
      exact fits_of_scope huid.properties fun k hk =>
        (hest.members o ho).2 k (List.mem_append_left _ hk)
    · obtain ⟨o, ho, huid⟩ := huids.objectsOf n hn
      exact fits_of_scope huid.methods fun k hk =>
        (hest.members o ho).2 k (List.mem_append_right _ hk)
    · obtain ⟨o, ho, huid⟩ := huids.objectsOf n hn
      obtain ⟨m', hm', hargs⟩ := huid.argsOf m hm
      exact fits_of_scope hargs (hest.args o ho m' hm').2
    · obtain ⟨o, ho, huid⟩ := huids.objectsOf n hn
      exact fits_of_scope huid.events (hest.events o ho).2
    · have hmem : NumAttr.num k ∈ bus.events.map fun e => NumAttr.num e.uid := by
        rw [huids.busEvents, ← hk]
        exact List.mem_append_right _ (List.mem_map_of_mem he)
      obtain ⟨e', he', heq⟩ := List.mem_map.mp hmem
      cases heq
      exact (hest.busEvents.2 e'.uid (List.mem_map_of_mem he')).2
    · obtain ⟨o, ho, huid⟩ := huids.objectsOf n hn
      obtain ⟨m', hm', hargs⟩ := huid.argsOf m hm
      rw [hargs, nodup_num]
      exact (hest.args o ho m' hm').1
  · intro husable
    refine established_of_scopes ⟨huids.objects_nodup, fun k hk => ?_⟩
      (fun o ho => ⟨?_, ?_⟩) (fun o ho => ⟨?_, fun k hk => ?_⟩) (fun o ho m hm => ⟨?_, ?_⟩)
      ⟨huids.busEvents_nodup, fun k hk => ⟨huids.busEvents_pos k hk, ?_⟩⟩
    · obtain ⟨o, ho, rfl⟩ := List.mem_map.mp hk
      obtain ⟨n, hn, huid⟩ := huids.objects o ho
      have hrange := husable.objects n hn o.uid huid.uid.1
      have hne := huid.uid.2
      omega
    · obtain ⟨n, hn, huid⟩ := huids.objects o ho
      exact huid.events_nodup
    · obtain ⟨n, hn, huid⟩ := huids.objects o ho
      exact scope_of_fits huid.events (husable.events n hn) huid.events_ne_zero
    · obtain ⟨n, hn, huid⟩ := huids.objects o ho
      exact huid.members_nodup
    · obtain ⟨n, hn, huid⟩ := huids.objects o ho
      have hne := huid.members_ne_zero
      rcases List.mem_append.mp hk with hk | hk
      · exact scope_of_fits huid.properties (husable.properties n hn)
          (fun k hk => hne k (List.mem_append_left _ hk)) k hk
      · exact scope_of_fits huid.methods (husable.methods n hn)
          (fun k hk => hne k (List.mem_append_right _ hk)) k hk
    · obtain ⟨n, hn, huid⟩ := huids.objects o ho
      obtain ⟨m', hm', hargs⟩ := huid.args m hm
      have hdistinct := husable.argsDistinct n hn m' hm'
      rwa [hargs, nodup_num] at hdistinct
    · obtain ⟨n, hn, huid⟩ := huids.objects o ho
      obtain ⟨m', hm', hargs⟩ := huid.args m hm
      exact scope_of_fits hargs (husable.args n hn m' hm') (huid.args_ne_zero m hm)
    · obtain ⟨e, he, rfl⟩ := List.mem_map.mp hk
      have hmem : NumAttr.num e.uid ∈ bus.events.map fun e => NumAttr.num e.uid :=
        List.mem_map_of_mem he
      rw [huids.busEvents] at hmem
      rcases List.mem_append.mp hmem with hmem | hmem
      · obtain ⟨e', he', heq⟩ := List.mem_map.mp hmem
        have hinternal : ∀ e ∈ internalEvents, e.uid ≤ 65535 := by decide
        rw [← NumAttr.num.inj heq]
        exact hinternal e' he'
      · obtain ⟨n, hn, heq⟩ := List.mem_map.mp hmem
        exact husable.busEvents n hn e.uid heq

/-- A bus with an object that has a method with two arguments. -/
def doorNode (uid arg : ℤ) : BusNode :=
  ⟨['b', 'u', 's'], some ['h', 'o', 'm', 'e'],
    [⟨some ['d', 'o', 'o', 'r'], .num uid, [], [],
      [⟨some ['o', 'p', 'e', 'n'], .num 1, [⟨some ['a'], .num 1, some ['b', 'o', 'o', 'l']⟩,
        ⟨some ['b'], .num arg, some ['b', 'o', 'o', 'l']⟩]⟩], []⟩], []⟩

/-- What is parsed. -/
def doorBus (uid arg : ℤ) : Bus :=
  ⟨['h', 'o', 'm', 'e'],
    [⟨['d', 'o', 'o', 'r'], uid, [], [],
      [⟨['o', 'p', 'e', 'n'], 1,
        [⟨['a'], 1, ⟨false, .bool, none⟩⟩, ⟨['b'], arg, ⟨false, .bool, none⟩⟩]⟩], []⟩],
    internalEvents⟩

/-- The uids of this bus are what the library relies on. -/
theorem uids_established_iff_door : (doorBus 1 2).Established 0 ↔ (doorNode 1 2).UidsUsable :=
  @uids_established_iff (doorNode 1 2) (doorBus 1 2) rfl 0

/-- Two arguments with the same uid are accepted. -/
theorem uids_not_established : ¬∀ (node : BusNode) (bus : Bus), parseBus node = .ok bus →
    ∀ crc, bus.Established crc := by
  intro h
  have hargs := (h (doorNode 1 1) (doorBus 1 1) rfl 0).args _ (List.mem_singleton_self _) _
    (List.mem_singleton_self _)
  exact absurd hargs.1 (by decide)

end Main

end Obus.Idl
