import Obus.BusLemmas
import Obus.Java.Arrival
import Obus.Lib.Run
import Obus.Replica

/-!
# The replica of the Java library

A client of the C library and one of the Java library receive the same payloads: that of an object
that is added, and then those of events of this object.  The replicas agree (`Agree`) if every field
of the object in the C library has, in the Java library, a field that reads the same.

They do not always.  The generated `send_event` functions take the strings of an event as the user
has set them, and an absent one has no bytes on the wire; the C library takes it for an empty
string, and the Java library for a field that the event does not have, so that the object keeps its
old string.  A string of more than 65534 bytes is refused by the Java library, with everything else
in the payload, and the charset need not keep the bytes of a string.

The replicas agree after every payload exactly if no payload has such a string
(`java_replica_agrees_iff`).  In all such runs the strings that are read in the C library are not
too long, so that a payload that is refused makes a difference.
-/

namespace Obus.Java

open Fallible

/-! ## Both clients -/

/-- The buses of a client of either library. -/
structure Replicas where
  c : Obus.Bus
  java : Bus

/-- A payload in a buffer of the C library. -/
def bufferOf (payload : List UInt8) : Buffer := ⟨payload, payload.length, 0⟩

/-- What a decoder of the C library makes of a payload. -/
def cReceived {α : Type} (p : Dec (Option α)) (payload : List UInt8) : Option α :=
  match (p.on (bufferOf payload)).1 with
  | .ok a => a
  | .error _ => none

/-- What a decoder of the Java library makes of a payload; nothing if there is an exception. -/
def javaReceived {α : Type} (p : Read (Option α)) (payload : List UInt8) : Option α :=
  match p ⟨payload, 0⟩ with
  | .ok (a, _) => a
  | .error _ => none

/-- A client of the C library registers an object that has been added, if it can be put on the bus.
-/
def addRegistered (obj : Object) (bus : Obus.Bus) : Obus.Bus :=
  match busAddObject [] obj bus with
  | .ok (obj, bus) => busRegisterObject obj.handle bus
  | .error _ => bus

namespace Replicas

/-- Both clients receive the payload of an added object. -/
def add (cs : Charset) (r : Replicas) (payload : List UInt8) : Replicas where
  c := (cReceived (objectAddDecode r.c.api) payload).elim r.c fun obj => addRegistered obj r.c
  java :=
    ((javaReceived (ObusObject.decode cs r.java) payload).bind r.java.registerObject).getD r.java

/-- Both clients receive the payload of an event, and commit it. -/
def event (cs : Charset) (r : Replicas) (payload : List UInt8) : Replicas where
  c := (cReceived (eventDecode r.c) payload).elim r.c fun e => eventCommit e r.c
  java := ((javaReceived (ObusEvent.decode cs r.java) payload).bind fun evt =>
    evt.commit r.java).getD r.java

end Replicas

/-! ## Payloads -/

/-- The descriptors of an object are the same in both libraries; the structures of events are those
of the object. -/
structure Shared (api : Obus.BusDesc) (jdesc : BusDesc) (d : Obus.ObjectDesc) (jd : ObjectDesc) :
    Prop where
  ok : api.Ok
  desc : d ∈ api.objects
  object : jdesc.objectsDesc (word d.uid) = some jd
  uid : jd.uid = word d.uid
  fields : ∀ g ∈ d.infoDesc, ∃ f ∈ jd.structDesc.fields, SameField g f
  events : ∀ e ∈ d.events, ∃ je, jd.eventsDesc (word e.uid) = some je ∧
  je.structDesc = jd.structDesc

/-- The values of enumerations in the present fields have constants in the Java library. -/
def Declared (jd : ObjectDesc) (st : Struct) : Prop :=
  ∀ s ∈ st, s.has = true → ∀ f ∈ jd.structDesc.fields, SameField s.desc f →
  EachItem (ItemDeclared f) s.desc.type s.val

/-- The bytes that an encoder of the C library leaves in an empty buffer. -/
def Encodes (p : Enc Unit) (payload : List UInt8) : Prop :=
  ∃ mem b, p.on mem ⟨[], 0, 0⟩ = (.ok (), b) ∧ b.content = payload

/-- The payload of an object of a server that is added; it fits in an array of Java. -/
structure AddPayload (api : Obus.BusDesc) (d : Obus.ObjectDesc) (jd : ObjectDesc) where
  obj : Object
  payload : List UInt8
  desc : obj.desc = d
  full : obj.Full api
  declared : Declared jd obj.info
  encoded : Encodes (objectAddEncode obj) payload
  small : payload.length < 2 ^ 31

/-- The payload of an event of the object under a handle; it fits in an array of Java. -/
structure EventPayload (d : Obus.ObjectDesc) (jd : ObjectDesc) (handle : UInt16) where
  event : Event
  payload : List UInt8
  obj : event.obj = ⟨d, handle⟩
  desc : event.desc ∈ d.events
  info : event.info.On d.infoDesc
  declared : Declared jd event.info
  encoded : Encodes (eventEncode event) payload
  small : payload.length < 2 ^ 31

/-- The handle is free in both clients. -/
structure Ready (api : Obus.BusDesc) (jdesc : BusDesc) (handle : UInt16) (r : Replicas) : Prop where
  api : r.c.api = api
  desc : r.java.desc = jdesc
  free : handle ∉ r.c.hash.map Object.handle
  java : r.java.findObject (word handle) = none

/-- A step of a run: an event arrives. -/
def Replicas.step (cs : Charset) {d : Obus.ObjectDesc} {jd : ObjectDesc} {handle : UInt16}
    (r : Replicas) (p : EventPayload d jd handle) : Option Replicas := some (r.event cs p.payload)

/-! ## Agreement -/

/-- What a field of the C library holds. -/
def slotReading (s : Slot) : Reading := valReading s.desc.type s.val

/-- A field of the C library reads the same in an object of the Java library. -/
def SlotAgrees (cs : Charset) (jobj : ObusObject) (s : Slot) : Prop :=
  ∃ f ∈ jobj.desc.structDesc.fields, SameField s.desc f ∧
  jobj.struct.reading cs f = some (slotReading s)

/-- All fields of the object under a handle read the same in both libraries. -/
def Agree (cs : Charset) (handle : UInt16) (r : Replicas) : Prop :=
  ∃ obj, r.c.object? handle = some obj ∧
    ∀ s ∈ obj.info, ∃ jobj, r.java.findObject (word handle) = some jobj ∧ SlotAgrees cs jobj s

/-- The strings that are sent are short enough for the Java library, and the charset keeps them. -/
def StringsArrive (cs : Charset) (st : Struct) : Prop :=
  EachValue ItemShort st ∧ EachValue (ItemKept cs) st

/-- No field of the event is an absent string where the object has a string that is not empty. -/
def NothingStale (handle : UInt16) (r : Replicas) (st : Struct) : Prop :=
  ∀ obj, r.c.object? handle = some obj → ∀ s ∈ st, s.has = true → FieldAbsent s.desc.type s.val →
    ∀ g ∈ obj.info, g.desc = s.desc → slotReading g = .value (.text [])

/-- The Java library takes over what an event brings. -/
def EventInStep (cs : Charset) {d : Obus.ObjectDesc} {jd : ObjectDesc} {handle : UInt16}
    (r : Replicas) (p : EventPayload d jd handle) : Prop :=
  StringsArrive cs p.event.info ∧ NothingStale handle r p.event.info

/-! ## Readings -/

/-- A string that the Java library would take. -/
def Datum.Short : Datum → Prop
  | .bits _ => True
  | .text bs => bs.length < 65535

/-- Strings that the Java library would take. -/
def Reading.Short : Reading → Prop
  | .value d => d.Short
  | .array ds => ∀ d ∈ ds, d.Short

lemma short_cellDatum {t : BaseType} {v : t.Cell} : (cellDatum t (t.onWire v)).Short ↔
    ItemShort t v := by
  cases t with
  | string =>
    change (Option.elim (sentString v) [] Subtype.val).length < 65535 ↔
        ∀ s ∈ sentString v, s.val.length < 65535
    cases sentString v with
    | none => simp
    | some s => simp
  | _ => exact iff_of_true trivial trivial

lemma short_valReading {t : Obus.FieldType} {v : t.Val} : (valReading t (t.onWire v)).Short ↔
    EachItem ItemShort t v := by
  cases t with
  | value t => exact short_cellDatum
  | array t =>
    change (∀ d ∈ (v.items.map t.onWire).map (cellDatum t), d.Short) ↔ ∀ c ∈ v.items, ItemShort t c
    simp only [List.map_map, List.forall_mem_map, Function.comp_apply, short_cellDatum]

lemma cellDatum_copyValue (t : BaseType) (v : t.Cell) :
    cellDatum t (copyValue t v) = cellDatum t v := by
  cases t with
  | bool =>
    change UInt8 at v
    by_cases hv : v = 0
    · subst hv
      rfl
    · simp [copyValue, cellDatum, hv]
  | string => cases v <;> rfl
  | _ => rfl

/-- A copied field reads as before. -/
lemma slotReading_canon (s : Slot) : slotReading s.canon = slotReading s := by
  obtain ⟨⟨uid, role, type, drv⟩, has, val⟩ := s
  cases type with
  | value t => exact congrArg Reading.value (cellDatum_copyValue t val)
  | array t =>
    change Reading.array ((val.items.map (copyValue t)).map (cellDatum t)) = Reading.array
        (val.items.map (cellDatum t))
    rw [List.map_map]
    exact congrArg Reading.array (List.map_congr_left fun c _ => cellDatum_copyValue t c)

lemma itemKept_of_absent {cs : Charset} {t : Obus.FieldType} {v : t.Val} (h : FieldAbsent t v) :
    EachItem (ItemKept cs) t v := by
  cases t with
  | value t =>
    cases t with
    | string =>
      have hnone : sentString v = none := h
      intro s hs
      rw [hnone] at hs
      cases hs
    | _ => trivial
  | array t => exact h.elim

lemma valReading_of_absent {t : Obus.FieldType} {v : t.Val} (h : FieldAbsent t v) :
    valReading t (t.onWire v) = .value (.text []) := by
  cases t with
  | value t =>
    cases t with
    | string =>
      have hnone : sentString v = none := h
      change Reading.value (.text (Option.elim (sentString v) [] Subtype.val)) = _
      rw [hnone]
      rfl
    | _ => exact h.elim
  | array t => exact h.elim

/-! ## Payloads in both libraries -/

section Payloads

variable {α : Type} {bs payload : List UInt8} {a : Option α}

lemma Encodes.eq_of_writes {p : Enc Unit} (h : Encodes p payload) (hp : Writes p bs) :
    payload = bs := by
  obtain ⟨mem, b, hrun, rfl⟩ := h
  rcases hp mem ⟨[], 0, 0⟩ le_rfl with ⟨b', hrun', -, hcontent⟩ | ⟨e, b', hrun', -⟩
  · rw [hrun] at hrun'
    cases hrun'
    exact hcontent
  · rw [hrun] at hrun'
    cases hrun'

lemma cReceived_of_parses {p : Dec (Option α)} (h : Parses p bs a) : cReceived p bs = a := by
  have hnext : (bufferOf bs).HasNext bs := ⟨le_rfl, (Nat.zero_add _).le, List.prefix_rfl⟩
  rw [cReceived, (h _ hnext).1]

lemma javaReceived_of_yields {p : Read (Option α)} (h : Yields p bs a) : javaReceived p bs = a := by
  have hlead := h [] []
  rw [List.nil_append, List.append_nil] at hlead
  unfold Fallible.Leads at hlead
  rw [javaReceived, ← List.length_nil (α := UInt8), hlead]

lemma javaReceived_of_drops {p : Read (Option α)} (h : Drops p bs) : javaReceived p bs = none := by
  have hlead := h [] []
  rw [List.nil_append, List.append_nil] at hlead
  unfold javaReceived
  split
  · next a b hrun =>
    cases a with
    | none => rfl
    | some a => exact absurd hrun (hlead a b)
  · rfl

end Payloads

section Descriptors

variable {api : Obus.BusDesc} {jdesc : BusDesc} {d : Obus.ObjectDesc} {jd : ObjectDesc}
  {st : Struct}

lemma Shared.infoOk (h : Shared api jdesc d jd) : d.infoDesc.Ok := (h.ok.objects d h.desc).info

lemma Shared.uids_nodup (h : Shared api jdesc d jd) (hst : st.desc = d.infoDesc) :
    (st.desc.map Obus.FieldDesc.uid).Nodup :=
  hst ▸ h.infoOk.1

lemma Shared.sharedStruct (h : Shared api jdesc d jd) (hst : st.On d.infoDesc)
    (hdecl : Declared jd st) : SharedStruct jd.structDesc st :=
  ⟨fun _ hs _ => h.fields _ (hst.desc ▸ List.mem_map_of_mem hs), hdecl⟩

/-- Fields of a struct with the same uid are one field. -/
lemma slot_eq_of_uid (hnodup : (st.desc.map Obus.FieldDesc.uid).Nodup) {s s' : Slot} (hs : s ∈ st)
    (hs' : s' ∈ st) (huid : s.desc.uid = s'.desc.uid) : s = s' := by
  rw [Struct.desc, List.map_map] at hnodup
  exact List.inj_on_of_nodup_map hnodup hs hs' huid

/-- The bytes of an added object, as the encoder has written them. -/
lemma AddPayload.spec (p : AddPayload api d jd) (h : Shared api jdesc d jd) :
    p.payload = objectWire p.obj ∧
    p.obj.info.On d.infoDesc ∧ p.obj.info.Countable ∧ (structWire p.obj.info).length < 2 ^ 31 := by
  have hon := p.full.info
  rw [p.desc] at hon
  have hcount := hon.countable h.infoOk
  have hpayload := p.encoded.eq_of_writes (writes_objectWire hcount)
  have hsmall := p.small
  rw [hpayload, objectWire, sizedBytes, List.length_append, List.length_append,
    List.length_append] at hsmall
  exact ⟨hpayload, hon, hcount, by omega⟩

/-- The bytes of an event, as the encoder has written them. -/
lemma EventPayload.spec {handle : UInt16} (p : EventPayload d jd handle)
    (h : Shared api jdesc d jd) :
    p.payload = eventWire p.event ∧ p.event.info.Countable ∧ (structWire p.event.info).length <
      2 ^ 31 := by
  have hcount := p.info.countable h.infoOk
  have hpayload := p.encoded.eq_of_writes (writes_eventWire hcount)
  have hsmall := p.small
  rw [hpayload, eventWire, sizedBytes, List.length_append, List.length_append, List.length_append,
    List.length_append] at hsmall
  exact ⟨hpayload, hcount, by omega⟩

end Descriptors

/-! ## A field of the object and the one of an event -/

/-- A field of an object after an event. -/
def slotAfter (g s : Slot) : Slot := if s.has then s.onWire.canon else g

lemma mem_update {dst src : Struct} {t : Slot} :
    t ∈ dst.update (src.map Slot.onWire) ↔ ∃ g s, (g, s) ∈ dst.zip src ∧ slotAfter g s = t := by
  have hzip : dst.update (src.map Slot.onWire) = (dst.zip src).map fun q => slotAfter q.1 q.2 := by
    rw [Struct.update, List.zipWith_map_right, List.map_zip_eq_zipWith]
    rfl
  rw [hzip, List.mem_map]
  constructor
  · rintro ⟨q, hq, h⟩
    exact ⟨q.1, q.2, hq, h⟩
  · rintro ⟨g, s, hq, h⟩
    exact ⟨(g, s), hq, h⟩

lemma desc_eq_of_zip {dst src : Struct} (h : dst.desc = src.desc) {g s : Slot}
    (hmem : (g, s) ∈ dst.zip src) : g.desc = s.desc := by
  induction dst generalizing src with
  | nil => cases hmem
  | cons a dst ih =>
    cases src with
    | nil => cases hmem
    | cons b src =>
      obtain ⟨hhead, htail⟩ := List.cons.inj h
      rw [List.zip_cons_cons] at hmem
      rcases List.mem_cons.mp hmem with heq | hmem
      · obtain ⟨rfl, rfl⟩ := Prod.mk.inj heq
        exact hhead
      · exact ih htail hmem

lemma exists_zip {dst src : Struct} (h : dst.desc = src.desc) {s : Slot} (hs : s ∈ src) :
    ∃ g, (g, s) ∈ dst.zip src := by
  have hlen := length_eq_of_desc h
  have hmem : s ∈ (dst.zip src).map Prod.snd := by
    rwa [List.map_snd_zip hlen.ge]
  obtain ⟨⟨g, s'⟩, hq, rfl⟩ := List.mem_map.mp hmem
  exact ⟨g, hq⟩

lemma slotAfter_desc {g s : Slot} (h : g.desc = s.desc) : (slotAfter g s).desc = g.desc := by
  unfold slotAfter
  split_ifs
  · exact h.symm
  · rfl

lemma slotReading_slotAfter (g s : Slot) : slotReading (slotAfter g s) =
    if s.has then valReading s.desc.type (s.desc.type.onWire s.val) else slotReading g := by
  unfold slotAfter
  split_ifs
  · exact slotReading_canon s.onWire
  · rfl

/-! ## A run -/

section Agreement

variable {cs : Charset} {handle : UInt16} {r : Replicas} {obj : Object} {jobj : ObusObject}
  {s : Slot}

/-- The two objects under a handle decide whether the replicas agree. -/
lemma agree_iff (hobj : r.c.object? handle = some obj)
    (hjava : r.java.findObject (word handle) = some jobj) :
    Agree cs handle r ↔ ∀ s ∈ obj.info, SlotAgrees cs jobj s := by
  constructor
  · rintro ⟨obj', hobj', hagree⟩ s hs
    obtain rfl : obj = obj' := Option.some_inj.mp (hobj.symm.trans hobj')
    obtain ⟨jobj', hjava', hslot⟩ := hagree s hs
    obtain rfl : jobj = jobj' := Option.some_inj.mp (hjava.symm.trans hjava')
    exact hslot
  · intro hagree
    exact ⟨obj, hobj, fun s hs => ⟨jobj, hjava, hagree s hs⟩⟩

/-- The field of the Java library with the uid of a field decides whether the two agree. -/
lemma slotAgrees_iff {f : FieldDesc} (hf : f ∈ jobj.desc.structDesc.fields)
    (hsame : SameField s.desc f) :
    SlotAgrees cs jobj s ↔ jobj.struct.reading cs f = some (slotReading s) := by
  constructor
  · rintro ⟨g, hg, hsame', hreading⟩
    rwa [hsame.unique hf hg hsame']
  · intro hreading
    exact ⟨f, hf, hsame, hreading⟩

end Agreement

/-- The replicas of an object agree, and no string that is read in the C library is too long. -/
structure Follows (cs : Charset) (api : Obus.BusDesc) (d : Obus.ObjectDesc) (jd : ObjectDesc)
    (handle : UInt16) (r : Replicas) (obj : Object) (jobj : ObusObject) : Prop where
  api : r.c.api = api
  c : r.c.object? handle = some obj
  desc : obj.desc = d
  info : obj.info.desc = d.infoDesc
  java : r.java.findObject (word handle) = some jobj
  jdesc : jobj.desc = jd
  jhandle : jobj.handle = word handle
  struct : jobj.struct.desc = jd.structDesc
  agrees : ∀ s ∈ obj.info, SlotAgrees cs jobj s
  short : ∀ s ∈ obj.info, (slotReading s).Short

section Events

variable {cs : Charset} {api : Obus.BusDesc} {jdesc : BusDesc} {d : Obus.ObjectDesc}
  {jd : ObjectDesc} {handle : UInt16} {r : Replicas} {obj : Object} {jobj : ObusObject}

namespace Follows

/-- The C library merges what is on the wire. -/
lemma c_event (h : Follows cs api d jd handle r obj jobj) (hshared : Shared api jdesc d jd)
    (p : EventPayload d jd handle) :
    (r.event cs p.payload).c.api = api ∧ (r.event cs p.payload).c.object? handle =
      some { obj with info := obj.info.update p.event.onWire.info } := by
  obtain ⟨hpayload, hcount, hsmall⟩ := p.spec hshared
  have href : obj.ref = ⟨d, handle⟩ := by rw [Object.ref, h.desc, Bus.object?_handle h.c]
  have hbuilt : p.event.onWire.BuiltOn r.c := by
    have hobj : p.event.onWire.obj = ⟨d, handle⟩ := p.obj
    refine ⟨⟨?_, ?_⟩, ?_, ?_⟩
    · rw [hobj, h.api]
      exact hshared.desc
    · rw [hobj, h.c, Option.map_some, href]
    · rw [hobj]
      exact p.desc
    · rw [hobj]
      exact p.info.onWire
  have hon : p.event.onWire.info.desc = d.infoDesc := p.info.onWire.desc
  have hparse := parses_eventWire r.c hcount (hsmall.trans (by decide))
  rw [hbuilt.arrive (h.api ▸ hshared.ok)] at hparse
  have hc : (r.event cs p.payload).c = eventCommit p.event.onWire.arrival r.c := by
    rw [Replicas.event, hpayload, cReceived_of_parses hparse]
    rfl
  have hsent : p.event.onWire.arrival.info =
      structSent (structInit d.infoDesc) p.event.onWire.info := by
    have hobj : p.event.onWire.obj.desc = d := congrArg ObjectRef.desc p.obj
    rw [Event.arrival, hobj]
  have hinit : (structInit d.infoDesc).desc = p.event.onWire.info.desc := by
    rw [structInit_desc, hon]
  have hdesc : obj.info.desc = (structSent (structInit d.infoDesc) p.event.onWire.info).desc := by
    rw [structSent_desc hinit, hon, h.info]
  have hhandle : handle = p.event.onWire.arrival.obj.handle :=
    (congrArg ObjectRef.handle p.obj).symm
  refine ⟨by rw [hc]; exact h.api, ?_⟩
  rw [hc, Bus.Ok.object?_eventCommit, h.c, Option.map_some, if_pos hhandle, hsent,
    structMerge_eq hdesc,
    Struct.update_structSent (length_eq_of_desc hinit)]

/-- The Java library knows the object and the descriptor of an event. -/
lemma knownTo (h : Follows cs api d jd handle r obj jobj) (hshared : Shared api jdesc d jd)
    (p : EventPayload d jd handle) :
    ∃ je, KnownTo r.java p.event jobj je ∧ je.structDesc = jd.structDesc := by
  obtain ⟨je, hje, hstruct⟩ := hshared.events p.event.desc p.desc
  refine ⟨je, ⟨?_, ?_, ?_⟩, hstruct⟩
  · rw [p.obj]
    exact h.java
  · rw [p.obj, ObusObject.uid, h.jdesc]
    exact hshared.uid
  · rwa [h.jdesc]

/-- The Java library merges the fields for which there is an object in the table. -/
lemma java_event (h : Follows cs api d jd handle r obj jobj) (hshared : Shared api jdesc d jd)
    (p : EventPayload d jd handle)
    (hshort : EachValue ItemShort p.event.info) : ∃ js m, Arrived cs jd.structDesc p.event.info js ∧
      (r.event cs p.payload).java.findObject (word handle) = some { jobj with struct := m } ∧
      m.desc = jd.structDesc ∧
        ∀ f ∈ jd.structDesc.fields,
          m.reading cs f = if js.fields f.idx = none then jobj.struct.reading cs f
            else js.reading cs f := by
  obtain ⟨hpayload, hcount, hsmall⟩ := p.spec hshared
  obtain ⟨je, hknown, hstruct⟩ := h.knownTo hshared p
  obtain ⟨js, hyields, harrived⟩ :=
    @yields_structWire cs _ _ hcount (hshared.sharedStruct p.info p.declared) hsmall
    (hshared.uids_nodup p.info.desc) hshort
  obtain ⟨m, hmerge, hdesc, hreading⟩ := ObusStruct.merge_spec (h.struct.trans harrived.on.symm)
  rw [← hstruct] at hyields
  have hjava : (r.event cs p.payload).java = r.java.put { jobj with struct := m } := by
    rw [Replicas.event, hpayload, javaReceived_of_yields (yields_eventWire hknown hyields hsmall)]
    change (Option.map (fun struct => r.java.put { jobj with struct := struct })
        (jobj.struct.merge js)).getD r.java = _
    rw [hmerge]
    rfl
  refine ⟨js, m, harrived, ?_, hdesc.trans h.struct, ?_⟩
  · rw [hjava, Bus.put, h.jhandle]
    exact Function.update_self _ _ _
  · intro f hf
    exact hreading cs f (h.struct ▸ hf)

/-- A payload with a string that is too long is lost in the Java library. -/
lemma java_event_of_long (h : Follows cs api d jd handle r obj jobj)
    (hshared : Shared api jdesc d jd)
    (p : EventPayload d jd handle) (hlong : ¬EachValue ItemShort p.event.info) :
    (r.event cs p.payload).java = r.java := by
  obtain ⟨hpayload, hcount, hsmall⟩ := p.spec hshared
  obtain ⟨je, hknown, hstruct⟩ := h.knownTo hshared p
  have hrejects := @rejects_structWire cs _ _ hcount
    (hshared.sharedStruct p.info p.declared) hsmall hlong
  rw [← hstruct] at hrejects
  rw [Replicas.event, hpayload, javaReceived_of_drops (drops_eventWire hknown hrejects hsmall)]
  rfl

/-- When a field of the object and the field that an event has for it agree afterwards. -/
lemma slotAgrees_after (h : Follows cs api d jd handle r obj jobj) (hshared : Shared api jdesc d jd)
    {st : Struct}
    (hst : st.desc = d.infoDesc) {js m : ObusStruct} (harrived : Arrived cs jd.structDesc st js)
    (hreading : ∀ f ∈ jd.structDesc.fields,
      m.reading cs f = if js.fields f.idx = none then jobj.struct.reading cs f else js.reading cs f)
      {g s : Slot}
    (hq : (g, s) ∈ obj.info.zip st) : SlotAgrees cs { jobj with struct := m } (slotAfter g s) ↔
      (s.has = true → EachItem (ItemKept cs) s.desc.type s.val ∧
        (FieldAbsent s.desc.type s.val → slotReading g = .value (.text []))) := by
  obtain ⟨hg, hs⟩ := List.of_mem_zip hq
  have hdesc : g.desc = s.desc := desc_eq_of_zip (h.info.trans hst.symm) hq
  obtain ⟨f, hf, hsame, hold⟩ := h.agrees g hg
  rw [h.jdesc] at hf
  have hsame' : SameField (slotAfter g s).desc f := (slotAfter_desc hdesc).symm ▸ hsame
  have hfields : f ∈ ({ jobj with struct := m } : ObusObject).desc.structDesc.fields :=
    h.jdesc.symm ▸ hf
  rw [slotAgrees_iff hfields hsame', slotReading_slotAfter]
  change m.reading cs f = _ ↔ _
  rw [hreading f hf]
  cases hhas : s.has with
  | false =>
    have hnone : js.fields f.idx = none := by
      refine harrived.absent f hf fun s' hs' hhas' huid => ?_
      have hsuid : s.desc.uid = s'.desc.uid :=
        UInt16.toNat_inj.mp (by rw [← hdesc, ← hsame.uid, huid])
      rw [slot_eq_of_uid (hshared.uids_nodup hst) hs hs' hsuid, hhas'] at hhas
      cases hhas
    rw [if_pos hnone, if_neg Bool.false_ne_true]
    exact iff_of_true hold fun h => absurd h Bool.false_ne_true
  | true =>
    obtain ⟨hnew, hnone⟩ := harrived.present s hs hhas f hf (hdesc ▸ hsame)
    rw [if_pos rfl]
    by_cases habsent : FieldAbsent s.desc.type s.val
    · rw [if_pos (hnone.mpr habsent), hold, Option.some_inj, valReading_of_absent habsent]
      exact ⟨fun hempty _ => ⟨itemKept_of_absent habsent, fun _ => hempty⟩,
        fun hboth => (hboth rfl).2 habsent⟩
    · rw [if_neg fun h => habsent (hnone.mp h), hnew, Option.some_inj, valArrives_eq_iff]
      exact ⟨fun hkept _ => ⟨hkept, fun h => absurd h habsent⟩, fun hboth => (hboth rfl).1⟩

/-- When the replicas agree after an event. -/
lemma agree_event_iff (h : Follows cs api d jd handle r obj jobj) (hshared : Shared api jdesc d jd)
    (p : EventPayload d jd handle) : Agree cs handle (r.event cs p.payload) ↔
    EventInStep cs r p := by
  have hinfo : obj.info.desc = p.event.info.desc := h.info.trans p.info.desc.symm
  obtain ⟨-, hc⟩ := h.c_event hshared p
  by_cases hshort : EachValue ItemShort p.event.info
  · obtain ⟨js, m, harrived, hjava, -, hreading⟩ := h.java_event hshared p hshort
    rw [agree_iff hc hjava]
    constructor
    · intro hagree
      have hpair : ∀ g s, (g, s) ∈ obj.info.zip p.event.info → s.has = true → _ := fun g s hq =>
        (h.slotAgrees_after hshared p.info.desc harrived hreading hq).mp
          (hagree _ (mem_update.mpr ⟨g, s, hq, rfl⟩))
      refine ⟨⟨hshort, fun s hs hhas => ?_⟩, fun obj' hobj' s hs hhas habsent g hg hdesc => ?_⟩
      · obtain ⟨g, hq⟩ := exists_zip hinfo hs
        exact (hpair g s hq hhas).1
      · obtain rfl : obj = obj' := Option.some_inj.mp (h.c.symm.trans hobj')
        obtain ⟨g', hq⟩ := exists_zip hinfo hs
        have huid : g.desc.uid = g'.desc.uid := by rw [hdesc, desc_eq_of_zip hinfo hq]
        rw [slot_eq_of_uid (hshared.uids_nodup h.info) hg (List.of_mem_zip hq).1 huid]
        exact (hpair g' s hq hhas).2 habsent
    · rintro ⟨⟨-, hkept⟩, hstale⟩ t ht
      obtain ⟨g, s, hq, rfl⟩ := mem_update.mp ht
      obtain ⟨hg, hs⟩ := List.of_mem_zip hq
      refine (h.slotAgrees_after hshared p.info.desc harrived hreading hq).mpr fun hhas =>
        ⟨hkept s hs hhas, fun habsent => ?_⟩
      exact hstale obj h.c s hs hhas habsent g hg (desc_eq_of_zip hinfo hq)
  · refine iff_of_false (fun hagree => ?_) fun hstep => hshort hstep.1.1
    have hjava : (r.event cs p.payload).java.findObject (word handle) = some jobj := by
      rw [h.java_event_of_long hshared p hshort, h.java]
    rw [agree_iff hc hjava] at hagree
    unfold EachValue at hshort
    push Not at hshort
    obtain ⟨s, hs, hhas, hlong⟩ := hshort
    obtain ⟨g, hq⟩ := exists_zip hinfo hs
    have hg := (List.of_mem_zip hq).1
    obtain ⟨f, hf, hsame, hold⟩ := h.agrees g hg
    have hsame' : SameField (slotAfter g s).desc f :=
      (slotAfter_desc (desc_eq_of_zip hinfo hq)).symm ▸ hsame
    have hnew := (slotAgrees_iff hf hsame').mp (hagree _ (mem_update.mpr ⟨g, s, hq, rfl⟩))
    rw [hold, Option.some_inj, slotReading_slotAfter, if_pos hhas] at hnew
    exact hlong (short_valReading.mp (hnew ▸ h.short g hg))

/-- The replicas go on as they should after an event that the Java library takes over. -/
lemma event (h : Follows cs api d jd handle r obj jobj) (hshared : Shared api jdesc d jd)
    (p : EventPayload d jd handle)
    (hstep : EventInStep cs r p) :
    ∃ obj jobj, Follows cs api d jd handle (r.event cs p.payload) obj jobj := by
  have hinfo : obj.info.desc = p.event.onWire.info.desc := h.info.trans p.info.onWire.desc.symm
  obtain ⟨hapi, hc⟩ := h.c_event hshared p
  obtain ⟨js, m, harrived, hjava, hm, hreading⟩ := h.java_event hshared p hstep.1.1
  refine ⟨_, _, hapi, hc, h.desc, (Struct.update_desc hinfo).trans h.info, hjava, h.jdesc,
    h.jhandle, hm, ?_, ?_⟩
  · exact (agree_iff hc hjava).mp ((h.agree_event_iff hshared p).mpr hstep)
  · intro t ht
    obtain ⟨g, s, hq, rfl⟩ := mem_update.mp ht
    obtain ⟨hg, hs⟩ := List.of_mem_zip hq
    rw [slotReading_slotAfter]
    split_ifs with hhas
    · exact short_valReading.mpr (hstep.1.1 s hs hhas)
    · exact h.short g hg

lemma agree (h : Follows cs api d jd handle r obj jobj) : Agree cs handle r :=
  (agree_iff h.c h.java).mpr h.agrees

end Follows

end Events

section Adding

variable {cs : Charset} {api : Obus.BusDesc} {jdesc : BusDesc} {d : Obus.ObjectDesc}
  {jd : ObjectDesc} {r : Replicas}

/-- A new object is found under its handle, as it is on the wire. -/
lemma c_add (hshared : Shared api jdesc d jd) (p : AddPayload api d jd)
    (hr : Ready api jdesc p.obj.handle r) :
    (r.add cs p.payload).c.api = api ∧ ∃ obj, (r.add cs p.payload).c.object? p.obj.handle =
      some obj ∧ obj.desc = d ∧
      obj.info.desc = d.infoDesc ∧
      obj.info.map Slot.canon = (p.obj.info.map Slot.onWire).map Slot.canon := by
  obtain ⟨hpayload, hon, hcount, hsmall⟩ := p.spec hshared
  have hbuilt : p.obj.onWire.BuiltOn api := ⟨p.full.desc, p.full.handle, p.full.info.onWire⟩
  have hparse := parses_objectWire api hcount (hsmall.trans (by decide))
  rw [hbuilt.arrive hshared.ok] at hparse
  have hinit : (structSetHasFields (structInit d.infoDesc)).desc = p.obj.onWire.info.desc := by
    rw [structSetHasFields_desc, structInit_desc]
    exact hon.onWire.desc.symm
  have hinfo : p.obj.onWire.arrival.info = structSent (structSetHasFields (structInit d.infoDesc))
      p.obj.onWire.info := by
    have hdesc : p.obj.onWire.desc = d := p.desc
    rw [Object.arrival, hdesc]
  have huid : p.obj.onWire.arrival.desc.uid ≠ 0 := fun h0 =>
    hshared.ok.uids.2 (List.mem_map.mpr ⟨p.obj.desc, p.full.desc, h0⟩)
  have hfree : ¬r.c.hash.any (fun o => decide (o.handle = p.obj.onWire.arrival.handle)) = true := by
    intro hany
    obtain ⟨o, ho, heq⟩ := List.any_eq_true.mp hany
    exact hr.free (List.mem_map.mpr ⟨o, ho, of_decide_eq_true heq⟩)
  have hadd : busAddObject [] p.obj.onWire.arrival r.c =
      .ok (p.obj.onWire.arrival, { r.c with hash := r.c.hash ++ [p.obj.onWire.arrival] }) := by
    rw [busAddObject, if_neg huid]
    exact (if_neg p.full.handle).trans (if_neg hfree)
  have hc : (r.add cs p.payload).c =
      busRegisterObject p.obj.handle { r.c with hash := r.c.hash ++ [p.obj.onWire.arrival] } := by
    rw [Replicas.add, hpayload, hr.api, cReceived_of_parses hparse]
    change addRegistered p.obj.onWire.arrival r.c = _
    rw [addRegistered, hadd]
    rfl
  have hfound : (r.add cs p.payload).c.object? p.obj.handle =
      some { p.obj.onWire.arrival with isRegistered := true } := by
    have hself : p.obj.handle = p.obj.onWire.arrival.handle := rfl
    rw [hc, Bus.object?_register, Bus.Ok.object?_add hadd, if_pos hself, Option.map_some,
      if_pos rfl]
  refine ⟨by rw [hc]; exact hr.api, _, hfound, p.desc, ?_, ?_⟩
  · change p.obj.onWire.arrival.info.desc = _
    rw [hinfo, structSent_desc hinit]
    exact hon.onWire.desc
  · change p.obj.onWire.arrival.info.map Slot.canon = _
    rw [hinfo]
    refine canon_structSent (length_eq_of_desc hinit) fun s hs => ?_
    obtain ⟨s, hmem, rfl⟩ := List.mem_map.mp hs
    exact p.full.fields s hmem

/-- The Java library registers the object with the fields as they arrive. -/
lemma java_add (hshared : Shared api jdesc d jd) (p : AddPayload api d jd)
    (hr : Ready api jdesc p.obj.handle r)
    (hshort : EachValue ItemShort p.obj.info) : ∃ js, Arrived cs jd.structDesc p.obj.info js ∧
      (r.add cs p.payload).java.findObject (word p.obj.handle) =
        some ⟨jd, word p.obj.handle, js⟩ := by
  obtain ⟨hpayload, hon, hcount, hsmall⟩ := p.spec hshared
  obtain ⟨js, hyields, harrived⟩ :=
    @yields_structWire cs _ _ hcount (hshared.sharedStruct hon p.declared) hsmall
    (hshared.uids_nodup hon.desc) hshort
  have hdesc : r.java.desc.objectsDesc (word p.obj.desc.uid) = some jd := by
    rw [hr.desc, p.desc]
    exact hshared.object
  have hregister : r.java.registerObject ⟨jd, word p.obj.handle, js⟩ =
      some (r.java.put ⟨jd, word p.obj.handle, js⟩) := by
    refine if_neg ?_
    rintro (hzero | htaken)
    · exact word_ne_zero p.full.handle hzero
    · rw [hr.java] at htaken
      cases htaken
  refine ⟨js, harrived, ?_⟩
  rw [Replicas.add, hpayload, javaReceived_of_yields (yields_objectWire hdesc hyields hsmall),
    Option.bind_some, hregister]
  exact Function.update_self _ _ _

/-- An object with a string that is too long is not registered in the Java library. -/
lemma java_add_of_long (hshared : Shared api jdesc d jd) (p : AddPayload api d jd)
    (hr : Ready api jdesc p.obj.handle r)
    (hlong : ¬EachValue ItemShort p.obj.info) :
    (r.add cs p.payload).java.findObject (word p.obj.handle) = none := by
  obtain ⟨hpayload, hon, hcount, hsmall⟩ := p.spec hshared
  have hrejects := @rejects_structWire cs _ _ hcount
    (hshared.sharedStruct hon p.declared) hsmall hlong
  have hdesc : r.java.desc.objectsDesc (word p.obj.desc.uid) = some jd := by
    rw [hr.desc, p.desc]
    exact hshared.object
  rw [Replicas.add, hpayload, javaReceived_of_drops (drops_objectWire hdesc hrejects hsmall)]
  exact hr.java

/-- Fields that are copied alike are the same field and read the same. -/
lemma reading_of_canon {t s : Slot} (h : t.canon = s.canon) :
    t.desc = s.desc ∧ slotReading t = slotReading s := by
  have hdesc : t.canon.desc = s.canon.desc := by rw [h]
  refine ⟨hdesc, ?_⟩
  rw [← slotReading_canon t, h, slotReading_canon]

/-- When the replicas agree after the object has been added, and that they go on as they should. -/
lemma follows_add (hshared : Shared api jdesc d jd) (p : AddPayload api d jd)
    (hr : Ready api jdesc p.obj.handle r) :
    (Agree cs p.obj.handle (r.add cs p.payload) → StringsArrive cs p.obj.info) ∧
    (StringsArrive cs p.obj.info →
      ∃ obj jobj, Follows cs api d jd p.obj.handle (r.add cs p.payload) obj jobj) := by
  obtain ⟨-, hon, -, -⟩ := p.spec hshared
  obtain ⟨hapi, obj, hobj, hdesc, hinfo, hcanon⟩ := @c_add cs _ _ _ _ _ hshared p hr
  by_cases hshort : EachValue ItemShort p.obj.info
  · obtain ⟨js, harrived, hjava⟩ := @java_add cs _ _ _ _ _ hshared p hr hshort
    -- the fields of the new object stand for those of the object that was sent
    have hslot : ∀ t ∈ obj.info, ∀ s ∈ p.obj.info, t.canon = s.onWire.canon →
        (SlotAgrees cs ⟨jd, word p.obj.handle, js⟩ t ↔
          EachItem (ItemKept cs) s.desc.type s.val) := by
      intro t _ s hs heq
      obtain ⟨htdesc, htreading⟩ := reading_of_canon heq
      obtain ⟨f, hf, hsame⟩ := hshared.fields s.desc (hon.desc ▸ List.mem_map_of_mem hs)
      have hsame' : SameField t.desc f := htdesc.symm ▸ hsame
      rw [slotAgrees_iff hf hsame', htreading, ← valArrives_eq_iff]
      change js.reading cs f = some (valReading s.desc.type (s.desc.type.onWire s.val)) ↔ _
      rw [(harrived.present s hs (p.full.fields s hs) f hf hsame).1, Option.some_inj]
    have hsent : ∀ t ∈ obj.info, ∃ s ∈ p.obj.info, t.canon = s.onWire.canon := by
      intro t ht
      have hmem := List.mem_map_of_mem (f := Slot.canon) ht
      rw [hcanon, List.map_map] at hmem
      obtain ⟨s, hs, heq⟩ := List.mem_map.mp hmem
      exact ⟨s, hs, heq.symm⟩
    have hkept : Agree cs p.obj.handle (r.add cs p.payload) ↔
        EachValue (ItemKept cs) p.obj.info := by
      rw [agree_iff hobj hjava]
      constructor
      · intro hagree s hs _
        have hmem := List.mem_map_of_mem (f := Slot.canon)
          (List.mem_map_of_mem (f := Slot.onWire) hs)
        rw [← hcanon] at hmem
        obtain ⟨t, ht, heq⟩ := List.mem_map.mp hmem
        exact (hslot t ht s hs heq).mp (hagree t ht)
      · intro hkept t ht
        obtain ⟨s, hs, heq⟩ := hsent t ht
        exact (hslot t ht s hs heq).mpr (hkept s hs (p.full.fields s hs))
    refine ⟨fun hagree => ⟨hshort, hkept.mp hagree⟩, fun hstrings =>
      ⟨obj, _, hapi, hobj, hdesc, hinfo, hjava, rfl, rfl,
      harrived.on, (agree_iff hobj hjava).mp (hkept.mpr hstrings.2), fun t ht => ?_⟩⟩
    obtain ⟨s, hs, heq⟩ := hsent t ht
    rw [(reading_of_canon heq).2]
    exact short_valReading.mpr (hshort s hs (p.full.fields s hs))
  · refine ⟨fun hagree => ?_, fun hstrings => absurd hstrings.1 hshort⟩
    obtain ⟨obj', hobj', hslots⟩ := hagree
    obtain rfl : obj = obj' := Option.some_inj.mp (hobj.symm.trans hobj')
    have hnil : obj.info = [] := by
      refine List.eq_nil_iff_forall_not_mem.mpr fun t ht => ?_
      obtain ⟨jobj, hjobj, -⟩ := hslots t ht
      rw [java_add_of_long hshared p hr hshort] at hjobj
      cases hjobj
    rw [hnil, List.map_nil, eq_comm, List.map_eq_nil_iff, List.map_eq_nil_iff] at hcanon
    refine absurd (fun s hs => ?_) hshort
    rw [hcanon] at hs
    cases hs

end Adding

/-! ## The theorem -/

/-- A run of events ends somewhere. -/
lemma exists_runs (cs : Charset) {d : Obus.ObjectDesc} {jd : ObjectDesc} {handle : UInt16}
    (events : List (EventPayload d jd handle)) (r : Replicas) :
    ∃ r', runs (Replicas.step cs) events r = some r' := by
  induction events generalizing r with
  | nil => exact ⟨r, rfl⟩
  | cons p events ih =>
    obtain ⟨r', hrun⟩ := ih (r.event cs p.payload)
    exact ⟨r', runs_cons.mpr ⟨_, rfl, hrun⟩⟩

/-- The replicas of an object agree after every payload exactly if the Java library takes over what
each payload brings. -/
theorem java_replica_agrees_iff (cs : Charset) {api : Obus.BusDesc} {jdesc : BusDesc}
    {d : Obus.ObjectDesc} {jd : ObjectDesc}
    (hshared : Shared api jdesc d jd) (p : AddPayload api d jd) {r : Replicas}
    (hr : Ready api jdesc p.obj.handle r) (events : List (EventPayload d jd p.obj.handle)) :
    Always (Replicas.step cs) (Agree cs p.obj.handle) events (r.add cs p.payload) ↔
      StringsArrive cs p.obj.info ∧ MeetsAll (Replicas.step cs) (EventInStep cs) events
        (r.add cs p.payload) := by
  obtain ⟨hneeds, hfollows⟩ := @follows_add cs _ _ _ _ _ hshared p hr
  obtain ⟨r', hrun⟩ := exists_runs cs events (r.add cs p.payload)
  have hiff : StringsArrive cs p.obj.info →
      (Always (Replicas.step cs) (Agree cs p.obj.handle) events (r.add cs p.payload) ↔
      MeetsAll (Replicas.step cs) (EventInStep cs) events (r.add cs p.payload)) := by
    intro hstrings
    refine always_iff_meetsAll
      (I := fun r => ∃ obj jobj, Follows cs api d jd p.obj.handle r obj jobj) ?_ ?_ ?_
      (hfollows hstrings) hrun
    · rintro s ⟨obj, jobj, h⟩
      exact h.agree
    · rintro s e s' ⟨obj, jobj, h⟩ hstep hs'
      cases hs'
      exact h.event hshared e hstep
    · rintro s e s' ⟨obj, jobj, h⟩ hstep hs' hagree
      cases hs'
      exact hstep ((h.agree_event_iff hshared e).mp hagree)
  constructor
  · intro halways
    have hstrings := hneeds (halways [] List.nil_prefix _ rfl)
    exact ⟨hstrings, (hiff hstrings).mp halways⟩
  · rintro ⟨hstrings, hmeets⟩
    exact (hiff hstrings).mpr hmeets

/-! ## An object with a text -/

/-- A descriptor with a text, which an event updates. -/
def labelDesc : Obus.ObjectDesc := ⟨100, (textInfo none).desc, [⟨1, [1]⟩], []⟩

/-- A bus with such objects. -/
def labelApi : Obus.BusDesc := ⟨CString.ofBytes [98, 117, 115], [labelDesc], [], 77⟩

lemma javaLabel_new : ∀ f ∈ StructDesc.empty.fields, f.uid ≠ 1 :=
  fun _ hf => absurd hf List.not_mem_nil

lemma javaLabel_ne_zero : (1 : BitVec 32) ≠ 0 := by decide

/-- The structure of the text in the Java library. -/
def javaLabelStruct : StructDesc :=
  StructDesc.empty.addField 1 .string false javaLabel_new javaLabel_ne_zero

/-- The descriptor in the Java library. -/
def javaLabelDesc : ObjectDesc :=
  ⟨100, javaLabelStruct, fun uid => if uid = 1 then some ⟨1, javaLabelStruct⟩ else none,
    fun _ => none⟩

/-- The bus in the Java library. -/
def javaLabelBus : BusDesc :=
  ⟨fun uid => if uid = 100 then some javaLabelDesc else none, fun _ => none⟩

lemma label_shared : Shared labelApi javaLabelBus labelDesc javaLabelDesc where
  ok := ⟨by decide, by
    intro o ho
    obtain rfl := List.mem_singleton.mp ho
    exact ⟨by decide, by decide, by decide, fun m hm => absurd hm List.not_mem_nil⟩, by decide⟩
  desc := List.mem_singleton_self _
  object := rfl
  uid := rfl
  fields := by
    intro g hg
    obtain rfl := List.mem_singleton.mp hg
    exact ⟨⟨1, .string, false, 0⟩, List.mem_singleton_self _, rfl, rfl⟩
  events := by
    intro e he
    obtain rfl := List.mem_singleton.mp he
    exact ⟨⟨1, javaLabelStruct⟩, rfl, rfl⟩

lemma textInfo_on (text : Option CString) : (textInfo text).On labelDesc.infoDesc := by
  refine ⟨rfl, fun s hs _ => ?_⟩
  obtain rfl := List.mem_singleton.mp hs
  trivial

lemma textInfo_declared (text : Option CString) : Declared javaLabelDesc (textInfo text) := by
  intro s hs _ f _ _
  obtain rfl := List.mem_singleton.mp hs
  trivial

/-- What is written can be encoded. -/
lemma encodes_of_writes {p : Enc Unit} {bs : List UInt8} (h : Writes p bs) : Encodes p bs := by
  rcases h zeroMem ⟨[], 0, 0⟩ le_rfl with ⟨b', hrun, -, hcontent⟩ | ⟨e, b', -, n, ⟨⟩⟩
  exact ⟨zeroMem, b', hrun, hcontent⟩

/-- The object, with the text `a`. -/
def labelAdd : AddPayload labelApi labelDesc javaLabelDesc where
  obj := ⟨labelDesc, 7, true, textInfo (some (CString.ofBytes [97]))⟩
  payload := objectWire ⟨labelDesc, 7, true, textInfo (some (CString.ofBytes [97]))⟩
  desc := rfl
  full := ⟨⟨List.mem_singleton_self _, by decide, textInfo_on _⟩,
    fun s hs => by rw [List.mem_singleton.mp hs]⟩
  declared := textInfo_declared _
  encoded := encodes_of_writes (writes_objectWire ((textInfo_on _).countable label_shared.infoOk))
  small := by decide

/-- An event that sets the text. -/
def labelEvent (text : Option CString)
    (hsmall : (eventWire ⟨⟨labelDesc, 7⟩, ⟨1, [1]⟩, textInfo text⟩).length < 2 ^ 31) :
    EventPayload labelDesc javaLabelDesc 7 where
  event := ⟨⟨labelDesc, 7⟩, ⟨1, [1]⟩, textInfo text⟩
  payload := eventWire ⟨⟨labelDesc, 7⟩, ⟨1, [1]⟩, textInfo text⟩
  obj := rfl
  desc := List.mem_singleton_self _
  info := textInfo_on _
  declared := textInfo_declared _
  encoded := encodes_of_writes (writes_eventWire ((textInfo_on _).countable label_shared.infoOk))
  small := hsmall

/-- The two clients before the object is added. -/
def labelReplicas : Replicas := ⟨⟨labelApi, [], []⟩, ⟨javaLabelBus, fun _ => none⟩⟩

lemma label_ready : Ready labelApi javaLabelBus 7 labelReplicas := ⟨rfl, rfl, List.not_mem_nil, rfl⟩

/-- A text of one character arrives. -/
lemma textInfo_strings (c : UInt8) (hc : c ≠ 0) :
    StringsArrive latin1 (textInfo (some ⟨[c], fun h => hc (List.mem_singleton.mp h).symm⟩)) := by
  have hlatin1 : latin1.getBytes (latin1.newString [c]) = [c] := by
    change [if c.toUInt16 < 256 then c.toUInt16.toUInt8 else 63] = [c]
    rw [if_pos (by rw [UInt16.lt_iff_toNat_lt, UInt8.toNat_toUInt16]; exact UInt8.toNat_lt c),
      UInt8.toUInt8_toUInt16]
  refine ⟨fun s hs _ => ?_, fun s hs _ => ?_⟩
  · obtain rfl := List.mem_singleton.mp hs
    rintro s ⟨⟩
    exact (by decide : 1 < 65535)
  · obtain rfl := List.mem_singleton.mp hs
    rintro s ⟨⟩
    exact hlatin1

theorem java_replica_agrees_label : Always (Replicas.step latin1) (Agree latin1 7)
    [labelEvent (some (CString.ofBytes [98])) (by decide)]
      (labelReplicas.add latin1 labelAdd.payload) := by
  refine (java_replica_agrees_iff latin1 label_shared labelAdd label_ready _).mpr
    ⟨textInfo_strings 97 (by decide), ?_⟩
  refine ⟨⟨textInfo_strings 98 (by decide), fun obj _ s hs _ habsent => ?_⟩, fun _ _ => trivial⟩
  obtain rfl := List.mem_singleton.mp hs
  cases habsent

/-- An event with an absent text leaves the old text in the Java library. -/
theorem java_replica_keeps_old_text :
    ¬∀ (cs : Charset) (api : Obus.BusDesc) (jdesc : BusDesc) (d : Obus.ObjectDesc)
    (jd : ObjectDesc), Shared api jdesc d jd → ∀ (p : AddPayload api d jd) (r : Replicas),
    Ready api jdesc p.obj.handle r →
      ∀ events : List (EventPayload d jd p.obj.handle),
        Always (Replicas.step cs) (Agree cs p.obj.handle) events (r.add cs p.payload) := by
  intro hall
  obtain ⟨-, hfollows⟩ := @follows_add latin1 _ _ _ _ _ label_shared labelAdd label_ready
  obtain ⟨obj, jobj, h⟩ := hfollows (textInfo_strings 97 (by decide))
  obtain ⟨-, obj', hobj', -, -, hcanon⟩ := @c_add latin1 _ _ _ _ _ label_shared labelAdd label_ready
  obtain rfl : obj = obj' := Option.some_inj.mp (h.c.symm.trans hobj')
  have halways := hall latin1 labelApi javaLabelBus labelDesc javaLabelDesc label_shared labelAdd
    labelReplicas label_ready
    [labelEvent none (by decide)]
  have hagree := halways _ (List.prefix_refl _) _ rfl
  obtain ⟨-, hstale⟩ := (h.agree_event_iff label_shared _).mp hagree
  obtain ⟨g, hg⟩ : ∃ g, obj.info = [g] := List.length_eq_one_iff.mp (length_eq_of_desc h.info)
  have hdesc : g.desc = ⟨1, .property, .value .string, none⟩ := by
    have hinfo := h.info
    rw [hg] at hinfo
    exact (List.cons.inj hinfo).1
  have hempty := hstale obj h.c _ (List.mem_singleton_self _) rfl rfl g
    (hg ▸ List.mem_singleton_self g) hdesc
  rw [hg] at hcanon
  have hreading := (reading_of_canon (List.cons.inj hcanon).1).2
  rw [hempty] at hreading
  exact absurd hreading (by decide)

end Obus.Java
