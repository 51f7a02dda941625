import Obus.Framing

/-!
# The round trip of packets

A packet built on the descriptor of a bus (`PacketInfo.BuiltOn`) arrives on that bus with the same
content (`PacketInfo.arrive_view`).  The content of a packet (`PacketInfo.view`) is what a receiver
can see of it: descriptors, handles, status words, which fields are present and what they hold, with
booleans normalised.

The wire format gives every size 32 bits, so the round trip needs a packet that is shorter than that
with all its strings written out.  A longer string is written without its characters.
-/

namespace Obus

open Prog

/-! ## The content of a packet -/

/-- The present fields of a struct, booleans normalised. -/
def Struct.view (st : Struct) : Struct := (st.filter Slot.has).map Slot.sent

/-- The content of an object; whether it is registered is not part of it. -/
def Object.view (o : Object) : Object := { o with isRegistered := false, info := o.info.view }

/-- The content of an event. -/
def Event.view (e : Event) : Event := { e with info := e.info.view }

/-- The content of a call. -/
def Call.view (c : Call) : Call := { c with args := c.args.map Struct.view }

/-- The content of a bus event. -/
def BusEvent.view (e : BusEvent) : BusEvent :=
  { e with addObjs := e.addObjs.map Object.view, objEvents := e.objEvents.map Event.view }

/-- The content of a packet. -/
def PacketInfo.view : PacketInfo → PacketInfo
  | .conreq req => .conreq req
  | .conresp status objects => .conresp status (objects.map Object.view)
  | .add obj => .add obj.view
  | .remove obj => .remove obj
  | .busEvent e => .busEvent e.view
  | .event e => .event e.view
  | .call c => .call c.view
  | .ack a => .ack a

@[simp] lemma PacketInfo.view_type (info : PacketInfo) : info.view.type = info.type := by
  cases info <;> rfl

/-! ## Packets on a descriptor -/

/-- A struct in memory on a descriptor: arrays have as many items as they say. -/
structure Struct.On (d : StructDesc) (st : Struct) : Prop where
  desc : st.desc = d
  arrays : ∀ s ∈ st, s.has = true → s.desc.type.Ok s.val

/-- An object on a bus descriptor that is ready to be added. -/
structure Object.BuiltOn (api : BusDesc) (o : Object) : Prop where
  desc : o.desc ∈ api.objects
  handle : o.handle ≠ 0
  info : o.info.On o.desc.infoDesc

/-- The bus knows the object under its handle. -/
structure ObjectRef.KnownTo (bus : Bus) (o : ObjectRef) : Prop where
  desc : o.desc ∈ bus.api.objects
  known : (bus.object? o.handle).map Object.ref = some o

/-- An event of an object that the bus knows. -/
structure Event.BuiltOn (bus : Bus) (e : Event) : Prop where
  obj : e.obj.KnownTo bus
  desc : e.desc ∈ e.obj.desc.events
  info : e.info.On e.obj.desc.infoDesc

/-- A call of a method of an object that the bus knows, with arguments if the method has some. -/
structure Call.BuiltOn (bus : Bus) (c : Call) : Prop where
  obj : c.obj.KnownTo bus
  desc : c.desc ∈ c.obj.desc.methods
  args : c.args.map Struct.desc = c.desc.argsDesc
  arrays : ∀ st ∈ c.args, ∀ s ∈ st, s.has = true → s.desc.type.Ok s.val

/-- A bus event whose parts are on the bus. -/
structure BusEvent.BuiltOn (bus : Bus) (e : BusEvent) : Prop where
  desc : e.desc ∈ bus.api.events
  addObjs : ∀ o ∈ e.addObjs, o.BuiltOn bus.api
  removeObjs : ∀ o ∈ e.removeObjs, o.KnownTo bus
  objEvents : ∀ v ∈ e.objEvents, v.BuiltOn bus

/-- A packet whose content is built from the descriptor of the bus and names objects that it knows.
-/
def PacketInfo.BuiltOn (bus : Bus) : PacketInfo → Prop
  | .conreq req => req.version = protocolVersion
  | .conresp _ objects => ∀ o ∈ objects, o.BuiltOn bus.api
  | .add obj => obj.BuiltOn bus.api
  | .remove obj => ∃ o, obj = some o ∧ o.KnownTo bus
  | .busEvent e => e.BuiltOn bus
  | .event e => e.BuiltOn bus
  | .call c => c.BuiltOn bus
  | .ack _ => True

/-- A struct in memory on a usable descriptor, whatever descriptor that is. -/
def Struct.Valid (st : Struct) : Prop := st.desc.Ok ∧ ∀ s ∈ st, s.has = true → s.desc.type.Ok s.val

/-- A packet that an encoder may be given: its structs are valid, and there is something to remove.
-/
def PacketInfo.Valid : PacketInfo → Prop
  | .conreq req => req.version = protocolVersion
  | .conresp _ objects => ∀ o ∈ objects, o.info.Valid
  | .add obj => obj.info.Valid
  | .remove obj => obj.isSome = true
  | .busEvent e => (∀ o ∈ e.addObjs, o.info.Valid) ∧ ∀ v ∈ e.objEvents, v.info.Valid
  | .event e => e.info.Valid
  | .call c => ∀ st ∈ c.args, Struct.Valid st
  | .ack _ => True

lemma Struct.On.valid {d : StructDesc} {st : Struct} (h : st.On d) (hd : d.Ok) : st.Valid :=
  ⟨h.desc ▸ hd, h.arrays⟩

lemma Object.BuiltOn.valid {api : BusDesc} (hapi : api.Ok) {o : Object} (h : o.BuiltOn api) :
    o.info.Valid :=
  h.info.valid (hapi.objects _ h.desc).info

lemma Event.BuiltOn.valid {bus : Bus} (hapi : bus.api.Ok) {e : Event} (h : e.BuiltOn bus) :
    e.info.Valid :=
  h.info.valid (hapi.objects _ h.obj.desc).info

/-- A packet built on the descriptor of a bus is valid. -/
lemma PacketInfo.BuiltOn.valid {bus : Bus} (hapi : bus.api.Ok) {info : PacketInfo}
    (h : info.BuiltOn bus) : info.Valid := by
  cases info with
  | conreq req => exact h
  | conresp status objects => exact fun o ho => (h o ho).valid hapi
  | add obj => exact Object.BuiltOn.valid hapi h
  | remove obj =>
    obtain ⟨o, rfl, -⟩ := h
    rfl
  | busEvent e =>
    exact ⟨fun o ho => (BusEvent.BuiltOn.addObjs h o ho).valid hapi,
      fun v hv => (BusEvent.BuiltOn.objEvents h v hv).valid hapi⟩
  | event e => exact Event.BuiltOn.valid hapi h
  | call c =>
    intro st hst
    have hargs : c.desc.argsDesc = some st.desc := by
      rw [← Call.BuiltOn.args h, Option.mem_def.mp hst]
      rfl
    exact ⟨(hapi.objects _ (Call.BuiltOn.obj h).desc).args _ (Call.BuiltOn.desc h) _ hargs,
      Call.BuiltOn.arrays h st hst⟩
  | ack a => trivial

/-! ## Sizes -/

lemma Struct.Valid.ok {st : Struct} (h : st.Valid)
    (hlt : (structBytes st).length < 2 ^ 32) : st.Ok :=
  Struct.ok_of_length_lt h.1 h.2 hlt

/-- Elements of at least one byte each are at most as many as their bytes. -/
lemma length_le_length_flatMap {α : Type} {f : α → List UInt8} {l : List α}
    (h : ∀ a ∈ l, 0 < (f a).length) : l.length ≤ (l.flatMap f).length := by
  induction l with
  | nil => exact Nat.zero_le _
  | cons a l ih =>
    have ha := h a List.mem_cons_self
    have hl := ih fun b hb => h b (List.mem_cons_of_mem a hb)
    rw [List.flatMap_cons, List.length_append, List.length_cons]
    omega

lemma length_objectAddBytes (o : Object) :
    (objectAddBytes o).length = 8 + (structBytes o.info).length := by
  simp only [objectAddBytes, sizedBytes, List.length_append, bigEndian_length]
  omega

lemma length_eventBytes (e : Event) : (eventBytes e).length = 10 + (structBytes e.info).length := by
  simp only [eventBytes, sizedBytes, List.length_append, bigEndian_length]
  omega

/-- Added objects whose bytes fit can be carried, and so can their number. -/
lemma ok_of_length_objects {objects : List Object} (h : ∀ o ∈ objects, o.info.Valid)
    (hlt : (objects.flatMap objectAddBytes).length < 2 ^ 32) :
    objects.length < 2 ^ 32 ∧ ∀ o ∈ objects, o.info.Ok := by
  constructor
  · refine lt_of_le_of_lt (length_le_length_flatMap fun o _ => ?_) hlt
    rw [length_objectAddBytes]
    omega
  · intro o ho
    have hle := length_le_flatMap objectAddBytes ho
    rw [length_objectAddBytes] at hle
    exact (h o ho).ok (by omega)

/-- Events whose bytes fit can be carried, and so can their number. -/
lemma ok_of_length_events {events : List Event} (h : ∀ e ∈ events, e.info.Valid)
    (hlt : (events.flatMap eventBytes).length < 2 ^ 32) :
    events.length < 2 ^ 32 ∧ ∀ e ∈ events, e.info.Ok := by
  constructor
  · refine lt_of_le_of_lt (length_le_length_flatMap fun e _ => ?_) hlt
    rw [length_eventBytes]
    omega
  · intro e he
    have hle := length_le_flatMap eventBytes he
    rw [length_eventBytes] at hle
    exact (h e he).ok (by omega)

/-- A valid packet whose bytes fit in 32 bits can be carried. -/
lemma PacketInfo.Valid.ok {info : PacketInfo} (h : info.Valid) (hlt : info.bytes.length < 2 ^ 32) :
    info.Ok := by
  rw [PacketInfo.bytes_length] at hlt
  have hbody : info.bodyBytes.length < 2 ^ 32 := by omega
  cases info with
  | conreq req =>
    simp only [PacketInfo.bodyBytes, wholeStringBytes, sizedBytes, List.length_append,
      bigEndian_length] at hbody
    exact ⟨h, by omega, by omega⟩
  | conresp status objects =>
    simp only [PacketInfo.bodyBytes, List.length_append, bigEndian_length] at hbody
    exact ok_of_length_objects h (by omega)
  | add obj =>
    simp only [PacketInfo.bodyBytes, length_objectAddBytes] at hbody
    exact Struct.Valid.ok h (by omega)
  | remove obj => exact h
  | busEvent e =>
    simp only [PacketInfo.bodyBytes, busEventBytes, List.length_append, bigEndian_length] at hbody
    obtain ⟨hadd, haddOk⟩ := ok_of_length_objects h.1 (by omega)
    obtain ⟨hevents, heventsOk⟩ := ok_of_length_events h.2 (by omega)
    have hremove : e.removeObjs.length ≤ (e.removeObjs.flatMap objectRemoveBytes).length :=
      length_le_length_flatMap fun o _ => by simp [objectRemoveBytes]
    exact ⟨⟨hadd, by omega, hevents⟩, haddOk, heventsOk⟩
  | event e =>
    simp only [PacketInfo.bodyBytes, length_eventBytes] at hbody
    exact Struct.Valid.ok h (by omega)
  | call c =>
    intro st hst
    simp only [PacketInfo.bodyBytes, callBytes, sizedBytes, argsBytes, Option.mem_def.mp hst,
      List.length_append, bigEndian_length] at hbody
    exact (h st hst).ok (by omega)
  | ack a => trivial

/-! ## What arrives is what was sent -/

lemma BaseType.norm_norm (t : BaseType) (v : t.Cell) : t.norm (t.norm v) = t.norm v := by
  cases t with
  | bool =>
    change UInt8 at v
    by_cases hv : v = 0 <;> simp [BaseType.norm, hv]
  | _ => rfl

lemma FieldType.norm_norm (t : FieldType) (v : t.Val) : t.norm (t.norm v) = t.norm v := by
  cases t with
  | value t => exact t.norm_norm v
  | array t => simp [FieldType.norm, Function.comp_def, BaseType.norm_norm]

lemma Slot.sent_sent (s : Slot) : s.sent.sent = s.sent := by
  simp [Slot.sent, FieldType.norm_norm]

@[simp] lemma structInit_desc (d : StructDesc) : Struct.desc (structInit d) = d := by
  simp [Struct.desc, structInit, Function.comp_def]

@[simp] lemma structZero_desc (d : StructDesc) : Struct.desc (structZero d) = d := by
  simp [Struct.desc, structZero, Function.comp_def]

@[simp] lemma structSetHasFields_desc (st : Struct) :
    Struct.desc (structSetHasFields st) = st.desc := by
  simp [Struct.desc, structSetHasFields, Function.comp_def]

/-- A received struct has the content of the sent one, whatever memory the receiver started with. -/
lemma view_structSent {st₀ st : Struct} (hlen : st₀.length = st.length) :
    Struct.view (structSent st₀ st) = st.view := by
  induction st generalizing st₀ with
  | nil =>
    rw [List.length_nil] at hlen
    rw [List.length_eq_zero_iff.mp hlen]
    rfl
  | cons s st ih =>
    obtain ⟨r, st₀, rfl⟩ : ∃ r st', st₀ = r :: st' := List.exists_cons_of_length_eq_add_one hlen
    have hrest := ih (Nat.succ.inj hlen)
    simp only [Struct.view, structSent] at hrest
    cases hhas : s.has with
    | false => simpa [Struct.view, structSent, hhas] using hrest
    | true =>
      have hsent : s.sent.has = true := rfl
      simpa [Struct.view, structSent, hhas, hsent, Slot.sent_sent] using hrest

/-- A struct that arrives on its own descriptor has the content of the sent one. -/
lemma view_structArrive {d : StructDesc} (hd : d.Ok) (st₀ : Struct) {st : Struct}
    (hst : st.desc = d) (h₀ : st₀.desc = d) : Struct.view (structArrive st₀ st) = st.view := by
  have hdesc : st₀.desc = st.desc := h₀.trans hst.symm
  have hlen := congrArg List.length hdesc
  simp only [Struct.desc, List.length_map] at hlen
  rw [structArrive, structReceive_filter hdesc (hst ▸ hd.1), view_structSent hlen]

/-- The checks on an added object find its descriptor. -/
lemma Object.BuiltOn.objectAddCheck {api : BusDesc} (hapi : api.Ok) {o : Object}
    (h : o.BuiltOn api) : objectAddCheck api o.desc.uid o.handle = some o.desc := by
  have huid : o.desc.uid ≠ 0 := fun h0 => hapi.uids.2 (h0 ▸ List.mem_map_of_mem h.desc)
  rw [Obus.objectAddCheck, if_neg (by simp [huid, h.handle]), hapi.object? h.desc]

lemma Object.arrive_view {api : BusDesc} (hapi : api.Ok) {o : Object} (h : o.BuiltOn api) :
    ∃ o', o.arrive api = some o' ∧ o'.view = o.view := by
  have hinfo := view_structArrive (hapi.objects _ h.desc).info
    (structSetHasFields (structInit o.desc.infoDesc)) h.info.desc (by simp)
  refine ⟨_, by rw [Object.arrive, h.objectAddCheck hapi]; rfl, ?_⟩
  simp only [Object.view, hinfo]

lemma ObjectRef.KnownTo.object? {bus : Bus} {o : ObjectRef} (h : o.KnownTo bus) :
    ∃ obj, bus.object? o.handle = some obj ∧ obj.ref = o :=
  Option.map_eq_some_iff.mp h.known

lemma ObjectRef.KnownTo.handle_ne_zero {bus : Bus} {o : ObjectRef} (h : o.KnownTo bus) :
    o.handle ≠ 0 := by
  intro h0
  have hknown := h.known
  rw [Bus.object?, if_pos h0] at hknown
  cases hknown

/-- The checks on an event find its object and its descriptor. -/
lemma Event.BuiltOn.eventCheck {bus : Bus} (hapi : bus.api.Ok) {e : Event} (h : e.BuiltOn bus) :
    eventCheck bus e.obj.desc.uid e.obj.handle e.desc.uid = some (e.obj, e.desc) := by
  have huid : e.obj.desc.uid ≠ 0 := fun h0 => hapi.uids.2 (h0 ▸ List.mem_map_of_mem h.obj.desc)
  have hevt : e.desc.uid ≠ 0 := fun h0 =>
    (hapi.objects _ h.obj.desc).events.2 (h0 ▸ List.mem_map_of_mem h.desc)
  obtain ⟨obj, hfound, href⟩ := h.obj.object?
  have hdesc : obj.desc = e.obj.desc := congrArg ObjectRef.desc href
  rw [Obus.eventCheck, if_neg (by simp [huid, hevt, h.obj.handle_ne_zero])]
  simp [hfound, hdesc, href, hapi.event? h.obj.desc h.desc]

lemma Event.arrive_view {bus : Bus} (hapi : bus.api.Ok) {e : Event} (h : e.BuiltOn bus) :
    ∃ e', e.arrive bus = some e' ∧ e'.view = e.view := by
  have hinfo := view_structArrive (hapi.objects _ h.obj.desc).info (structInit e.obj.desc.infoDesc)
    h.info.desc (by simp)
  refine ⟨_, by rw [Event.arrive, h.eventCheck hapi]; rfl, ?_⟩
  simp only [Event.view, hinfo]

/-- The checks on a call find its object and its method. -/
lemma Call.BuiltOn.callCheck {bus : Bus} (hapi : bus.api.Ok) {c : Call} (h : c.BuiltOn bus) :
    callCheck bus c.obj.desc.uid c.obj.handle c.desc.uid = some (c.obj, c.desc) := by
  obtain ⟨obj, hfound, href⟩ := h.obj.object?
  have hdesc : obj.desc = c.obj.desc := congrArg ObjectRef.desc href
  simp [Obus.callCheck, hfound, hdesc, href, hapi.method? h.obj.desc h.desc]

lemma Call.arrive_view {bus : Bus} (hapi : bus.api.Ok) {c : Call} (h : c.BuiltOn bus) :
    ∃ c', c.arrive bus = some c' ∧ c'.view = c.view := by
  refine ⟨_, by rw [Call.arrive, h.callCheck hapi]; rfl, ?_⟩
  have hdesc := h.args
  cases hargs : c.args with
  | none =>
    rw [hargs] at hdesc
    simp only [Option.map_none] at hdesc
    simp [Call.view, hargs, ← hdesc]
  | some st =>
    rw [hargs] at hdesc
    simp only [Option.map_some] at hdesc
    have hd := (hapi.objects _ h.obj.desc).args _ h.desc _ hdesc.symm
    have hinfo := view_structArrive hd (structZero st.desc) rfl (by simp)
    simp [Call.view, hargs, ← hdesc, hinfo]

/-- A list whose elements all arrive with their content arrives as a whole. -/
lemma map_filterMap_view {α : Type} {g : α → Option α} {v : α → α} {l : List α}
    (h : ∀ a ∈ l, ∃ a', g a = some a' ∧ v a' = v a) : (l.filterMap g).map v = l.map v := by
  induction l with
  | nil => rfl
  | cons a l ih =>
    obtain ⟨a', hg, hv⟩ := h a List.mem_cons_self
    rw [List.filterMap_cons_some hg, List.map_cons, List.map_cons, hv,
      ih fun b hb => h b (List.mem_cons_of_mem a hb)]

/-- References to known objects all arrive. -/
lemma filterMap_arrive_ref {bus : Bus} {l : List ObjectRef} (h : ∀ o ∈ l, o.KnownTo bus) :
    l.filterMap (ObjectRef.arrive bus) = l := by
  have hview := map_filterMap_view (g := ObjectRef.arrive bus) (v := id) (l := l)
    fun o ho => ⟨o, (h o ho).known, rfl⟩
  simpa using hview

lemma BusEvent.arrive_view {bus : Bus} (hapi : bus.api.Ok) {e : BusEvent} (h : e.BuiltOn bus) :
    ∃ e', e.arrive bus = some e' ∧ e'.view = e.view := by
  have hadd := map_filterMap_view fun o ho => Object.arrive_view hapi (h.addObjs o ho)
  have hevents := map_filterMap_view fun v hv => Event.arrive_view hapi (h.objEvents v hv)
  refine ⟨_, by rw [BusEvent.arrive, hapi.busEvent? h.desc]; rfl, ?_⟩
  simp only [BusEvent.view, hadd, hevents, filterMap_arrive_ref h.removeObjs]

/-- A packet built on the descriptor of a bus arrives there with its content. -/
lemma PacketInfo.arrive_view {bus : Bus} (hapi : bus.api.Ok) {info : PacketInfo}
    (h : info.BuiltOn bus) : ∃ info', info.arrive bus = .ok info' ∧ info'.view = info.view := by
  cases info with
  | conreq req => exact ⟨_, rfl, rfl⟩
  | conresp status objects =>
    have hobjects := map_filterMap_view fun o ho => Object.arrive_view hapi (h o ho)
    exact ⟨_, rfl, by simp only [PacketInfo.view, hobjects]⟩
  | add obj =>
    obtain ⟨obj', harrive, hview⟩ := Object.arrive_view hapi h
    exact ⟨.add
      obj', by rw [PacketInfo.arrive, harrive]; rfl, by simp only [PacketInfo.view, hview]⟩
  | remove obj =>
    obtain ⟨o, rfl, ho⟩ := h
    exact ⟨_, rfl, congrArg PacketInfo.remove ho.known⟩
  | busEvent e =>
    obtain ⟨e', harrive, hview⟩ := BusEvent.arrive_view hapi h
    exact ⟨.busEvent e', by rw [PacketInfo.arrive, harrive]; rfl,
      by simp only [PacketInfo.view, hview]⟩
  | event e =>
    obtain ⟨e', harrive, hview⟩ := Event.arrive_view hapi h
    exact ⟨.event
      e', by rw [PacketInfo.arrive, harrive]; rfl, by simp only [PacketInfo.view, hview]⟩
  | call c =>
    obtain ⟨c', harrive, hview⟩ := Call.arrive_view hapi h
    exact ⟨.call c', by rw [PacketInfo.arrive, harrive]; rfl, by simp only [PacketInfo.view, hview]⟩
  | ack a => exact ⟨_, rfl, rfl⟩

/-- The bus expects arguments exactly where a call built on it has some. -/
lemma PacketInfo.BuiltOn.compatible {bus : Bus} (hapi : bus.api.Ok) {info : PacketInfo}
    (h : info.BuiltOn bus) : info.Compatible bus := by
  cases info with
  | call c =>
    intro obj desc hcheck hsome
    rw [Call.BuiltOn.callCheck hapi h] at hcheck
    obtain ⟨-, rfl⟩ : c.obj = obj ∧ c.desc = desc := by simpa using hcheck
    rw [← Call.BuiltOn.args h, Option.isSome_map] at hsome
    exact hsome
  | _ => trivial

/-! ## The round trip -/

/-- The data that stands behind a size field of its own. -/
def PacketInfo.payloads : PacketInfo → List (List UInt8)
  | .conresp _ objects => objects.map fun o => structBytes o.info
  | .add obj => [structBytes obj.info]
  | .busEvent e =>
    (e.addObjs.map fun o => structBytes o.info) ++ e.objEvents.map fun v => structBytes v.info
  | .event e => [structBytes e.info]
  | .call c => [argsBytes c.args]
  | _ => []

private lemma infix_objectAddBytes (o : Object) :
    sizedBytes (structBytes o.info) <:+: objectAddBytes o :=
  ⟨bigEndian 2 o.desc.uid.toNat ++ bigEndian 2 o.handle.toNat, [], by simp [objectAddBytes]⟩

private lemma infix_eventBytes (e : Event) : sizedBytes (structBytes e.info) <:+: eventBytes e :=
  ⟨bigEndian 2 e.obj.desc.uid.toNat ++
    (bigEndian 2 e.obj.handle.toNat ++ bigEndian 2 e.desc.uid.toNat),
    [], by simp [eventBytes]⟩

private lemma infix_flatMap {α : Type} {f : α → List UInt8} {l : List α} {a : α} (ha : a ∈ l)
    {bs : List UInt8} (h : bs <:+: f a) : bs <:+: l.flatMap f := by
  obtain ⟨l₁, l₂, rfl⟩ := List.append_of_mem ha
  refine h.trans ⟨l₁.flatMap f, l₂.flatMap f, ?_⟩
  simp

/-- Every payload of a packet stands in its bytes right behind the number of its bytes. -/
lemma PacketInfo.infix_payload {info : PacketInfo} {bs : List UInt8} (h : bs ∈ info.payloads) :
    sizedBytes bs <:+: info.bytes := by
  suffices hbody : sizedBytes bs <:+: info.bodyBytes from
    hbody.trans (List.suffix_append _ _).isInfix
  cases info with
  | conresp status objects =>
    obtain ⟨o, ho, rfl⟩ := List.mem_map.mp h
    refine (infix_flatMap ho (infix_objectAddBytes o)).trans ?_
    exact ((List.suffix_append _ _).trans (List.suffix_append _ _)).isInfix
  | add obj =>
    rw [List.mem_singleton.mp h]
    exact infix_objectAddBytes obj
  | busEvent e =>
    simp only [PacketInfo.bodyBytes, busEventBytes]
    rcases List.mem_append.mp h with h | h
    · obtain ⟨o, ho, rfl⟩ := List.mem_map.mp h
      refine (infix_flatMap ho (infix_objectAddBytes o)).trans ?_
      refine (List.prefix_append _ (e.removeObjs.flatMap objectRemoveBytes ++
        e.objEvents.flatMap eventBytes)).isInfix.trans ?_
      exact ((List.suffix_append _ _).trans
        ((List.suffix_append _ _).trans ((List.suffix_append _ _).trans
        (List.suffix_append _ _)))).isInfix
    · obtain ⟨v, hv, rfl⟩ := List.mem_map.mp h
      refine (infix_flatMap hv (infix_eventBytes v)).trans ?_
      exact ((List.suffix_append _ _).trans
        ((List.suffix_append _ _).trans ((List.suffix_append _ _).trans
        ((List.suffix_append _ _).trans ((List.suffix_append _ _).trans
          (List.suffix_append _ _)))))).isInfix
  | event e =>
    rw [List.mem_singleton.mp h]
    exact infix_eventBytes e
  | call c =>
    rw [List.mem_singleton.mp h]
    exact ⟨bigEndian 2 c.obj.desc.uid.toNat ++ (bigEndian 2 c.obj.handle.toNat ++
      (bigEndian 2 c.desc.uid.toNat ++ bigEndian 2 c.handle.toNat)), [],
        by simp [PacketInfo.bodyBytes, callBytes]⟩
  | conreq _ | remove _ | ack _ => cases h

/-- What a successful encoding of a packet that can be carried leaves in the buffer. -/
lemma PacketInfo.Ok.content_of_encode {info : PacketInfo} (h : info.Ok) {mem : Realloc}
    {b b' : Buffer}
    (henc : info.encode.on mem b = (.ok (), b')) : b'.Ok ∧ b'.content = info.bytes := by
  rcases info.encode_cases mem h b with ⟨c, hrun, hok, hcont⟩ | ⟨e, c, hrun, -⟩
  · rw [henc] at hrun
    cases hrun
    exact ⟨hok, hcont⟩
  · rw [henc] at hrun
    cases hrun

/-- What an encoder leaves in a buffer has the length of the buffer in its header and the size of
every struct in front of it, and `obus_packet_decoder_read` gives it back with the same content and
removes exactly its bytes, whatever follows. -/
theorem packet_round_trip {bus : Bus} (hapi : bus.api.Ok) (info : PacketInfo)
    (hbuilt : info.BuiltOn bus) (hlen : info.bytes.length < 2 ^ 32) (mem : Realloc) (b b' : Buffer)
    (henc : info.encode.on mem b = (.ok (), b')) :
    (∃ size, headerOf b'.content = some (size, info.type) ∧ size.toNat = b'.length) ∧
      (∀ bs ∈ info.payloads, bs.length < 2 ^ 32 ∧ sizedBytes bs <:+: b'.content) ∧
      ∀ (mem' : Realloc) (fuel : ℕ) (d : Decoder) (io : List ReadEvent) (rest : List UInt8),
        d.buf.Ok → d.hdrValid = false → d.buf.pos = 0 → d.buf.content = b'.content ++ rest →
        ∃ info' d', packetDecoderRead mem' bus (fuel + 1) d io = some (.ok info', d', io) ∧
          info'.type = info.type ∧ info'.view = info.view ∧ d'.hdrValid = false ∧ d'.buf.pos = 0 ∧
          d'.buf.content = rest := by
  have hok : info.Ok := (hbuilt.valid hapi).ok hlen
  obtain ⟨hbok, hcont⟩ := hok.content_of_encode henc
  have hhead := headerOf_bytes info
  refine ⟨⟨UInt32.ofNat info.bytes.length, ?_, ?_⟩, fun bs hbs => ?_, ?_⟩
  · rw [hcont]
    simpa using hhead []
  · rw [UInt32.toNat_ofNat', Nat.mod_eq_of_lt hlen, ← hcont, Buffer.content_length hbok]
  · have hinfix := info.infix_payload hbs
    have hle := hinfix.length_le
    rw [sizedBytes, List.length_append] at hle
    exact ⟨by omega, hcont ▸ hinfix⟩
  · intro mem' fuel d io rest hdok hvalid hpos hstart
    rw [hcont] at hstart
    obtain ⟨hdecode, hlocal⟩ := Frame.ofPacket_decode bus hok (hbuilt.compatible hapi)
    obtain ⟨info', harrive, hview⟩ := PacketInfo.arrive_view hapi hbuilt
    rw [harrive] at hdecode
    obtain ⟨d', hread, -, hvalid', hpos', hcont'⟩ :=
      packetDecoderRead_front mem' hlocal hdok hvalid hpos
      hstart (hhead rest) hlen hdecode fuel io
    refine ⟨info', d', hread, ?_, hview, hvalid', hpos', hcont'⟩
    rw [← info'.view_type, hview, info.view_type]

/-- A descriptor with one object, which has a boolean, an event for it and a method without
arguments. -/
def sampleApi : BusDesc where
  name := CString.ofBytes [98, 117, 115]
  objects := [⟨100, [⟨1, .property, .value .bool, none⟩], [⟨1, [1]⟩], [⟨2, none⟩]⟩]
  events := [⟨1⟩, ⟨2⟩, ⟨3⟩]
  crc := 77

/-- The object descriptor of the sample. -/
def sampleDesc : ObjectDesc := ⟨100, [⟨1, .property, .value .bool, none⟩], [⟨1, [1]⟩], [⟨2, none⟩]⟩

/-- An object of the sample. -/
def sampleObject : Object :=
  ⟨sampleDesc, 7, true, [⟨⟨1, .property, .value .bool, none⟩, true, (0 : UInt8)⟩]⟩

/-- A bus on the sample descriptor that holds the object. -/
def sampleBus : Bus := ⟨sampleApi, [sampleObject], [7]⟩

/-- An event that sets the boolean, to a value that is not normalised. -/
def sampleEvent : Event :=
  ⟨⟨sampleDesc, 7⟩, ⟨1, [1]⟩, [⟨⟨1, .property, .value .bool, none⟩, true, (5 : UInt8)⟩]⟩

/-- A heap in which every allocation succeeds and gives zeroed memory. -/
def zeroMem : Realloc := fun _ => some fun _ => 0

lemma sampleApi_ok : sampleApi.Ok := by
  refine ⟨by decide, fun o ho => ?_, by decide⟩
  rw [List.mem_singleton.mp ho]
  exact ⟨by decide, by decide, by decide, by decide⟩

lemma sampleEvent_builtOn : sampleEvent.BuiltOn sampleBus := by
  refine ⟨⟨by decide, by decide⟩, by decide, rfl, fun s hs _ => ?_⟩
  rw [List.mem_singleton.mp hs]
  trivial

theorem packet_round_trip_sampleEvent :
    ∃ info' d', packetDecoderRead zeroMem sampleBus 1
        ⟨⟨0, 0, 0⟩, false, ((PacketInfo.event sampleEvent).encode.on zeroMem ⟨[], 0, 0⟩).2⟩ [] =
          some (.ok info', d', []) ∧
      info'.view = (PacketInfo.event sampleEvent).view ∧ d'.buf.content = [] := by
  have h := packet_round_trip sampleApi_ok (.event sampleEvent) sampleEvent_builtOn
    (by decide) zeroMem
    ⟨[], 0, 0⟩ ((PacketInfo.event sampleEvent).encode.on zeroMem ⟨[], 0, 0⟩).2 (by decide)
  obtain ⟨info', d', hread, -, hview, -, -, hcont⟩ := h.2.2 zeroMem 0 ⟨⟨0, 0, 0⟩, false, _⟩ [] []
    (by decide) rfl (by decide) (List.append_nil _).symm
  exact ⟨info', d', hread, hview, hcont⟩

/-! A string whose size does not fit loses all its characters. -/

/-- The bytes of a string that needs exactly `2 ^ 32` of them are those of an absent string. -/
lemma stringBytes_of_length {s : CString} (h : s.val.length + 1 = 2 ^ 32) :
    stringBytes (some s) = wholeStringBytes none := by
  have hlen : (CString.memory (some s)).length = 2 ^ 32 := by
    rw [CString.memory, List.length_append]
    exact h
  rw [stringBytes, hlen, Nat.mod_self, List.take_zero, ← bigEndian_ofNat32]
  rfl

/-- A struct with a text. -/
def textInfo (text : Option CString) : Struct :=
  [⟨⟨1, .property, .value .string, none⟩, true, text⟩]

/-- A text that needs exactly `2 ^ 32` bytes is encoded as an absent text. -/
lemma writes_textInfo {text : CString} (h : text.val.length + 1 = 2 ^ 32) :
    Writes (structEncode (textInfo (some text))) (structBytes (textInfo none)) := by
  have hstring := writes_string (some text)
  rw [stringBytes_of_length h] at hstring
  refine (writes_u16 1).bind (Writes.bind ?_ .pure)
  exact (writes_u16 _).bind ((writes_u8 _).bind hstring)

/-- A name of `n` characters. -/
def nameOf (n : ℕ) : CString :=
  ⟨List.replicate n 97, fun h => absurd (List.eq_of_mem_replicate h) (by decide)⟩

lemma nameOf_length (n : ℕ) : (nameOf n).val.length = n := List.length_replicate

/-- The connection request of a client. -/
def requestOf (client : Option CString) : PacketInfo := .conreq ⟨protocolVersion, none, 0, client⟩

/-- The request that is sent for a name of `2 ^ 32 - 1` characters is that of a client without name.
-/
lemma encode_requestOf_long (mem : Realloc) (b : Buffer) :
    (∃ b', (requestOf (some (nameOf (2 ^ 32 - 1)))).encode.on mem b = (.ok (), b') ∧ b'.Ok ∧
        b'.content = (requestOf none).bytes) ∨
      (∃ e b', (requestOf (some (nameOf (2 ^ 32 - 1)))).encode.on mem b = (.error e, b') ∧
        ∃ n, mem n = none) := by
  refine packetEncode_cases mem .conreq ?_ b
  refine (writes_u8 _).bind ((writes_string _).bind ((writes_u32 _).bind ?_))
  have hw := writes_string (some (nameOf (2 ^ 32 - 1)))
  rwa [stringBytes_of_length (by rw [nameOf_length]; omega)] at hw

theorem long_string_lost :
    (requestOf (some (nameOf (2 ^ 32 - 1)))).BuiltOn sampleBus ∧
      ∃ b', (requestOf (some (nameOf (2 ^ 32 - 1)))).encode.on zeroMem ⟨[], 0, 0⟩ = (.ok (), b') ∧
        b'.Ok ∧ b'.length < 2 ^ 32 ∧
        ∃ info' d', packetDecoderRead zeroMem sampleBus 1
            ⟨⟨0, 0, 0⟩, false, ⟨b'.content, b'.length, 0⟩⟩ [] = some (.ok info', d', []) ∧
          info'.view ≠ (requestOf (some (nameOf (2 ^ 32 - 1)))).view := by
  refine ⟨rfl, ?_⟩
  rcases encode_requestOf_long zeroMem ⟨[], 0, 0⟩ with ⟨b', hrun, hok, hcont⟩ | ⟨e, b', -, n, ⟨⟩⟩
  have hlen := Buffer.content_length hok
  have hshort : (requestOf none).Ok := ⟨rfl, by decide, by decide⟩
  obtain ⟨hdecode, hlocal⟩ := Frame.ofPacket_decode sampleBus hshort trivial
  have hstart : Buffer.content ⟨b'.content, b'.length, 0⟩ = (requestOf none).bytes ++ [] := by
    rw [List.append_nil, ← hcont]
    change b'.content.take b'.length = _
    rw [← hlen, List.take_length]
  obtain ⟨d', hread, -⟩ := packetDecoderRead_front zeroMem hlocal
    (d := ⟨⟨0, 0, 0⟩, false, ⟨b'.content, b'.length, 0⟩⟩) (le_of_eq hlen.symm) rfl rfl hstart
    (headerOf_bytes _ _) (by decide) hdecode 0 []
  refine ⟨b', hrun, hok, ?_, _, d', hread, by simp [PacketInfo.view, requestOf]⟩
  rw [← hlen, hcont]
  decide

end Obus
