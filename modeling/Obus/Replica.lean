import Obus.Calls
import Obus.RoundTrip

/-!
# Replicas

What a client and the server agree on is the list of registered objects (`Bus.replica`), with every
field as `obus_field_copy` gives it: an absent string like an empty one and booleans normalised.  A
packet of the server stands for a change of such a list (`PacketInfo.apply`), and it fits a list
(`PacketInfo.Fits`) when it names objects of it, or brings new ones.

Both sides follow these changes.  The operations of the server make the change that their packet
announces (`ServerBus.register` and the like), and a client that handles the packet as it arrives
makes the same change (`Tidy.packet`).
-/

namespace Obus

/-! ## Fields as they are compared -/

lemma copyValue_norm (t : BaseType) (v : t.Cell) : copyValue t (t.norm v) = copyValue t v := by
  cases t with
  | bool =>
    change UInt8 at v
    by_cases hv : v = 0 <;> simp [BaseType.norm, copyValue, hv]
  | _ => rfl

lemma copyValue_copyValue (t : BaseType) (v : t.Cell) :
    copyValue t (copyValue t v) = copyValue t v := by
  cases t with
  | bool =>
    change UInt8 at v
    by_cases hv : v = 0 <;> simp [copyValue, hv]
  | _ => rfl

lemma fieldCopy_norm (t : FieldType) (v : t.Val) : fieldCopy t (t.norm v) = fieldCopy t v := by
  cases t with
  | value t => exact copyValue_norm t v
  | array t => simp [FieldType.norm, fieldCopy, Function.comp_def, copyValue_norm]

lemma fieldCopy_fieldCopy (t : FieldType) (v : t.Val) :
    fieldCopy t (fieldCopy t v) = fieldCopy t v := by
  cases t with
  | value t => exact copyValue_copyValue t v
  | array t => simp [fieldCopy, Function.comp_def, copyValue_copyValue]

/-- A field as it is compared. -/
def Slot.canon (s : Slot) : Slot := ⟨s.desc, true, fieldCopy s.desc.type s.val⟩

@[simp] lemma Slot.canon_canon (s : Slot) : s.canon.canon = s.canon := by
  simp [Slot.canon, fieldCopy_fieldCopy]

@[simp] lemma Slot.canon_sent (s : Slot) : s.sent.canon = s.canon := by
  simp [Slot.canon, Slot.sent, fieldCopy_norm]

/-- An object as it is compared. -/
def Object.canon (o : Object) : Object :=
  { o with isRegistered := true, info := o.info.map Slot.canon }

@[simp] lemma Object.canon_handle (o : Object) : o.canon.handle = o.handle := rfl

@[simp] lemma Object.canon_ref (o : Object) : o.canon.ref = o.ref := rfl

/-- The registered objects, in order, as they are compared. -/
def Bus.replica (bus : Bus) : List Object := bus.registered.map Object.canon

lemma Bus.replica_handles (bus : Bus) :
    bus.replica.map Object.handle = bus.registered.map Object.handle := by
  rw [Bus.replica, List.map_map]
  rfl

/-- The struct with the present fields of another one. -/
def Struct.update (dst src : Struct) : Struct :=
  List.zipWith (fun d s => if s.has then s.canon else d) dst src

lemma structMerge_eq {dst src : Struct} (h : dst.desc = src.desc) :
    structMerge dst src = .ok (dst.update src) := by
  rw [structMerge, if_neg (not_not.mpr h)]
  rfl

lemma Struct.update_canon (dst src : Struct) :
    (dst.update src).map Slot.canon = Struct.update (dst.map Slot.canon) src := by
  unfold Struct.update
  rw [List.map_zipWith, List.zipWith_map_left]
  congr 1
  funext d s
  split <;> simp

lemma Struct.update_desc {dst src : Struct} (h : dst.desc = src.desc) :
    (dst.update src).desc = dst.desc := by
  induction dst generalizing src with
  | nil => rfl
  | cons d dst ih =>
    cases src with
    | nil => simp [Struct.desc] at h
    | cons s src =>
      obtain ⟨hhead, htail⟩ := List.cons.inj h
      have hrest := ih htail
      simp only [Struct.desc, Struct.update, List.zipWith_cons_cons, List.map_cons] at hrest ⊢
      rw [hrest]
      split
      · exact congrArg (· :: _) hhead.symm
      · rfl

/-- The fields of a struct that has arrived update as those of the struct that was sent. -/
lemma Struct.update_structSent {dst st₀ src : Struct} (hlen : st₀.length = src.length) :
    dst.update (structSent st₀ src) = dst.update src := by
  induction src generalizing dst st₀ with
  | nil =>
    rw [List.length_nil, List.length_eq_zero_iff] at hlen
    rw [hlen]
    rfl
  | cons s src ih =>
    obtain ⟨r, st₀, rfl⟩ : ∃ r st', st₀ = r :: st' := List.exists_cons_of_length_eq_add_one hlen
    cases dst with
    | nil => rfl
    | cons d dst =>
      have hrest := @ih dst st₀ (Nat.succ.inj hlen)
      simp only [Struct.update, structSent, List.zipWith_cons_cons] at hrest ⊢
      rw [hrest]
      cases hhas : s.has with
      | false => simp
      | true => simp [Slot.sent, Slot.canon, fieldCopy_norm]

/-- A struct all of whose fields are present arrives with all of them. -/
lemma canon_structSent {st₀ st : Struct} (hlen : st₀.length = st.length)
    (hall : ∀ s ∈ st, s.has = true) : (structSent st₀ st).map Slot.canon = st.map Slot.canon := by
  induction st generalizing st₀ with
  | nil =>
    rw [List.length_nil, List.length_eq_zero_iff] at hlen
    rw [hlen]
    rfl
  | cons s st ih =>
    obtain ⟨r, st₀, rfl⟩ : ∃ r st', st₀ = r :: st' := List.exists_cons_of_length_eq_add_one hlen
    have hrest := ih (Nat.succ.inj hlen) fun x hx => hall x (List.mem_cons_of_mem s hx)
    simp only [structSent, List.zipWith_cons_cons, List.map_cons] at hrest ⊢
    rw [hrest, hall s List.mem_cons_self]
    simp

lemma structSent_desc {st₀ st : Struct} (hdesc : st₀.desc = st.desc) :
    (structSent st₀ st).desc = st.desc := by
  induction st generalizing st₀ with
  | nil =>
    rw [structSent, List.zipWith_nil_right]
  | cons s st ih =>
    cases st₀ with
    | nil => simp [Struct.desc] at hdesc
    | cons r st₀ =>
      obtain ⟨hhead, htail⟩ := List.cons.inj hdesc
      have hrest := ih htail
      simp only [Struct.desc, structSent, List.zipWith_cons_cons, List.map_cons] at hrest ⊢
      rw [hrest]
      split
      · rfl
      · exact congrArg (· :: _) hhead

/-! ## Changes of a list of objects -/

/-- A new object at the end. -/
def applyAdd (o : Object) (l : List Object) : List Object := l ++ [o.canon]

/-- The fields that an event brings. -/
def applyEvent (e : Event) (l : List Object) : List Object :=
  l.map fun o => if o.handle = e.obj.handle then { o with info := o.info.update e.info } else o

/-- An object less. -/
def applyRemove (r : ObjectRef) (l : List Object) : List Object := l.filter (·.handle ≠ r.handle)

/-- The change that a packet stands for. -/
def PacketInfo.apply : PacketInfo → List Object → List Object
  | .conresp _ objects, l => objects.foldl (fun l o => applyAdd o l) l
  | .add o, l => applyAdd o l
  | .remove (some r), l => applyRemove r l
  | .event e, l => applyEvent e l
  | .busEvent e, l =>
    let l := e.addObjs.foldl (fun l o => applyAdd o l) l
    let l := e.objEvents.foldl (fun l v => applyEvent v l) l
    e.removeObjs.foldl (fun l r => applyRemove r l) l
  | _, l => l

/-- An object of a server: it is built on the descriptor and has all its fields. -/
structure Object.Full (api : BusDesc) (o : Object) : Prop extends Object.BuiltOn api o where
  fields : ∀ s ∈ o.info, s.has = true

/-- New objects for a list. -/
structure Adds (api : BusDesc) (objects l : List Object) : Prop where
  full : ∀ o ∈ objects, o.Full api
  fresh : (l.map Object.handle ++ objects.map Object.handle).Nodup

/-- An event of an object of a list. -/
structure Event.Of (l : List Object) (e : Event) : Prop where
  obj : e.obj ∈ l.map Object.ref
  desc : e.desc ∈ e.obj.desc.events
  info : e.info.On e.obj.desc.infoDesc

/-- A packet of the server for a client whose registered objects are a given list. -/
def PacketInfo.Fits (api : BusDesc) (l : List Object) : PacketInfo → Prop
  | .conresp status objects => status = .accepted ∧ Adds api objects l
  | .add o => Adds api [o] l
  | .remove r => ∃ o, r = some o ∧ o ∈ l.map Object.ref
  | .event e => e.Of l
  | .busEvent e => e.desc ∈ api.events ∧ Adds api e.addObjs l ∧ (∀ v ∈ e.objEvents, v.Of l) ∧
      (e.removeObjs.map ObjectRef.handle).Nodup ∧ ∀ o ∈ e.removeObjs, o ∈ l.map Object.ref
  | .ack _ => True
  | .conreq _ | .call _ => False

@[simp] lemma applyAdd_handles (o : Object) (l : List Object) :
    (applyAdd o l).map Object.handle = l.map Object.handle ++ [o.handle] := by
  simp [applyAdd]

/-- An event keeps the references to the objects. -/
@[simp] lemma applyEvent_refs (e : Event) (l : List Object) :
    (applyEvent e l).map Object.ref = l.map Object.ref := by
  rw [applyEvent, List.map_map]
  refine List.map_congr_left fun o _ => ?_
  simp only [Function.comp_apply]
  split <;> rfl

lemma mem_refs_applyAdd {r : ObjectRef} {o : Object} {l : List Object} (h : r ∈ l.map Object.ref) :
    r ∈ (applyAdd o l).map Object.ref := by
  rw [applyAdd, List.map_append]
  exact List.mem_append_left _ h

lemma foldl_applyAdd_refs (objects : List Object) {l : List Object} (r : ObjectRef)
    (h : r ∈ l.map Object.ref) :
    r ∈ (objects.foldl (fun l o => applyAdd o l) l).map Object.ref := by
  induction objects generalizing l with
  | nil => exact h
  | cons o objects ih => exact ih (mem_refs_applyAdd h)

lemma foldl_applyEvent_refs (events : List Event) (l : List Object) :
    (events.foldl (fun l v => applyEvent v l) l).map Object.ref = l.map Object.ref := by
  induction events generalizing l with
  | nil => rfl
  | cons v events ih => exact (ih _).trans (applyEvent_refs v l)

lemma mem_refs_applyRemove {r q : ObjectRef} {l : List Object} (h : r ∈ l.map Object.ref)
    (hne : r.handle ≠ q.handle) : r ∈ (applyRemove q l).map Object.ref := by
  obtain ⟨o, ho, rfl⟩ := List.mem_map.mp h
  refine List.mem_map_of_mem (List.mem_filter.mpr ⟨ho, ?_⟩)
  simp only [ne_eq, decide_not, Bool.not_eq_true', decide_eq_false_iff_not]
  exact hne

lemma Event.Of.mono {l l' : List Object} {e : Event} (h : e.Of l)
    (hsub : ∀ r ∈ l.map Object.ref, r ∈ l'.map Object.ref) : e.Of l' :=
  ⟨hsub _ h.obj, h.desc, h.info⟩

/-! ## What arrives -/

/-- An object of the server as it arrives. -/
def Object.arrival (o : Object) : Object :=
  ⟨o.desc, o.handle, false, structSent (structSetHasFields (structInit o.desc.infoDesc)) o.info⟩

/-- An event of the server as it arrives. -/
def Event.arrival (e : Event) : Event :=
  { e with info := structSent (structInit e.obj.desc.infoDesc) e.info }

/-- A packet of the server as it arrives. -/
def PacketInfo.arrival : PacketInfo → PacketInfo
  | .conresp status objects => .conresp status (objects.map Object.arrival)
  | .add o => .add o.arrival
  | .event e => .event e.arrival
  | .busEvent e =>
    .busEvent
      { e with addObjs := e.addObjs.map Object.arrival, objEvents := e.objEvents.map Event.arrival }
  | info => info

lemma length_eq_of_desc {st st' : Struct} (h : st.desc = st'.desc) : st.length = st'.length := by
  have hlen := congrArg List.length h
  simpa [Struct.desc] using hlen

lemma Object.BuiltOn.arrive {api : BusDesc} (hapi : api.Ok) {o : Object} (h : o.BuiltOn api) :
    o.arrive api = some o.arrival := by
  have hdesc : (structSetHasFields (structInit o.desc.infoDesc)).desc = o.info.desc := by
    rw [structSetHasFields_desc, structInit_desc, h.info.desc]
  have hnodup := (hapi.objects _ h.desc).info.1
  rw [← h.info.desc] at hnodup
  rw [Object.arrive, h.objectAddCheck hapi, Option.map_some, structArrive,
    structReceive_filter hdesc hnodup]
  rfl

lemma Event.BuiltOn.arrive {bus : Bus} (hapi : bus.api.Ok) {e : Event} (h : e.BuiltOn bus) :
    e.arrive bus = some e.arrival := by
  have hdesc : (structInit e.obj.desc.infoDesc).desc = e.info.desc := by
    rw [structInit_desc, h.info.desc]
  have hnodup := (hapi.objects _ h.obj.desc).info.1
  rw [← h.info.desc] at hnodup
  have hinfo := structReceive_filter hdesc hnodup
  rw [Event.arrive, h.eventCheck hapi]
  exact congrArg (fun info => some (Event.mk e.obj e.desc info)) hinfo

/-- An object with all its fields is compared as before when it has arrived. -/
lemma Object.Full.arrival_canon {api : BusDesc} {o : Object} (h : o.Full api) :
    o.arrival.canon = o.canon := by
  have hdesc : (structSetHasFields (structInit o.desc.infoDesc)).desc = o.info.desc := by
    rw [structSetHasFields_desc, structInit_desc, h.info.desc]
  simp only [Object.arrival, Object.canon, canon_structSent (length_eq_of_desc hdesc) h.fields]

/-- Committing an event whose fields merge like those of a given struct. -/
lemma eventCommit_update {bus : Bus} {e : Event} {src : Struct}
    (hmerge : ∀ o ∈ bus.hash, o.handle = e.obj.handle →
      structMerge o.info e.info = .ok (o.info.update src)) :
    (eventCommit e bus).hash = (bus.hash.map fun o =>
        if o.handle = e.obj.handle then { o with info := o.info.update src } else o) ∧
      (eventCommit e bus).replica = bus.replica.map fun o =>
        if o.handle = e.obj.handle then { o with info := o.info.update src } else o := by
  constructor
  · refine List.map_congr_left fun o ho => ?_
    dsimp only
    split
    · next hhandle => rw [hmerge o ho hhandle]
    · rfl
  · rw [Bus.replica, Bus.Ok.registered_eventCommit, Bus.replica, List.map_map, List.map_map]
    refine List.map_congr_left fun o ho => ?_
    have hmem := Bus.object?_mem (Bus.mem_registered.mp ho).2
    simp only [Function.comp_apply]
    by_cases hhandle : o.handle = e.obj.handle
    · rw [if_pos hhandle, if_pos (show o.canon.handle = e.obj.handle from hhandle),
        hmerge o hmem hhandle]
      simp only [Object.canon, Struct.update_canon]
    · rw [if_neg hhandle, if_neg (show o.canon.handle ≠ e.obj.handle from hhandle)]

/-! ## The client -/

/-- The bus of a client: all its objects are registered, and are of the descriptor. -/
structure Tidy (api : BusDesc) (c : Client) : Prop where
  bus : c.bus.Ok
  onApi : c.bus.api = api
  registered : ∀ o ∈ c.bus.hash, o.isRegistered = true
  desc : ∀ o ∈ c.bus.hash, o.desc ∈ api.objects ∧ o.info.desc = o.desc.infoDesc

namespace Tidy

variable {api : BusDesc} {c : Client}

/-- The objects of the bus are those of the list. -/
lemma mem_objects (h : Tidy api c) {o : Object} (ho : o ∈ c.bus.hash) :
    o.handle ∈ c.bus.objects := by
  rw [h.bus.flags, Bus.Ok.isRegistered_iff]
  exact ⟨o, h.bus.object?_of_mem ho, h.registered o ho⟩

/-- An object of the list is found under its handle. -/
lemma object?_of_mem {c : Client} {r : ObjectRef} (hr : r ∈ c.bus.replica.map Object.ref) :
    ∃ o, c.bus.object? r.handle = some o ∧ o.ref = r ∧ o ∈ c.bus.hash := by
  rw [Bus.replica, List.map_map] at hr
  obtain ⟨o, ho, rfl⟩ := List.mem_map.mp hr
  have hfound := (Bus.mem_registered.mp ho).2
  exact ⟨o, hfound, rfl, Bus.object?_mem hfound⟩

lemma knownTo (h : Tidy api c) {r : ObjectRef} (hr : r ∈ c.bus.replica.map Object.ref) :
    r.KnownTo c.bus := by
  obtain ⟨o, hfound, rfl, hmem⟩ := object?_of_mem hr
  refine ⟨?_, by rw [hfound]; rfl⟩
  rw [h.onApi]
  exact (h.desc o hmem).1

lemma builtOn (h : Tidy api c) {e : Event} (he : e.Of c.bus.replica) : e.BuiltOn c.bus :=
  ⟨h.knownTo he.obj, he.desc, he.info⟩

/-- A new object becomes the last one of the list. -/
lemma addObject (h : Tidy api c) (hapi : api.Ok) {o : Object} (ho : o.Full api)
    (hfresh : o.handle ∉ c.bus.replica.map Object.handle) :
    Tidy api (c.addObject o.arrival) ∧ (c.addObject o.arrival).bus.replica =
      applyAdd o c.bus.replica ∧
      (c.addObject o.arrival).state = c.state := by
  have hdesc : o.arrival.info.desc = o.desc.infoDesc := by
    rw [Object.arrival, structSent_desc, ho.info.desc]
    rw [structSetHasFields_desc, structInit_desc, ho.info.desc]
  rcases Client.addObject_cases h.bus o.arrival with ⟨-, huid | hzero | hused⟩ |
    ⟨bus, heq, hok, hbapi, -, hreg, hfind⟩
  · exact absurd (huid ▸ List.mem_map_of_mem ho.desc) hapi.uids.2
  · exact absurd hzero ho.handle
  · obtain ⟨a, ha, hah⟩ := List.mem_map.mp hused
    rw [Bus.replica_handles, h.bus.registered_handles] at hfresh
    exact absurd (hah ▸ h.mem_objects ha) hfresh
  · rw [heq]
    have hmem : ∀ a ∈ bus.hash, a = { o.arrival with isRegistered := true } ∨ a ∈ c.bus.hash := by
      intro a ha
      have hfound := hok.object?_of_mem ha
      rw [hfind] at hfound
      split at hfound
      · exact .inl (Option.some.inj hfound).symm
      · exact .inr (Bus.object?_mem hfound)
    refine ⟨⟨hok, hbapi.trans h.onApi, fun a ha => ?_, fun a ha => ?_⟩, ?_, rfl⟩
    · rcases hmem a ha with rfl | hold
      · rfl
      · exact h.registered a hold
    · rcases hmem a ha with rfl | hold
      · exact ⟨ho.desc, hdesc⟩
      · exact h.desc a hold
    · rw [Bus.replica, hreg, List.map_append, applyAdd, ← ho.arrival_canon]
      rfl

/-- An event changes its object in the list. -/
lemma event (h : Tidy api c) {e : Event} (he : e.Of c.bus.replica) :
    Tidy api (c.event e.arrival) ∧ (c.event e.arrival).bus.replica = applyEvent e c.bus.replica ∧
      (c.event e.arrival).state = c.state := by
  have hkeep : eventSanitize false e.arrival = e.arrival := by
    have hid : (fun s : Slot =>
        if (s.has && !e.arrival.desc.updates.contains s.desc.uid && false) = true then
        { s with has := false } else s) = id := by
      funext s
      simp
    rw [eventSanitize, hid, List.map_id]
  have hdesc : e.arrival.info.desc = e.obj.desc.infoDesc := by
    rw [Event.arrival, structSent_desc, he.info.desc]
    rw [structInit_desc, he.info.desc]
  have hlen : (structInit e.obj.desc.infoDesc).length = e.info.length :=
    length_eq_of_desc (by rw [structInit_desc, he.info.desc])
  obtain ⟨obj, hobj, href, -⟩ := object?_of_mem he.obj
  -- the object of the event has the descriptor that the event was made for
  have hsame : ∀ o ∈ c.bus.hash, o.handle = e.obj.handle → o.info.desc = e.arrival.info.desc := by
    intro o ho hhandle
    have hfound := h.bus.object?_of_mem ho
    rw [hhandle, hobj] at hfound
    obtain rfl : obj = o := Option.some.inj hfound
    rw [(h.desc obj ho).2, hdesc, ← href]
    rfl
  have hmerge : ∀ o ∈ c.bus.hash, o.handle = e.obj.handle →
      structMerge o.info e.arrival.info = .ok (o.info.update e.info) := by
    intro o ho hhandle
    rw [structMerge_eq (hsame o ho hhandle)]
    exact congrArg Except.ok (Struct.update_structSent hlen)
  obtain ⟨hhash, hreplica⟩ := eventCommit_update (e := e.arrival) hmerge
  have heq : c.event e.arrival = { c with bus := eventCommit e.arrival c.bus } := by
    rw [Client.event, hkeep]
  rw [heq]
  refine ⟨⟨h.bus.eventCommit _, h.onApi, fun o ho => ?_, fun o ho => ?_⟩, hreplica, rfl⟩
  · rw [hhash] at ho
    obtain ⟨a, ha, rfl⟩ := List.mem_map.mp ho
    split <;> exact h.registered a ha
  · rw [hhash] at ho
    obtain ⟨a, ha, rfl⟩ := List.mem_map.mp ho
    split
    · next hhandle =>
      refine ⟨(h.desc a ha).1, ?_⟩
      have hupdate : (a.info.update e.info).desc = a.info.desc :=
        Struct.update_desc ((hsame a ha hhandle).trans (hdesc.trans he.info.desc.symm))
      exact hupdate.trans (h.desc a ha).2
    · exact h.desc a ha

/-- A removed object leaves the list. -/
lemma removeObject (h : Tidy api c) {r : ObjectRef} (hr : r ∈ c.bus.replica.map Object.ref) :
    Tidy api (c.removeObject (some r)) ∧ (c.removeObject (some r)).bus.replica =
      applyRemove r c.bus.replica ∧
      (c.removeObject (some r)).state = c.state := by
  obtain ⟨o, hfound, -, -⟩ := object?_of_mem hr
  obtain ⟨hbus, hstate⟩ := c.abortCall_frame (some r.handle)
  obtain ⟨hok, hreg, hfind⟩ := Client.remove_spec (h := r.handle) h.bus
  have heq : c.removeObject (some r) =
      { c.abortCall (some r.handle) with
        bus := busRemoveObject r.handle (busUnregisterObject r.handle c.bus) } := by
    simp only [Client.removeObject, Option.map_some, hbus, hfound, Option.isNone_some,
      Bool.false_eq_true, if_false]
  have hmem : ∀ a ∈ (busRemoveObject r.handle (busUnregisterObject r.handle c.bus)).hash,
      a ∈ c.bus.hash := by
    intro a ha
    have hfound := hok.object?_of_mem ha
    rw [hfind] at hfound
    split at hfound
    · cases hfound
    · exact Bus.object?_mem hfound
  rw [heq]
  refine ⟨⟨hok, h.onApi, fun a ha => h.registered a (hmem a ha), fun a ha => h.desc a (hmem a ha)⟩,
    ?_, hstate⟩
  rw [Bus.replica, hreg, Bus.replica, applyRemove, List.filter_map]
  rfl

lemma of_bus (h : Tidy api c) {c' : Client} (hbus : c'.bus = c.bus) : Tidy api c' :=
  ⟨hbus ▸ h.bus, hbus ▸ h.onApi, hbus ▸ h.registered, hbus ▸ h.desc⟩

lemma foldl_addObject (h : Tidy api c) (hapi : api.Ok) {objects : List Object}
    (hadds : Adds api objects c.bus.replica) :
    let c' := (objects.map Object.arrival).foldl (fun c o => c.addObject o) c
    Tidy api c' ∧ c'.bus.replica = objects.foldl (fun l o => applyAdd o l) c.bus.replica := by
  induction objects generalizing c with
  | nil => exact ⟨h, rfl⟩
  | cons o objects ih =>
    have hfresh : o.handle ∉ c.bus.replica.map Object.handle := fun hmem =>
      (List.nodup_append.mp hadds.fresh).2.2 _ hmem _ List.mem_cons_self rfl
    obtain ⟨htidy, hreplica, -⟩ := h.addObject hapi (hadds.full o List.mem_cons_self) hfresh
    have hadds' : Adds api objects (c.addObject o.arrival).bus.replica := by
      refine ⟨fun a ha => hadds.full a (List.mem_cons_of_mem o ha), ?_⟩
      rw [hreplica, applyAdd_handles, List.append_assoc]
      exact hadds.fresh
    obtain ⟨htidy', hreplica'⟩ := ih htidy hadds'
    exact ⟨htidy', hreplica'.trans (by rw [hreplica]; rfl)⟩

lemma foldl_event (h : Tidy api c) {events : List Event} (hof : ∀ v ∈ events, v.Of c.bus.replica) :
    let c' := (events.map Event.arrival).foldl (fun c v => c.event v) c
    Tidy api c' ∧ c'.bus.replica = events.foldl (fun l v => applyEvent v l) c.bus.replica := by
  induction events generalizing c with
  | nil => exact ⟨h, rfl⟩
  | cons v events ih =>
    obtain ⟨htidy, hreplica, -⟩ := h.event (hof v List.mem_cons_self)
    obtain ⟨htidy', hreplica'⟩ := ih htidy fun w hw => by
      refine (hof w (List.mem_cons_of_mem v hw)).mono fun r hr => ?_
      rwa [hreplica, applyEvent_refs]
    exact ⟨htidy', hreplica'.trans (by rw [hreplica]; rfl)⟩

lemma foldl_removeObject (h : Tidy api c) {refs : List ObjectRef}
    (hnodup : (refs.map ObjectRef.handle).Nodup)
    (hrefs : ∀ r ∈ refs, r ∈ c.bus.replica.map Object.ref) :
    let c' := refs.foldl (fun c r => c.removeObject (some r)) c
    Tidy api c' ∧ c'.bus.replica = refs.foldl (fun l r => applyRemove r l) c.bus.replica := by
  induction refs generalizing c with
  | nil => exact ⟨h, rfl⟩
  | cons r refs ih =>
    rw [List.map_cons, List.nodup_cons] at hnodup
    obtain ⟨htidy, hreplica, -⟩ := h.removeObject (hrefs r List.mem_cons_self)
    obtain ⟨htidy', hreplica'⟩ := ih htidy hnodup.2 fun q hq => by
      rw [hreplica]
      refine mem_refs_applyRemove (hrefs q (List.mem_cons_of_mem r hq)) fun heq => hnodup.1 ?_
      exact heq ▸ List.mem_map_of_mem hq
    exact ⟨htidy', hreplica'.trans (by rw [hreplica]; rfl)⟩

/-- A packet that fits arrives, and the client makes the change that it stands for. -/
lemma packet (h : Tidy api c) (hapi : api.Ok) {info : PacketInfo}
    (hfits : info.Fits api c.bus.replica) (hstate : info.type = .conresp → c.state = .connecting) :
    info.arrive c.bus = .ok info.arrival ∧ Tidy api (c.packet info.arrival) ∧
      (c.packet info.arrival).bus.replica = info.apply c.bus.replica := by
  have hbapi : c.bus.api.Ok := h.onApi ▸ hapi
  have hadd : ∀ objects : List Object, Adds api objects c.bus.replica →
      objects.filterMap (Object.arrive c.bus.api) = objects.map Object.arrival := by
    intro objects hadds
    rw [h.onApi, ← List.filterMap_eq_map]
    exact List.filterMap_congr fun o ho => (hadds.full o ho).toBuiltOn.arrive hapi
  cases info with
  | conreq req => exact absurd hfits id
  | call call => exact absurd hfits id
  | conresp status objects =>
    obtain ⟨rfl, hadds⟩ := hfits
    refine ⟨by rw [PacketInfo.arrive, hadd objects hadds]; rfl, ?_⟩
    rw [PacketInfo.arrival, Client.packet, Client.connectionResponse,
      if_neg (not_not.mpr (hstate rfl)), if_neg (not_not.mpr rfl)]
    have hopen : Tidy api { c with state := .connected } := h.of_bus rfl
    exact hopen.foldl_addObject hapi hadds
  | add o =>
    have harrive := (hfits.full o List.mem_cons_self).toBuiltOn.arrive hapi
    refine ⟨by rw [PacketInfo.arrive, h.onApi, harrive]; rfl, ?_⟩
    exact h.foldl_addObject hapi hfits
  | remove r =>
    obtain ⟨o, rfl, ho⟩ := hfits
    obtain ⟨htidy, hreplica, -⟩ := h.removeObject ho
    exact ⟨congrArg (fun r => Except.ok (PacketInfo.remove r)) (h.knownTo ho).known,
      htidy, hreplica⟩
  | event e =>
    have harrive := (h.builtOn hfits).arrive hbapi
    refine ⟨by rw [PacketInfo.arrive, harrive]; rfl, ?_⟩
    obtain ⟨htidy, hreplica, -⟩ := h.event hfits
    exact ⟨htidy, hreplica⟩
  | busEvent e =>
    obtain ⟨hdesc, hadds, hevents, hnodup, hremoves⟩ := hfits
    have harrive : e.arrive c.bus = some ⟨e.desc, e.addObjs.map Object.arrival, e.removeObjs,
        e.objEvents.map Event.arrival⟩ := by
      have hobjEvents : e.objEvents.filterMap (Event.arrive c.bus) =
          e.objEvents.map Event.arrival := by
        rw [← List.filterMap_eq_map]
        exact List.filterMap_congr fun v hv => (h.builtOn (hevents v hv)).arrive hbapi
      rw [BusEvent.arrive, hbapi.busEvent? (h.onApi ▸ hdesc), Option.map_some, hadd e.addObjs hadds,
        filterMap_arrive_ref fun o ho => h.knownTo (hremoves o ho), hobjEvents]
    refine ⟨by rw [PacketInfo.arrive, harrive]; rfl, ?_⟩
    obtain ⟨htidy, hreplica⟩ := h.foldl_addObject hapi hadds
    have hmore := foldl_applyAdd_refs e.addObjs (l := c.bus.replica)
    obtain ⟨htidy', hreplica'⟩ :=
      htidy.foldl_event fun v hv => (hevents v hv).mono (hreplica ▸ hmore)
    obtain ⟨htidy'', hreplica''⟩ := htidy'.foldl_removeObject hnodup fun r hr => by
      rw [hreplica', foldl_applyEvent_refs, hreplica]
      exact hmore r (hremoves r hr)
    refine ⟨htidy'', hreplica''.trans ?_⟩
    rw [hreplica', hreplica]
    rfl
  | ack a =>
    have hbus : (c.ack a).bus = c.bus := by
      unfold Client.ack
      split
      · rfl
      · exact (Client.complete_frame _ _ _).1
    exact ⟨rfl, h.of_bus hbus, congrArg Bus.replica hbus⟩

end Tidy

/-! ## Reading -/

/-- A client reads a packet of the server: the bytes of the packet are decoded on the bus of the
client.  A packet that cannot be decoded is dropped. -/
def Client.read (info : PacketInfo) (c : Client) : Client :=
  match (Frame.ofPacket info).decode c.bus with
  | .ok info' => c.packet info'
  | .error _ => c

namespace Tidy

variable {api : BusDesc} {c : Client}

/-- A packet that fits is built on the bus of the client. -/
lemma builtOn_of_fits (h : Tidy api c) {info : PacketInfo} (hfits : info.Fits api c.bus.replica) :
    info.BuiltOn c.bus := by
  have hadd : ∀ objects : List Object, Adds api objects c.bus.replica →
      ∀ o ∈ objects, o.BuiltOn c.bus.api := by
    intro objects hadds o ho
    rw [h.onApi]
    exact (hadds.full o ho).toBuiltOn
  cases info with
  | conreq req => exact absurd hfits id
  | call call => exact absurd hfits id
  | conresp status objects => exact hadd objects hfits.2
  | add o => exact hadd [o] hfits o List.mem_cons_self
  | remove r =>
    obtain ⟨o, rfl, ho⟩ := hfits
    exact ⟨o, rfl, h.knownTo ho⟩
  | event e => exact h.builtOn hfits
  | busEvent e =>
    obtain ⟨hdesc, hadds, hevents, -, hremoves⟩ := hfits
    refine ⟨by rwa [h.onApi], hadd e.addObjs hadds, fun o ho => h.knownTo (hremoves o ho), ?_⟩
    intro v hv
    exact h.builtOn (hevents v hv)
  | ack a => trivial

/-- A packet that fits can be carried. -/
lemma ok_of_fits (h : Tidy api c) (hapi : api.Ok) {info : PacketInfo}
    (hfits : info.Fits api c.bus.replica) (hlen : info.bytes.length < 2 ^ 32) : info.Ok := by
  have hbapi : c.bus.api.Ok := h.onApi ▸ hapi
  exact ((h.builtOn_of_fits hfits).valid hbapi).ok hlen

/-- A client that reads a packet that fits makes the change that the packet stands for. -/
lemma read (h : Tidy api c) (hapi : api.Ok) (info : PacketInfo)
    (hfits : info.Fits api c.bus.replica)
    (hstate : info.type = .conresp → c.state = .connecting) (hlen : info.bytes.length < 2 ^ 32) :
    c.read info = c.packet info.arrival ∧ Tidy api (c.read info) ∧
      (c.read info).bus.replica = info.apply c.bus.replica := by
  have hbapi : c.bus.api.Ok := h.onApi ▸ hapi
  have hbuilt := h.builtOn_of_fits hfits
  have hok : info.Ok := h.ok_of_fits hapi hfits hlen
  obtain ⟨harrive, htidy, hreplica⟩ := h.packet hapi hfits hstate
  have hread : c.read info = c.packet info.arrival := by
    rw [Client.read, (Frame.ofPacket_decode c.bus hok (hbuilt.compatible hbapi)).1, harrive]
  rw [hread]
  exact ⟨rfl, htidy, hreplica⟩

end Tidy

end Obus
