import Obus.Replica

/-!
# The objects of a server

Every object of a server is built on the descriptor and has all its fields (`ServerBus`).
Registering an object, unregistering it and committing an event to it make the change of the list of
registered objects that the packet announces, and the packet fits the list as it was:
`ServerBus.register`, `ServerBus.unregister` and `ServerBus.eventCommit`, and `ServerBus.busEvent`
for a bus event, which does all of it in one.
-/

namespace Obus

/-- The bus of a server. -/
structure ServerBus (api : BusDesc) (bus : Bus) : Prop where
  ok : bus.Ok
  onApi : bus.api = api
  full : ∀ o ∈ bus.hash, o.Full api

/-- An event of the user: it was made for its object, from a description of one of the events of the
object. -/
structure OwnEvent.Built (v : OwnEvent) : Prop where
  desc : v.event.desc ∈ v.event.obj.desc.events
  info : v.event.info.On v.event.obj.desc.infoDesc

/-- A bus event of the user. -/
structure BusEventReq.Built (api : BusDesc) (e : BusEventReq) : Prop where
  desc : e.desc ∈ api.events
  objEvents : ∀ v ∈ e.objEvents, v.Built

/-! ## Structs -/

lemma FieldType.Ok.fieldCopy {t : FieldType} {v : t.Val} (h : t.Ok v) : t.Ok (fieldCopy t v) := by
  cases t with
  | value t => trivial
  | array t => simpa [FieldType.Ok, Obus.fieldCopy] using h

/-- Merging keeps a struct on its descriptor, with all its fields. -/
lemma Struct.On.update {d : StructDesc} {dst src : Struct} (hdst : dst.On d) (hsrc : src.On d)
    (hall : ∀ s ∈ dst, s.has = true) : (dst.update src).On d ∧
    ∀ s ∈ dst.update src, s.has = true := by
  have hmem : ∀ s ∈ dst.update src, s ∈ dst ∨ ∃ r ∈ src, r.has = true ∧ s = r.canon := by
    intro s hs
    obtain ⟨a, r, ha, hr, rfl⟩ : ∃ a r, a ∈ dst ∧ r ∈ src ∧ s = if r.has then r.canon else a := by
      obtain ⟨i, hi, rfl⟩ := List.mem_iff_getElem.mp hs
      rw [Struct.update, List.length_zipWith] at hi
      refine ⟨dst[i], src[i], List.getElem_mem _, List.getElem_mem _, ?_⟩
      simp [Struct.update]
    split
    · next hr' => exact .inr ⟨r, hr, hr', rfl⟩
    · exact .inl ha
  refine ⟨⟨(Struct.update_desc (hdst.desc.trans hsrc.desc.symm)).trans hdst.desc, fun s hs _ => ?_⟩,
    fun s hs => ?_⟩
  · rcases hmem s hs with hold | ⟨r, hr, hhas, rfl⟩
    · exact hdst.arrays s hold (hall s hold)
    · exact (hsrc.arrays r hr hhas).fieldCopy
  · rcases hmem s hs with hold | ⟨r, -, -, rfl⟩
    · exact hall s hold
    · rfl

lemma structInit_on (d : StructDesc) : (structSetHasFields (structInit d)).On d ∧
    ∀ s ∈ structSetHasFields (structInit d), s.has = true := by
  refine ⟨⟨by rw [structSetHasFields_desc, structInit_desc], fun s hs _ => ?_⟩, fun s hs => ?_⟩
  · obtain ⟨r, hr, rfl⟩ := List.mem_map.mp hs
    obtain ⟨f, -, rfl⟩ := List.mem_map.mp hr
    change f.type.Ok (f.type.init f.enumDrv)
    cases f.type with
    | value t => trivial
    | array t => rfl
  · obtain ⟨r, -, rfl⟩ := List.mem_map.mp hs
    rfl

/-- Sanitising keeps the fields of an event on their descriptor. -/
lemma OwnEvent.Built.sanitize {v : OwnEvent} (h : v.Built) : v.sanitize.Built := by
  have hdesc : v.sanitize.event.info.desc = v.event.info.desc := by
    change List.map _ (List.map _ _) = _
    rw [List.map_map]
    refine List.map_congr_left fun f _ => ?_
    simp only [Function.comp_apply]
    split <;> rfl
  refine ⟨h.desc, ⟨hdesc.trans h.info.desc, fun s hs hhas => ?_⟩⟩
  obtain ⟨f, hf, rfl⟩ := List.mem_map.mp hs
  split at hhas
  · cases hhas
  · next hkeep =>
    rw [if_neg hkeep]
    exact h.info.arrays f hf hhas

lemma BusEventReq.Built.sanitize {api : BusDesc} {e : BusEventReq} (h : e.Built api) :
    e.sanitize.Built api := by
  refine ⟨h.desc, fun v hv => ?_⟩
  obtain ⟨w, hw, rfl⟩ := List.mem_map.mp hv
  exact (h.objEvents w hw).sanitize

/-! ## Lookups -/

lemma ObjectRef.object?_eq_some {r : ObjectRef} {bus : Bus} {o : Object} :
    r.object? bus = some o ↔ bus.object? r.handle = some o ∧ o.ref = r := by
  unfold ObjectRef.object?
  rw [Option.filter_eq_some_iff]
  simp

/-! No operation on the tables changes what the handles refer to. -/

lemma ref_register {bus : Bus} {h x : UInt16} :
    ((busRegisterObject x bus).object? h).map Object.ref = (bus.object? h).map Object.ref := by
  rw [Bus.object?_register, Option.map_map]
  cases bus.object? h with
  | none => rfl
  | some o =>
    simp only [Option.map_some, Function.comp_apply]
    split <;> rfl

lemma ref_foldl_register {bus : Bus} {h : UInt16} (hs : List UInt16) :
    ((hs.foldl (fun bus x => busRegisterObject x bus) bus).object? h).map Object.ref =
      (bus.object? h).map Object.ref := by
  induction hs generalizing bus with
  | nil => rfl
  | cons x hs ih => exact ih.trans ref_register

lemma ref_unregister {bus : Bus} {h x : UInt16} :
    ((busUnregisterObject x bus).object? h).map Object.ref = (bus.object? h).map Object.ref := by
  rw [Bus.object?_unregister, Option.map_map]
  cases bus.object? h with
  | none => rfl
  | some o =>
    simp only [Option.map_some, Function.comp_apply]
    split <;> rfl

/-- Committing an event keeps what a handle refers to and whether it is registered. -/
lemma ref_commit {bus : Bus} {v : OwnEvent} {h : UInt16} :
    ((v.commit bus).object? h).map (fun o => (o.ref, o.isRegistered)) =
      (bus.object? h).map fun o => (o.ref, o.isRegistered) := by
  unfold OwnEvent.commit
  split
  · rfl
  · rw [Bus.Ok.object?_eventCommit, Option.map_map]
    cases bus.object? h with
    | none => rfl
    | some o =>
      simp only [Option.map_some, Function.comp_apply]
      split
      · split <;> rfl
      · rfl

lemma ref_foldl_commit {bus : Bus} {h : UInt16} (events : List OwnEvent) :
    ((events.foldl (fun bus v => v.commit bus) bus).object? h).map
      (fun o => (o.ref, o.isRegistered)) =
      (bus.object? h).map fun o => (o.ref, o.isRegistered) := by
  induction events generalizing bus with
  | nil => rfl
  | cons v events ih => exact ih.trans ref_commit

/-- An object that a reference points to stays there as long as its handle refers to the same. -/
lemma ObjectRef.object?_of_ref {r : ObjectRef} {bus bus' : Bus}
    (href : (bus'.object? r.handle).map Object.ref = (bus.object? r.handle).map Object.ref)
    (hfound : ∃ o, r.object? bus = some o) : ∃ o, r.object? bus' = some o := by
  obtain ⟨o, ho⟩ := hfound
  obtain ⟨hobj, hr⟩ := ObjectRef.object?_eq_some.mp ho
  rw [hobj, Option.map_some, Option.map_eq_some_iff] at href
  obtain ⟨b, hb, heq⟩ := href
  exact ⟨b, ObjectRef.object?_eq_some.mpr ⟨hb, heq.trans hr⟩⟩

lemma ref_of_flagged {bus bus' : Bus} {h : UInt16}
    (hsame : (bus'.object? h).map (fun o => (o.ref, o.isRegistered)) =
      (bus.object? h).map fun o => (o.ref, o.isRegistered)) :
    (bus'.object? h).map Object.ref = (bus.object? h).map Object.ref := by
  have hfst := congrArg (Option.map Prod.fst) hsame
  rw [Option.map_map, Option.map_map] at hfst
  exact hfst

/-- An object that a reference points to stays registered as long as its handle keeps reference and
flag. -/
lemma registered_of_flagged {r : ObjectRef} {bus bus' : Bus}
    (hsame : (bus'.object? r.handle).map (fun o => (o.ref, o.isRegistered)) =
      (bus.object? r.handle).map fun o => (o.ref, o.isRegistered))
    (hfound : ∃ o, r.object? bus = some o ∧ o.isRegistered = true) :
    ∃ o, r.object? bus' = some o ∧ o.isRegistered = true := by
  obtain ⟨o, ho, hflag⟩ := hfound
  obtain ⟨hobj, hr⟩ := ObjectRef.object?_eq_some.mp ho
  rw [hobj, Option.map_some, Option.map_eq_some_iff] at hsame
  obtain ⟨b, hb, heq⟩ := hsame
  obtain ⟨href, hreg⟩ := Prod.mk.inj heq
  exact ⟨b, ObjectRef.object?_eq_some.mpr ⟨hb, href.trans hr⟩, hreg.trans hflag⟩

/-- Registering other objects keeps a registered object. -/
lemma registered_foldl_register {r : ObjectRef} {bus : Bus} (hs : List UInt16)
    (hfound : ∃ o, r.object? bus = some o ∧ o.isRegistered = true) :
    ∃ o, r.object? (hs.foldl (fun bus x => busRegisterObject x bus) bus) = some o ∧
    o.isRegistered = true := by
  induction hs generalizing bus with
  | nil => exact hfound
  | cons x hs ih =>
    refine ih ?_
    obtain ⟨o, ho, hflag⟩ := hfound
    obtain ⟨hobj, hr⟩ := ObjectRef.object?_eq_some.mp ho
    refine ⟨if r.handle = x then { o with isRegistered := true } else o,
      ObjectRef.object?_eq_some.mpr ⟨by rw [Bus.object?_register, hobj]; rfl, ?_⟩, ?_⟩
    · split <;> exact hr
    · split
      · rfl
      · exact hflag

/-- Sanitising the events of a bus event does not change whether it is accepted. -/
lemma BusEventReq.Accepted.sanitize {e : BusEventReq} {bus : Bus} (h : e.Accepted bus) :
    e.sanitize.Accepted bus := by
  refine ⟨h.addObjs, h.removeObjs, fun v hv => ?_⟩
  obtain ⟨w, hw, rfl⟩ := List.mem_map.mp hv
  exact h.objEvents w hw

/-- What committing an event does to the list: nothing, if it was committed before. -/
def OwnEvent.applyCommit (v : OwnEvent) (l : List Object) : List Object :=
  if v.isCommitted then l else applyEvent v.event l

namespace ServerBus

variable {api : BusDesc} {bus : Bus} {x : UInt16} {o : Object}

/-- A registered object is one of the list. -/
lemma mem_refs (h : ServerBus api bus) (hfound : bus.object? x = some o)
    (hreg : o.isRegistered = true) : o.ref ∈ bus.replica.map Object.ref := by
  have hx := Bus.object?_handle hfound
  have hmem : o ∈ bus.registered := by
    refine Bus.mem_registered.mpr ⟨?_, hx ▸ hfound⟩
    rw [hx, h.ok.flags, Bus.Ok.isRegistered_iff]
    exact ⟨o, hfound, hreg⟩
  rw [Bus.replica, List.map_map]
  exact List.mem_map_of_mem (f := Object.ref) hmem

lemma not_mem_of_unregistered (h : ServerBus api bus) (hfound : bus.object? x = some o)
    (hreg : o.isRegistered = false) : x ∉ bus.objects := by
  intro hmem
  obtain ⟨a, ha, hflag⟩ := Bus.Ok.isRegistered_iff.mp ((h.ok.flags x).mp hmem)
  rw [hfound, Option.some.injEq] at ha
  rw [← ha, hreg] at hflag
  cases hflag

lemma flagged (h : o.Full api) (b : Bool) : ({ o with isRegistered := b } : Object).Full api :=
  ⟨⟨h.desc, h.handle, h.info⟩, h.fields⟩

lemma modify (h : ServerBus api bus) {f : Object → Object} (hf : ∀ o, o.Full api → (f o).Full api) :
    ∀ o ∈ (bus.modify x f).hash, o.Full api := by
  intro o ho
  obtain ⟨a, ha, rfl⟩ := List.mem_map.mp ho
  split
  · exact hf a (h.full a ha)
  · exact h.full a ha

/-- Registering an object adds it to the list. -/
lemma register (h : ServerBus api bus) (hfound : bus.object? x = some o)
    (hreg : o.isRegistered = false) :
    ServerBus api (busRegisterObject x bus) ∧ (busRegisterObject x bus).replica =
      applyAdd o bus.replica ∧
      Adds api [o] bus.replica := by
  have hnew := h.not_mem_of_unregistered hfound hreg
  refine ⟨⟨h.ok.register hfound hnew, h.onApi, h.modify fun o ho => flagged ho true⟩, ?_, ?_, ?_⟩
  · rw [Bus.replica, Bus.Ok.registered_register hfound hnew, List.map_append]
    rfl
  · intro a ha
    rw [List.mem_singleton.mp ha]
    exact h.full o (Bus.object?_mem hfound)
  · rw [Bus.replica_handles, h.ok.registered_handles]
    refine List.nodup_append.mpr ⟨h.ok.nodup, List.nodup_singleton _, ?_⟩
    rintro a ha b hb rfl
    rw [List.mem_singleton.mp hb, Bus.object?_handle hfound] at ha
    exact hnew ha

/-- Unregistering an object takes it out of the list. -/
lemma unregister (h : ServerBus api bus) (hfound : bus.object? x = some o) :
    ServerBus api (busUnregisterObject x bus) ∧
      (busUnregisterObject x bus).replica = applyRemove o.ref bus.replica := by
  refine ⟨⟨h.ok.unregister, h.onApi, h.modify fun o ho => flagged ho false⟩, ?_⟩
  rw [Bus.replica, h.ok.registered_unregister, Bus.replica, applyRemove, List.filter_map]
  refine congrArg (List.map Object.canon) (List.filter_congr fun a _ => ?_)
  have hx : o.ref.handle = x := Bus.object?_handle hfound
  rw [Function.comp_apply, hx]
  rfl

/-- Committing an event changes its object in the list. -/
lemma eventCommit (h : ServerBus api bus) {e : Event} (hfound : e.obj.object? bus = some o)
    (hinfo : e.info.On e.obj.desc.infoDesc) :
    ServerBus api (eventCommit e bus) ∧ (Obus.eventCommit e bus).replica =
      applyEvent e bus.replica := by
  obtain ⟨hobj, href⟩ := ObjectRef.object?_eq_some.mp hfound
  have hsame : ∀ a ∈ bus.hash, a.handle = e.obj.handle → a = o := by
    intro a ha hhandle
    have hself := h.ok.object?_of_mem ha
    rw [hhandle, hobj] at hself
    exact (Option.some.inj hself).symm
  have hon : ∀ a ∈ bus.hash, a.handle = e.obj.handle → e.info.On a.desc.infoDesc := by
    intro a ha hhandle
    rw [hsame a ha hhandle, show o.desc = e.obj.desc from congrArg ObjectRef.desc href]
    exact hinfo
  obtain ⟨hhash, hreplica⟩ := eventCommit_update (e := e) fun a (ha : a ∈ bus.hash) hhandle =>
    structMerge_eq ((h.full a ha).info.desc.trans (hon a ha hhandle).desc.symm)
  refine ⟨⟨h.ok.eventCommit e, h.onApi, fun a ha => ?_⟩, hreplica⟩
  rw [hhash] at ha
  obtain ⟨b, hb, rfl⟩ := List.mem_map.mp ha
  split
  · next hhandle =>
    have hb' := h.full b hb
    obtain ⟨hupdated, hall⟩ := hb'.info.update (hon b hb hhandle) hb'.fields
    exact ⟨⟨hb'.desc, hb'.handle, hupdated⟩, hall⟩
  · exact h.full b hb

/-- A new object is not registered yet. -/
lemma newObject (h : ServerBus api bus) {desc : ObjectDesc} {info : Option Struct}
    {draws : List UInt16}
    {o' : Object} {bus' : Bus} (hdesc : desc ∈ api.objects)
    (hinfo : ∀ st ∈ info, ∀ s ∈ st, s.has = true →
      s.desc.type.Ok s.val) (hnew : objectNew desc info = .ok o)
      (hadd : busAddObject draws o bus = .ok (o', bus')) :
    ServerBus api bus' ∧ bus'.replica = bus.replica := by
  obtain ⟨hon, hall⟩ := structInit_on desc.infoDesc
  have ho : o.desc = desc ∧ o.isRegistered = false ∧ o.info.On desc.infoDesc ∧
      ∀ s ∈ o.info, s.has = true := by
    unfold objectNew at hnew
    cases info with
    | none =>
      cases hnew
      exact ⟨rfl, rfl, hon, hall⟩
    | some st =>
      by_cases hsame : (structSetHasFields (structInit desc.infoDesc)).desc = st.desc
      · simp only [structMerge_eq hsame, Except.map, Except.ok.injEq] at hnew
        have hst : st.On desc.infoDesc := ⟨hsame.symm.trans hon.desc, hinfo st rfl⟩
        obtain ⟨hupdated, hpresent⟩ := hon.update hst hall
        rw [← hnew]
        exact ⟨rfl, rfl, hupdated, hpresent⟩
      · have hfail : structMerge (structSetHasFields (structInit desc.infoDesc)) st =
            .error .einval :=
          if_pos hsame
        simp only [hfail, Except.map] at hnew
        cases hnew
  obtain ⟨hdesc', hflag, hinfo', hfields⟩ := ho
  obtain ⟨hok, hreg, -⟩ := h.ok.of_add hadd hflag
  obtain ⟨hhash, -, hapi, hne, -, ⟨x, rfl⟩, -⟩ := Bus.Ok.add hadd
  refine ⟨⟨hok, hapi.trans h.onApi, fun a ha => ?_⟩, congrArg (List.map Object.canon) hreg⟩
  rw [hhash] at ha
  rcases List.mem_append.mp ha with hold | hlast
  · exact h.full a hold
  · rw [List.mem_singleton.mp hlast]
    subst hdesc'
    exact ⟨⟨hdesc, hne, hinfo'⟩, hfields⟩

/-- Destroying an object that is not registered does not change the list. -/
lemma destroy (h : ServerBus api bus) {bus' : Bus} (hdestroy : objectDestroy x bus = .ok bus') :
    ServerBus api bus' ∧ bus'.replica = bus.replica := by
  unfold objectDestroy at hdestroy
  split at hdestroy
  · cases hdestroy
  · next o ho =>
    split at hdestroy
    · cases hdestroy
    · next hreg =>
      cases hdestroy
      have hnew := h.not_mem_of_unregistered ho (by simpa using hreg)
      refine ⟨⟨h.ok.remove hnew, h.onApi, fun a ha => h.full a (List.mem_filter.mp ha).1⟩, ?_⟩
      rw [Bus.replica, Bus.Ok.registered_remove hnew, Bus.replica]

/-! ## Bus events -/

lemma foldl_register (h : ServerBus api bus) {hs : List UInt16} (hnodup : hs.Nodup)
    (hnew : ∀ x ∈ hs, ∃ o, bus.object? x = some o ∧ o.isRegistered = false) :
    let bus' := hs.foldl (fun bus x => busRegisterObject x bus) bus
    ServerBus api bus' ∧ bus'.replica = (hs.filterMap bus.object?).foldl
      (fun l o => applyAdd o l) bus.replica ∧
      Adds api (hs.filterMap bus.object?) bus.replica := by
  induction hs generalizing bus with
  | nil =>
    refine ⟨h, rfl, nofun, ?_⟩
    rw [List.filterMap_nil, List.map_nil, List.append_nil, Bus.replica_handles,
      h.ok.registered_handles]
    exact h.ok.nodup
  | cons x hs ih =>
    rw [List.nodup_cons] at hnodup
    obtain ⟨o, ho, hflag⟩ := hnew x List.mem_cons_self
    obtain ⟨hbus, hreplica, hadds⟩ := h.register ho hflag
    -- registering an object does not change the other ones
    have hother : ∀ y ∈ hs, (busRegisterObject x bus).object? y = bus.object? y := by
      intro y hy
      have hne : y ≠ x := fun heq => hnodup.1 (heq ▸ hy)
      rw [Bus.object?_register]
      simp [hne]
    have hsame : hs.filterMap (busRegisterObject x bus).object? = hs.filterMap bus.object? :=
      List.filterMap_congr hother
    obtain ⟨hbus', hreplica', hadds'⟩ := ih hbus hnodup.2 fun y hy => by
      rw [hother y hy]
      exact hnew y (List.mem_cons_of_mem x hy)
    rw [hsame] at hreplica' hadds'
    rw [List.filterMap_cons_some ho]
    refine ⟨hbus', hreplica'.trans (by rw [hreplica]; rfl), ?_, ?_⟩
    · intro a ha
      rcases List.mem_cons.mp ha with rfl | ha
      · exact hadds.full a List.mem_cons_self
      · exact hadds'.full a ha
    · have hfresh := hadds'.fresh
      rw [hreplica, applyAdd_handles, List.append_assoc] at hfresh
      exact hfresh

lemma commit (h : ServerBus api bus) {v : OwnEvent} (hfound : v.event.obj.object? bus = some o)
    (hinfo : v.event.info.On v.event.obj.desc.infoDesc) :
    ServerBus api (v.commit bus) ∧ (v.commit bus).replica = v.applyCommit bus.replica := by
  unfold OwnEvent.commit OwnEvent.applyCommit
  split
  · exact ⟨h, rfl⟩
  · exact h.eventCommit hfound hinfo

lemma foldl_commit (h : ServerBus api bus) {events : List OwnEvent}
    (hfound : ∀ v ∈ events, ∃ o, v.event.obj.object? bus = some o)
    (hinfo : ∀ v ∈ events, v.event.info.On v.event.obj.desc.infoDesc) :
    let bus' := events.foldl (fun bus v => v.commit bus) bus
    ServerBus api bus' ∧ bus'.replica = events.foldl (fun l v => v.applyCommit l) bus.replica := by
  induction events generalizing bus with
  | nil => exact ⟨h, rfl⟩
  | cons v events ih =>
    obtain ⟨o, ho⟩ := hfound v List.mem_cons_self
    obtain ⟨hbus, hreplica⟩ := h.commit ho (hinfo v List.mem_cons_self)
    have hfound' : ∀ w ∈ events, ∃ o, w.event.obj.object? (v.commit bus) = some o := by
      intro w hw
      exact ObjectRef.object?_of_ref (ref_of_flagged ref_commit)
        (hfound w (List.mem_cons_of_mem v hw))
    obtain ⟨hbus', hreplica'⟩ := ih hbus hfound' fun w hw => hinfo w (List.mem_cons_of_mem v hw)
    exact ⟨hbus', hreplica'.trans (by rw [hreplica]; rfl)⟩

lemma foldl_unregister (h : ServerBus api bus) {hs : List UInt16}
    (hfound : ∀ x ∈ hs, ∃ o, bus.object? x = some o) :
    let bus' := hs.foldl (fun bus x => busUnregisterObject x bus) bus
    ServerBus api bus' ∧ bus'.replica =
      (hs.filterMap fun x => (bus.object? x).map Object.ref).foldl
        (fun l r => applyRemove r l) bus.replica := by
  induction hs generalizing bus with
  | nil => exact ⟨h, rfl⟩
  | cons x hs ih =>
    obtain ⟨o, ho⟩ := hfound x List.mem_cons_self
    obtain ⟨hbus, hreplica⟩ := h.unregister ho
    have hsame : (hs.filterMap fun y => ((busUnregisterObject x bus).object? y).map Object.ref) =
        hs.filterMap fun y => (bus.object? y).map Object.ref :=
      List.filterMap_congr fun y _ => ref_unregister
    obtain ⟨hbus', hreplica'⟩ := ih hbus fun y hy => by
      obtain ⟨a, ha⟩ := hfound y (List.mem_cons_of_mem x hy)
      exact ⟨_, by rw [Bus.object?_unregister, ha]; rfl⟩
    rw [hsame] at hreplica'
    rw [List.filterMap_cons_some (b := o.ref) (by rw [ho]; rfl)]
    exact ⟨hbus', hreplica'.trans (by rw [hreplica]; rfl)⟩

/-- The packet of a bus event that is accepted fits the list. -/
lemma busEvent_fits (h : ServerBus api bus) {e : BusEventReq} (hbuilt : e.Built api)
    (hacc : e.Accepted bus) : PacketInfo.Fits api bus.replica (.busEvent (e.packet bus)) := by
  have hremove : ∀ x ∈ e.removeObjs, ∃ o, (bus.object? x).map Object.ref = some o ∧ o.handle = x ∧
      o ∈ bus.replica.map Object.ref := by
    intro x hx
    obtain ⟨o, ho, hflag⟩ := hacc.removeObjs x hx
    exact ⟨o.ref, by rw [ho]; rfl, Bus.object?_handle ho, h.mem_refs ho hflag⟩
  refine ⟨hbuilt.desc, (h.foldl_register (List.nodup_append.mp e.once).1 hacc.addObjs).2.2,
    fun v hv => ?_, ?_,
    fun r hr => ?_⟩
  · obtain ⟨w, hw, rfl⟩ := List.mem_map.mp hv
    obtain ⟨o, ho, hflag⟩ := hacc.objEvents w hw
    obtain ⟨hobj, href⟩ := ObjectRef.object?_eq_some.mp ho
    exact ⟨href ▸ h.mem_refs hobj hflag, (hbuilt.objEvents w hw).desc, (hbuilt.objEvents w hw).info⟩
  · have hhandles : (e.packet bus).removeObjs.map ObjectRef.handle = e.removeObjs := by
      change (e.removeObjs.filterMap _).map _ = _
      rw [List.map_filterMap]
      refine (List.filterMap_congr fun x hx => ?_).trans List.filterMap_some
      obtain ⟨o, ho, hx', -⟩ := hremove x hx
      rw [ho, Option.map_some, hx']
    rw [hhandles]
    exact (List.nodup_append.mp e.once).2.1
  · obtain ⟨x, hx, hr⟩ := List.mem_filterMap.mp hr
    obtain ⟨o, ho, -, hmem⟩ := hremove x hx
    rw [ho, Option.some.injEq] at hr
    exact hr ▸ hmem

/-- A bus event that is accepted makes all its changes: objects are added, then its events are
committed, then objects are removed. -/
lemma busEvent (h : ServerBus api bus) {e : BusEventReq} (hbuilt : e.Built api)
    (hacc : e.Accepted bus) :
    let bus' := serverCommitBusEvent e (e.addObjs.foldl (fun bus x => busRegisterObject x bus) bus)
    ServerBus api bus' ∧ bus'.replica =
      (e.packet bus).removeObjs.foldl (fun l r => applyRemove r l)
        (e.objEvents.foldl (fun l v => v.applyCommit l)
          ((e.packet bus).addObjs.foldl (fun l o => applyAdd o l) bus.replica)) := by
  obtain ⟨hadded, hreplica, -⟩ := h.foldl_register (List.nodup_append.mp e.once).1 hacc.addObjs
  have hevents : ∀ v ∈ e.objEvents, ∃ o,
      v.event.obj.object? (e.addObjs.foldl (fun bus x => busRegisterObject x bus) bus) =
        some o := by
    intro v hv
    obtain ⟨o, ho, -⟩ := hacc.objEvents v hv
    exact ObjectRef.object?_of_ref (ref_foldl_register e.addObjs) ⟨o, ho⟩
  obtain ⟨hcommitted, hreplica'⟩ :=
    hadded.foldl_commit hevents fun v hv => (hbuilt.objEvents v hv).info
  have href : ∀ x, ((e.objEvents.foldl (fun bus v => v.commit bus)
      (e.addObjs.foldl (fun bus x => busRegisterObject x bus) bus)).object? x).map Object.ref =
        (bus.object? x).map Object.ref := fun x =>
    (ref_of_flagged (ref_foldl_commit e.objEvents)).trans (ref_foldl_register e.addObjs)
  have hremoves : ∀ x ∈ e.removeObjs, ∃ o, (e.objEvents.foldl (fun bus v => v.commit bus)
      (e.addObjs.foldl (fun bus x => busRegisterObject x bus) bus)).object? x = some o := by
    intro x hx
    obtain ⟨o, ho, -⟩ := hacc.removeObjs x hx
    have hx' := href x
    rw [ho, Option.map_some, Option.map_eq_some_iff] at hx'
    obtain ⟨b, hb, -⟩ := hx'
    exact ⟨b, hb⟩
  obtain ⟨hremoved, hreplica''⟩ := hcommitted.foldl_unregister hremoves
  refine ⟨hremoved, hreplica''.trans ?_⟩
  rw [hreplica', hreplica, List.filterMap_congr fun x _ => href x]
  rfl

end ServerBus

end Obus
