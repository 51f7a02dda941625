import Obus.Agreement
import Obus.Lib.Related
import Obus.Python.Arrival
import Obus.Python.Client

/-!
# A client of the Python library follows the server

The objects of a client of the Python library show the registered objects of a server (`Mirrors`):
they have the same handles, the same descriptors and the same values in all fields.  A packet that
fits the list of registered objects is decoded, and the client of the Python library makes the
change that the packet stands for (`Mirrors.packet`).

An event refers to its object by the number of the registration, and the event is committed after
the objects of the same bus event have been added.  What carries the argument is that the references
to the objects are kept by events and by additions.
-/

namespace Obus.Python

open Fallible Cursor

/-! ## The same bus in both libraries -/

/-- The descriptors of an object in both libraries; the structures of events are those of the
object. -/
structure SameObject (d : Obus.ObjectDesc) (pd : ObjectDesc) : Prop where
  uid : pd.uid = d.uid.toNat
  names : (pd.structDesc.fieldsDesc.map FieldDesc.name).Nodup
  fields : ∀ g ∈ d.infoDesc, ∃ f ∈ pd.structDesc.fieldsDesc, SameField g f
  events : ∀ e ∈ d.events, ∃ pe, pd.eventsDesc e.uid.toNat = some pe ∧ pe.structDesc = pd.structDesc

/-- The objects of a bus in both libraries.  The Python library does not know the internal bus
events. -/
structure SameBus (api : Obus.BusDesc) (desc : BusDesc) : Prop where
  ok : api.Ok
  objects : ∀ d ∈ api.objects, ∃ pd, desc.objectsDesc d.uid.toNat = some pd ∧ SameObject d pd

/-- The enumerations have labels for the numbers that a struct brings for an object. -/
def ObjectDeclared (desc : BusDesc) (d : Obus.ObjectDesc) (st : Struct) : Prop :=
  ∀ pd, desc.objectsDesc d.uid.toNat = some pd → Declared pd.structDesc st

/-- The Python library knows the bus event in a packet, and its enumerations have labels for the
numbers. -/
def PacketDeclared (desc : BusDesc) : PacketInfo → Prop
  | .conresp _ objects => ∀ o ∈ objects, ObjectDeclared desc o.desc o.info
  | .add o => ObjectDeclared desc o.desc o.info
  | .event e => ObjectDeclared desc e.obj.desc e.info
  | .busEvent e => (∃ pe, desc.eventsDesc e.desc.uid.toNat = some pe) ∧
      (∀ o ∈ e.addObjs, ObjectDeclared desc o.desc o.info) ∧
      ∀ v ∈ e.objEvents, ObjectDeclared desc v.obj.desc v.info
  | .conreq _ | .remove _ | .call _ | .ack _ => True

/-- An object of the Python library shows one of the C library. -/
structure ObjectShows (fl : Floats) (desc : BusDesc) (o : Object) (po : ObusObject) : Prop where
  handle : po.handle = o.handle.toNat
  desc : desc.objectsDesc o.desc.uid.toNat = some po.desc
  struct : po.struct.desc = po.desc.structDesc
  fields : ∀ s ∈ o.info, ∃ f ∈ po.desc.structDesc.fieldsDesc, SameField s.desc f ∧
  Holds fl po.struct f s

/-- The objects of a bus of the Python library show the objects of a list. -/
structure Mirrors (fl : Floats) (api : Obus.BusDesc) (desc : BusDesc) (bus : Bus)
    (l : List Object) : Prop where
  onDesc : bus.desc = desc
  shows : List.Forall₂ (ObjectShows fl desc) l bus.objects
  built : ∀ o ∈ l, o.desc ∈ api.objects ∧ o.info.desc = o.desc.infoDesc
  handles : (l.map Object.handle).Nodup
  numbers : (bus.objects.map ObusObject.number).Nodup
  registered : ∀ po ∈ bus.objects, po.number ≤ bus.registered

/-- An event of the Python library is about an object of the bus, and has what an event of the C
library brings. -/
structure EventShows (fl : Floats) (bus : Bus) (e : Event) (pe : ObusEvent) : Prop where
  obj : pe.obj ∈ bus.objects.map ObusObject.ref
  handle : pe.obj.handle = e.obj.handle.toNat
  info : e.info.On e.obj.desc.infoDesc
  arrived : Arrived fl pe.obj.desc.structDesc e.info pe.struct

/-! ## Small facts -/

/-- The fields of an updated struct are the present fields of the other one, and the fields that
this one does not have. -/
lemma mem_update {dst src : Struct} (h : dst.desc = src.desc) {s : Slot} (hs : s ∈ dst.update src) :
    (∃ s' ∈ src, s'.has = true ∧ s = s'.canon) ∨ s ∈ dst ∧ ∃ s' ∈ src, s'.desc = s.desc ∧
    s'.has = false := by
  induction dst generalizing src with
  | nil => exact absurd hs List.not_mem_nil
  | cons d dst ih =>
    cases src with
    | nil => exact absurd hs List.not_mem_nil
    | cons r src =>
      obtain ⟨hhead, htail⟩ := List.cons.inj h
      rw [Struct.update, List.zipWith_cons_cons] at hs
      rcases List.mem_cons.mp hs with rfl | hs
      · cases hhas : r.has with
        | true => exact Or.inl ⟨r, List.mem_cons_self, hhas, if_pos rfl⟩
        | false => exact Or.inr ⟨List.mem_cons_self, r, List.mem_cons_self, hhead.symm, hhas⟩
      · rcases ih htail hs with ⟨s', hs', hrest⟩ | ⟨hs, s', hs', hrest⟩
        · exact Or.inl ⟨s', List.mem_cons_of_mem r hs', hrest⟩
        · exact Or.inr ⟨List.mem_cons_of_mem d hs, s', List.mem_cons_of_mem r hs', hrest⟩

namespace Mirrors

variable {fl : Floats} {api : Obus.BusDesc} {desc : BusDesc} {bus : Bus} {l : List Object}

/-- What is not an exception takes nothing. -/
lemma takes_lift {α : Type} {r : Except Exc α} {a : α} (h : r = .ok a) : Takes (lift r) [] a :=
  h ▸ takes_pure

/-- The object of a handle. -/
lemma find (h : Mirrors fl api desc bus l) {po : ObusObject} (hpo : po ∈ bus.objects) :
    bus.findObject po.handle = some po := by
  have hnodup : (bus.objects.map ObusObject.handle).Nodup := by
    have hsame : bus.objects.map ObusObject.handle = (l.map Object.handle).map UInt16.toNat := by
      have hrel : List.Forall₂ Eq (bus.objects.map ObusObject.handle)
          (l.map fun o => o.handle.toNat) := by
        rw [List.forall₂_map_left_iff, List.forall₂_map_right_iff]
        exact (h.shows.imp fun o po hshows => hshows.handle).flip
      rw [List.forall₂_eq_eq_eq] at hrel
      rw [hrel, List.map_map]
      rfl
    rw [hsame]
    exact h.handles.map fun a b => UInt16.toNat_inj.mp
  cases hfind : bus.findObject po.handle with
  | none => exact absurd (decide_eq_true rfl) (List.find?_eq_none.mp hfind po hpo)
  | some q =>
    have hq := List.find?_some (p := fun o : ObusObject => decide (o.handle = po.handle)) hfind
    exact congrArg some (List.inj_on_of_nodup_map hnodup (List.mem_of_find?_eq_some hfind) hpo
      (of_decide_eq_true hq))

/-- A registered object of the server is known. -/
lemma findChecked (h : Mirrors fl api desc bus l) (hsame : SameBus api desc) {r : ObjectRef}
    (hr : r ∈ l.map Object.ref) :
    ∃ po ∈ bus.objects, findChecked bus r.desc.uid.toNat r.handle.toNat = .ok po ∧
    po.handle = r.handle.toNat ∧
      desc.objectsDesc r.desc.uid.toNat = some po.desc ∧ SameObject r.desc po.desc := by
  obtain ⟨o, ho, rfl⟩ := List.mem_map.mp hr
  obtain ⟨po, hpo, hshows⟩ := h.shows.exists_right ho
  obtain ⟨pd, hpd, hobject⟩ := hsame.objects o.desc (h.built o ho).1
  obtain rfl : po.desc = pd := Option.some.inj (hshows.desc.symm.trans hpd)
  refine ⟨po, hpo, ?_, hshows.handle, hpd, hobject⟩
  have hfound : bus.findObject o.ref.handle.toNat = some po := hshows.handle ▸ h.find hpo
  unfold Python.findChecked
  rw [hfound]
  exact if_neg (not_not.mpr hobject.uid)

/-! ## What is read -/

/-- An object is read as one that shows it. -/
lemma takes_object (h : Mirrors fl api desc bus l) (hsame : SameBus api desc) {o : Object}
    (ho : o.Full api)
    (hok : o.info.Ok) (hsize : (structBytes o.info).length < 2 ^ 32)
    (hdecl : ObjectDeclared desc o.desc o.info) :
    ∃ po, Takes (ObusObject.decode fl bus) (objectAddBytes o) (some po) ∧
    ObjectShows fl desc o po := by
  obtain ⟨pd, hpd, hobject⟩ := hsame.objects o.desc ho.desc
  have hnodup : (o.info.desc.map Obus.FieldDesc.uid).Nodup := by
    rw [ho.info.desc]
    exact (hsame.ok.objects _ ho.desc).info.1
  have hslots : ∀ s ∈ o.info, s.desc ∈ o.desc.infoDesc := by
    intro s hs
    rw [← ho.info.desc]
    exact List.mem_map_of_mem hs
  obtain ⟨ps, hread, harrived⟩ := takes_struct fl hobject.names hok hnodup
    (fun s hs _ => hobject.fields s.desc (hslots s hs)) (hdecl pd hpd)
  refine ⟨{ desc := pd, handle := o.handle.toNat, struct := ps }, ?_, rfl, hpd, harrived.on,
    fun s hs => ?_⟩
  · have hdesc : descriptorFor o.desc.uid.toNat (bus.desc.objectsDesc o.desc.uid.toNat) =
        .ok pd := by
      rw [h.onDesc, hpd]
      rfl
    refine (takes_readU16 o.desc.uid).bind
      ((takes_readU16 o.handle).bind (takes_decodeContent ?_ hsize))
    exact (takes_lift hdesc).bind (hread.bind_nil takes_pure)
  · obtain ⟨f, hf, hfield⟩ := hobject.fields s.desc (hslots s hs)
    exact ⟨f, hf, hfield, harrived.present s hs (ho.fields s hs) f hf hfield⟩

/-- An event is read as one that shows it. -/
lemma takes_event (h : Mirrors fl api desc bus l) (hsame : SameBus api desc) {e : Event}
    (he : e.Of l)
    (hok : e.info.Ok) (hsize : (structBytes e.info).length < 2 ^ 32)
    (hdecl : ObjectDeclared desc e.obj.desc e.info) :
    ∃ pe, Takes (ObusEvent.decode fl bus) (eventBytes e) (some pe) ∧ EventShows fl bus e pe := by
  obtain ⟨po, hpo, hchecked, hhandle, hpd, hobject⟩ := h.findChecked hsame he.obj
  obtain ⟨d, hd, hinfo⟩ : ∃ d ∈ api.objects, e.obj.desc = d := by
    obtain ⟨o, ho, href⟩ := List.mem_map.mp he.obj
    exact ⟨o.desc, (h.built o ho).1, (congrArg ObjectRef.desc href).symm⟩
  subst hinfo
  obtain ⟨pe, hpe, hstruct⟩ := hobject.events e.desc he.desc
  have hnodup : (e.info.desc.map Obus.FieldDesc.uid).Nodup := by
    rw [he.info.desc]
    exact (hsame.ok.objects _ hd).info.1
  have hslots : ∀ s ∈ e.info, s.desc ∈ e.obj.desc.infoDesc := by
    intro s hs
    rw [← he.info.desc]
    exact List.mem_map_of_mem hs
  obtain ⟨ps, hread, harrived⟩ := takes_struct fl hobject.names hok hnodup
    (fun s hs _ => hobject.fields s.desc (hslots s hs)) (hdecl po.desc hpd)
  refine ⟨⟨pe, po.ref, ps⟩, ?_, List.mem_map_of_mem hpo, hhandle, he.info, harrived⟩
  have hdesc : descriptorFor e.desc.uid.toNat (po.desc.eventsDesc e.desc.uid.toNat) = .ok pe := by
    rw [hpe]
    rfl
  refine (takes_readU16 e.obj.desc.uid).bind
    ((takes_readU16 e.obj.handle).bind ((takes_readU16 e.desc.uid).bind ?_))
  refine takes_decodeContent ((takes_lift hchecked).bind ((takes_lift hdesc).bind ?_)) hsize
  rw [hstruct]
  exact hread.bind_nil takes_pure

/-- Elements that are all read are kept. -/
lemma takes_decodeMany {α β : Type} {p : Py (Option β)} {bytes : α → List UInt8} {R : α → β → Prop}
    {as : List α} (hp : ∀ a ∈ as, ∃ b, Takes p (bytes a) (some b) ∧ R a b) :
    ∃ bs, Takes (decodeMany p as.length) (as.flatMap bytes) bs ∧ List.Forall₂ R as bs := by
  have hall : ∀ acc : List β, ∃ bs,
      Takes (iter (fun l => p >>= fun a => pure (l ++ a.toList)) as.length acc)
      (as.flatMap bytes) (acc ++ bs) ∧ List.Forall₂ R as bs := by
    induction as with
    | nil => exact fun acc => ⟨[], by rw [List.append_nil]; exact takes_pure, .nil⟩
    | cons a as ih =>
      intro acc
      obtain ⟨b, hb, hR⟩ := hp a List.mem_cons_self
      obtain ⟨bs, hbs, hrel⟩ := ih (fun c hc => hp c (List.mem_cons_of_mem a hc)) (acc ++ [b])
      refine ⟨b :: bs, ?_, .cons hR hrel⟩
      rw [List.append_cons]
      exact Takes.bind (f := fun l =>
        iter (fun l => p >>= fun a => pure (l ++ a.toList)) as.length l)
        (hb.bind_nil takes_pure) hbs
  exact hall []

/-- Added objects are read as objects that show them. -/
lemma takes_objects (h : Mirrors fl api desc bus l) (hsame : SameBus api desc)
    {objects : List Object} (hfull : ∀ o ∈ objects, o.Full api) (hok : ∀ o ∈ objects, o.info.Ok)
    (hsize : (objects.flatMap objectAddBytes).length < 2 ^ 32)
    (hdecl : ∀ o ∈ objects, ObjectDeclared desc o.desc o.info) :
    ∃ pos, Takes (decodeMany (ObusObject.decode fl bus) objects.length)
      (objects.flatMap objectAddBytes) pos ∧
      List.Forall₂ (ObjectShows fl desc) objects pos := by
  refine takes_decodeMany fun o ho => h.takes_object hsame (hfull o ho) (hok o ho) ?_ (hdecl o ho)
  have hle := length_le_flatMap objectAddBytes ho
  rw [length_objectAddBytes] at hle
  omega

/-- Events are read as events that show them. -/
lemma takes_events (h : Mirrors fl api desc bus l) (hsame : SameBus api desc) {events : List Event}
    (hof : ∀ e ∈ events, e.Of l) (hok : ∀ e ∈ events, e.info.Ok)
    (hsize : (events.flatMap eventBytes).length < 2 ^ 32)
    (hdecl : ∀ e ∈ events, ObjectDeclared desc e.obj.desc e.info) :
    ∃ pes, Takes (decodeMany (ObusEvent.decode fl bus) events.length)
      (events.flatMap eventBytes) pes ∧
      List.Forall₂ (EventShows fl bus) events pes := by
  refine takes_decodeMany fun e he => h.takes_event hsame (hof e he) (hok e he) ?_ (hdecl e he)
  have hle := length_le_flatMap eventBytes he
  rw [length_eventBytes] at hle
  omega

/-- An object that is removed is found. -/
lemma takes_remove (h : Mirrors fl api desc bus l) (hsame : SameBus api desc) {r : ObjectRef}
    (hr : r ∈ l.map Object.ref) : ∃ po ∈ bus.objects, po.handle = r.handle.toNat ∧
      Takes (decodeRemove bus) (objectRemoveBytes r) (some po.ref) ∧
      Takes (rxPacketRemove bus) (objectRemoveBytes r) (.remove po.ref) := by
  obtain ⟨po, hpo, hchecked, hhandle, -, -⟩ := h.findChecked hsame hr
  refine ⟨po, hpo, hhandle, (takes_readU16 r.desc.uid).bind ((takes_readU16 r.handle).bind_nil ?_),
    (takes_readU16 r.desc.uid).bind ((takes_readU16 r.handle).bind_nil ?_)⟩
  · rw [hchecked]
    exact takes_pure
  · rw [hchecked]
    exact takes_pure

/-! ## Changes of the bus -/

lemma mem_objects (h : Mirrors fl api desc bus l) {po q : ObusObject} (hpo : po ∈ bus.objects)
    (hq : q ∈ bus.objects) (hhandle : po.handle = q.handle) : po = q := by
  have hfound := h.find hpo
  rw [hhandle, h.find hq] at hfound
  exact (Option.some.inj hfound).symm

/-- A new object is registered behind the others. -/
lemma register (h : Mirrors fl api desc bus l) {o : Object} {po : ObusObject}
    (hshows : ObjectShows fl desc o po)
    (ho : o.Full api) (hfresh : o.handle ∉ l.map Object.handle) :
    ∃ bus', bus.registerObject po = .ok bus' ∧ Mirrors fl api desc bus' (applyAdd o l) ∧
      ∀ r ∈ bus.objects.map ObusObject.ref, r ∈ bus'.objects.map ObusObject.ref := by
  have hzero : po.handle ≠ 0 := by
    rw [hshows.handle]
    exact fun hz => ho.handle (UInt16.toNat_inj.mp hz)
  have hnone : ¬(bus.findObject po.handle).isSome = true := by
    intro hsome
    obtain ⟨q, hq⟩ := Option.isSome_iff_exists.mp hsome
    have hhandle := List.find?_some (p := fun o : ObusObject => decide (o.handle = po.handle)) hq
    obtain ⟨a, ha, hashows⟩ := h.shows.exists_left (List.mem_of_find?_eq_some hq)
    refine hfresh (List.mem_map.mpr ⟨a, ha, UInt16.toNat_inj.mp ?_⟩)
    rw [← hashows.handle, of_decide_eq_true hhandle, hshows.handle]
  have hnew : ObjectShows fl desc o.canon { po with number := bus.registered + 1 } := by
    refine ⟨hshows.handle, hshows.desc, hshows.struct, fun s hs => ?_⟩
    obtain ⟨s', hs', rfl⟩ := List.mem_map.mp hs
    obtain ⟨f, hf, hfield, v, hv, hval⟩ := hshows.fields s' hs'
    exact ⟨f, hf, ⟨hfield.uid, hfield.type⟩, v, hv, (fieldShows_fieldCopy _ _ _).mpr hval⟩
  refine ⟨_, (if_neg hzero).trans (if_neg hnone),
    ⟨h.onDesc, List.rel_append h.shows (.cons hnew .nil), ?_, ?_, ?_, ?_⟩, ?_⟩
  · intro a ha
    rcases List.mem_append.mp ha with ha | ha
    · exact h.built a ha
    · rw [List.mem_singleton.mp ha]
      refine ⟨ho.desc, Eq.trans ?_ ho.info.desc⟩
      exact (List.map_map).trans rfl
  · rw [applyAdd_handles]
    exact List.nodup_append.mpr ⟨h.handles, List.nodup_singleton _, fun a ha b hb heq => hfresh
      (by rw [← List.mem_singleton.mp hb, ← heq]; exact ha)⟩
  · rw [List.map_append]
    refine List.nodup_append.mpr ⟨h.numbers, List.nodup_singleton _, fun a ha b hb heq => ?_⟩
    obtain ⟨q, hq, rfl⟩ := List.mem_map.mp ha
    have hle := h.registered q hq
    have hb' : b = bus.registered + 1 := List.mem_singleton.mp hb
    omega
  · intro q hq
    rcases List.mem_append.mp hq with hq | hq
    · exact Nat.le_succ_of_le (h.registered q hq)
    · rw [List.mem_singleton.mp hq]
  · intro r hr
    rw [List.map_append]
    exact List.mem_append_left _ hr

/-- What is merged shows the updated struct. -/
lemma shows_update {o : Object} {po : ObusObject} (hshows : ObjectShows fl desc o po) {e : Event}
    {ps m : ObusStruct} (hinfo : o.info.desc = e.info.desc)
    (hnodup : (e.info.desc.map Obus.FieldDesc.uid).Nodup)
    (harrived : Arrived fl po.desc.structDesc e.info ps) (hdesc : m.desc = po.struct.desc)
    (hm : ∀ f ∈ po.struct.desc.fieldsDesc, m.fields f.name = (ps.fields f.name).or
      (po.struct.fields f.name)) :
    ObjectShows fl desc { o with info := o.info.update e.info } { po with struct := m } := by
  refine ⟨hshows.handle, hshows.desc, hdesc.trans hshows.struct, fun s hs => ?_⟩
  rw [hshows.struct] at hm
  rcases mem_update hinfo hs with ⟨s', hs', hhas, rfl⟩ | ⟨hold, s', hs', hsame, hhas⟩
  · have hmem : s'.desc ∈ o.info.desc := by
      rw [hinfo]
      exact List.mem_map_of_mem hs'
    obtain ⟨a, ha, hades⟩ := List.mem_map.mp hmem
    obtain ⟨f, hf, hfield, -⟩ := hshows.fields a ha
    rw [hades] at hfield
    obtain ⟨v, hv, hval⟩ := harrived.present s' hs' hhas f hf hfield
    refine ⟨f, hf, ⟨hfield.uid, hfield.type⟩, v, ?_, (fieldShows_fieldCopy _ _ _).mpr hval⟩
    rw [hm f hf, hv]
    rfl
  · obtain ⟨f, hf, hfield, v, hv, hval⟩ := hshows.fields s hold
    refine ⟨f, hf, hfield, v, ?_, hval⟩
    have hnone : ps.fields f.name = none := by
      refine harrived.absent f hf fun r hr hrhas heq => ?_
      -- a present field with the same uid would be the one that is absent
      have huid : r.desc.uid = s'.desc.uid := by
        rw [hsame]
        exact UInt16.toNat_inj.mp (heq.symm.trans hfield.uid)
      rw [Struct.desc, List.map_map] at hnodup
      rw [List.inj_on_of_nodup_map hnodup hr hs' huid, hhas] at hrhas
      exact Bool.false_ne_true hrhas
    rw [hm f hf, hnone]
    exact hv

/-- An event is merged into its object. -/
lemma merge (h : Mirrors fl api desc bus l) (hapi : api.Ok) {e : Event} {pe : ObusEvent}
    (he : EventShows fl bus e pe) (hr : e.obj ∈ l.map Object.ref) :
    ∃ bus', bus.mergeInto pe.obj.number pe.struct = .ok bus' ∧
    Mirrors fl api desc bus' (applyEvent e l) ∧
      bus'.objects.map ObusObject.ref = bus.objects.map ObusObject.ref := by
  obtain ⟨po, hpo, href⟩ := List.mem_map.mp he.obj
  obtain ⟨a, ha, haref⟩ := List.mem_map.mp hr
  have hsameDesc : ∀ o ∈ l, o.handle = e.obj.handle → o.desc = e.obj.desc ∧
      o.info.desc = e.info.desc := by
    intro o ho heq
    have hao : a = o := List.inj_on_of_nodup_map h.handles ha ho
      ((congrArg ObjectRef.handle haref).trans heq.symm)
    have hdesc : o.desc = e.obj.desc := hao ▸ congrArg ObjectRef.desc haref
    exact ⟨hdesc, by rw [(h.built o ho).2, hdesc, he.info.desc]⟩
  have hdescOf : po.desc = pe.obj.desc := congrArg ObjRef.desc href
  have hnumberOf : po.number = pe.obj.number := congrArg ObjRef.number href
  have hhandleOf : po.handle = pe.obj.handle := congrArg ObjRef.handle href
  obtain ⟨a', -, hashows⟩ := h.shows.exists_left hpo
  obtain ⟨m, hmerge, hmdesc, hmfields⟩ := @ObusStruct.merge_spec po.struct pe.struct
    (by rw [hashows.struct, hdescOf, he.arrived.on])
  have hnumber : ∀ q ∈ bus.objects, q.number = pe.obj.number → q = po := fun q hq heq =>
    List.inj_on_of_nodup_map h.numbers hq hpo (heq.trans hnumberOf.symm)
  have hall := List.mapM_eq_ok (l := bus.objects) (f := fun obj =>
      if obj.number = pe.obj.number
        then (fun merged => { obj with struct := merged }) <$> obj.struct.merge pe.struct
      else .ok obj) (g := fun obj => if obj.number = pe.obj.number then { obj with struct := m }
        else obj) (by
    intro q hq
    by_cases heq : q.number = pe.obj.number
    · obtain rfl := hnumber q hq heq
      simp only [if_pos heq, hmerge]
      rfl
    · simp only [if_neg heq])
  refine ⟨{ bus with objects := bus.objects.map fun obj =>
      if obj.number = pe.obj.number then { obj with struct := m } else obj }, ?_, ?_, ?_⟩
  · unfold Bus.mergeInto
    rw [hall]
    rfl
  · refine ⟨h.onDesc, ?_, ?_, ?_, ?_, ?_⟩
    · rw [applyEvent, List.forall₂_map_left_iff, List.forall₂_map_right_iff]
      refine h.shows.with_mem.imp fun o q hrel => ?_
      obtain ⟨ho, hq, hshows⟩ := hrel
      by_cases heq : o.handle = e.obj.handle
      · have hsameHandle : q.handle = po.handle := by rw [hshows.handle, heq, hhandleOf, he.handle]
        obtain rfl := h.mem_objects hq hpo hsameHandle
        obtain ⟨hdesc, hinfo⟩ := hsameDesc o ho heq
        rw [if_pos heq, if_pos hnumberOf]
        have hnodup : (e.info.desc.map Obus.FieldDesc.uid).Nodup := by
          rw [he.info.desc, ← hdesc]
          exact (hapi.objects _ (h.built o ho).1).info.1
        exact shows_update hshows hinfo hnodup (hdescOf ▸ he.arrived) hmdesc hmfields
      · have hother : q.number ≠ pe.obj.number := by
          intro hnum
          refine heq (UInt16.toNat_inj.mp ?_)
          rw [← hshows.handle, hnumber q hq hnum, hhandleOf, he.handle]
        rw [if_neg heq, if_neg hother]
        exact hshows
    · intro o ho
      obtain ⟨o', ho', rfl⟩ := List.mem_map.mp ho
      split
      · next heq =>
        exact ⟨(h.built o' ho').1, (Struct.update_desc (hsameDesc o' ho' heq).2).trans
          (h.built o' ho').2⟩
      · exact h.built o' ho'
    · have hhandles : (applyEvent e l).map Object.handle = l.map Object.handle := by
        have hrefs := congrArg (List.map ObjectRef.handle) (applyEvent_refs e l)
        rwa [List.map_map, List.map_map] at hrefs
      rw [hhandles]
      exact h.handles
    · have hnumbers : (bus.objects.map fun obj => if obj.number = pe.obj.number
          then { obj with struct := m } else obj).map
          ObusObject.number = bus.objects.map ObusObject.number := by
        rw [List.map_map]
        refine List.map_congr_left fun q _ => ?_
        simp only [Function.comp_apply]
        split <;> rfl
      rw [hnumbers]
      exact h.numbers
    · intro q hq
      obtain ⟨q', hq', rfl⟩ := List.mem_map.mp hq
      split <;> exact h.registered q' hq'
  · rw [List.map_map]
    refine List.map_congr_left fun q _ => ?_
    simp only [Function.comp_apply]
    split <;> rfl

/-- An object is unregistered. -/
lemma unregister (h : Mirrors fl api desc bus l) {r : ObjectRef} {pr : ObjRef}
    (hr : r ∈ l.map Object.ref) (hhandle : pr.handle = r.handle.toNat) :
    ∃ bus', bus.unregisterObject pr = .ok bus' ∧ Mirrors fl api desc bus' (applyRemove r l) := by
  obtain ⟨o, ho, rfl⟩ := List.mem_map.mp hr
  obtain ⟨po, hpo, hshows⟩ := h.shows.exists_right ho
  have hfound : bus.findObject pr.handle = some po := by
    rw [hhandle]
    exact hshows.handle ▸ h.find hpo
  have hsome : ¬(bus.findObject pr.handle).isNone = true := by
    rw [hfound]
    exact Bool.false_ne_true
  refine ⟨_, if_neg hsome, h.onDesc, ?_, ?_, ?_, ?_, ?_⟩
  · refine List.rel_filter (fun a q hrel => ?_) h.shows
    simp only [decide_eq_true_iff, hrel.handle, hhandle]
    exact not_congr UInt16.toNat_inj.symm
  · exact fun a ha => h.built a (List.mem_filter.mp ha).1
  · exact h.handles.sublist (List.filter_sublist.map _)
  · exact h.numbers.sublist (List.filter_sublist.map _)
  · exact fun q hq => h.registered q (List.mem_filter.mp hq).1

end Mirrors

/-! ## The client -/

namespace Client

@[simp] lemma note_bus (c : Client) (n : Note) : (c.note n).bus = c.bus := rfl

@[simp] lemma objectNote_bus (c : Client) (desc : ObjectDesc) (n : Note) :
    (c.objectNote desc n).bus = c.bus := by
  unfold objectNote
  split <;> rfl

/-- Calls that are aborted leave the bus as it is. -/
@[simp] lemma removePendingCalls_bus (c : Client) (obj : ObjRef) :
    (c.removePendingCalls obj).bus = c.bus := by
  unfold removePendingCalls
  generalize c.pendingCalls.filter _ = calls
  induction calls generalizing c with
  | nil => rfl
  | cons call calls ih =>
    rw [List.foldl_cons, ih]
    exact objectNote_bus _ _ _

lemma recvAck_bus (c : Client) (handle : ℕ) (ack : CallAck) :
    (c.recvAck handle ack).bus = c.bus := by
  unfold recvAck
  split
  · rfl
  · exact objectNote_bus _ _ _

lemma recvAck_state (c : Client) (handle : ℕ) (ack : CallAck) :
    (c.recvAck handle ack).state = c.state := by
  unfold recvAck objectNote
  split
  · rfl
  · dsimp only
    split <;> rfl

end Client

namespace Mirrors

variable {fl : Floats} {api : Obus.BusDesc} {desc : BusDesc} {c : Client} {l : List Object}

lemma of_bus (h : Mirrors fl api desc c.bus l) {c' : Client} (hbus : c'.bus = c.bus) :
    Mirrors fl api desc c'.bus l :=
  hbus.symm ▸ h

lemma dispatchAdd (h : Mirrors fl api desc c.bus l) {o : Object} {po : ObusObject}
    (hshows : ObjectShows fl desc o po)
    (ho : o.Full api) (hfresh : o.handle ∉ l.map Object.handle) :
    Mirrors fl api desc (c.dispatchAdd po).bus (applyAdd o l) ∧
      ∀ r ∈ c.bus.objects.map ObusObject.ref,
      r ∈ (c.dispatchAdd po).bus.objects.map ObusObject.ref := by
  obtain ⟨bus', hregister, hmirrors, hrefs⟩ := h.register hshows ho hfresh
  have hbus : (c.dispatchAdd po).bus = bus' := by
    unfold Client.dispatchAdd
    rw [hregister]
    exact Client.objectNote_bus _ _ _
  rw [hbus]
  exact ⟨hmirrors, hrefs⟩

lemma dispatchEvent (h : Mirrors fl api desc c.bus l) (hapi : api.Ok) {e : Event} {pe : ObusEvent}
    (he : EventShows fl c.bus e pe) (hr : e.obj ∈ l.map Object.ref) :
    ∃ c', c.dispatchEvent pe = .ok c' ∧ Mirrors fl api desc c'.bus (applyEvent e l) ∧
      c'.bus.objects.map ObusObject.ref = c.bus.objects.map ObusObject.ref := by
  obtain ⟨bus', hmerge, hmirrors, hrefs⟩ := h.merge hapi he hr
  refine ⟨{ c.objectNote pe.obj.desc (.objectEvent pe) with bus := bus' }, ?_, hmirrors, hrefs⟩
  unfold Client.dispatchEvent
  simp only [Client.objectNote_bus, hmerge]
  rfl

lemma dispatchRemove (h : Mirrors fl api desc c.bus l) {r : ObjectRef} {pr : ObjRef}
    (hr : r ∈ l.map Object.ref)
    (hhandle : pr.handle = r.handle.toNat) :
    Mirrors fl api desc (c.dispatchRemove pr).bus (applyRemove r l) := by
  obtain ⟨bus', hunregister, hmirrors⟩ := h.unregister hr hhandle
  have hbus : (c.dispatchRemove pr).bus = bus' := by
    unfold Client.dispatchRemove
    simp only [Client.removePendingCalls_bus, Client.objectNote_bus, hunregister]
  rw [hbus]
  exact hmirrors

lemma foldl_dispatchAdd (h : Mirrors fl api desc c.bus l) {objects : List Object}
    {pos : List ObusObject}
    (hshows : List.Forall₂ (ObjectShows fl desc) objects pos) (hadds : Adds api objects l) :
    Mirrors fl api desc (pos.foldl Client.dispatchAdd c).bus
      (objects.foldl (fun l o => applyAdd o l) l) ∧
      ∀ r ∈ c.bus.objects.map ObusObject.ref,
      r ∈ (pos.foldl Client.dispatchAdd c).bus.objects.map ObusObject.ref := by
  induction hshows generalizing c l with
  | nil => exact ⟨h, fun _ => id⟩
  | @cons o po objects pos hfirst _ ih =>
    have hfresh : o.handle ∉ l.map Object.handle := fun hmem =>
      (List.nodup_append.mp hadds.fresh).2.2 _ hmem _ List.mem_cons_self rfl
    obtain ⟨hmirrors, hrefs⟩ := h.dispatchAdd hfirst (hadds.full o List.mem_cons_self) hfresh
    have hadds' : Adds api objects (applyAdd o l) := by
      refine ⟨fun a ha => hadds.full a (List.mem_cons_of_mem o ha), ?_⟩
      rw [applyAdd_handles, List.append_assoc]
      exact hadds.fresh
    obtain ⟨hmirrors', hrefs'⟩ := ih hmirrors hadds'
    exact ⟨hmirrors', fun r hr => hrefs' r (hrefs r hr)⟩

lemma foldlM_dispatchEvent (h : Mirrors fl api desc c.bus l) (hapi : api.Ok) {events : List Event}
    {pes : List ObusEvent} {bus : Bus} (hshows : List.Forall₂ (EventShows fl bus) events pes)
    (hrefs : ∀ r ∈ bus.objects.map ObusObject.ref, r ∈ c.bus.objects.map ObusObject.ref)
    (hof : ∀ v ∈ events, v.obj ∈ l.map Object.ref) :
    ∃ c', pes.foldlM Client.dispatchEvent c = .ok c' ∧
      Mirrors fl api desc c'.bus (events.foldl (fun l v => applyEvent v l) l) := by
  induction hshows generalizing c l with
  | nil => exact ⟨c, rfl, h⟩
  | @cons e pe events pes hfirst _ ih =>
    have hhere : EventShows fl c.bus e pe :=
      ⟨hrefs _ hfirst.obj, hfirst.handle, hfirst.info, hfirst.arrived⟩
    obtain ⟨c₁, hdispatch, hmirrors, hkept⟩ := h.dispatchEvent hapi hhere (hof e List.mem_cons_self)
    obtain ⟨c', hrest, hmirrors'⟩ := ih hmirrors (fun r hr => hkept ▸ hrefs r hr) fun v hv => by
      rw [applyEvent_refs]
      exact hof v (List.mem_cons_of_mem e hv)
    refine ⟨c', ?_, hmirrors'⟩
    rw [List.foldlM_cons, hdispatch]
    exact hrest

lemma foldl_dispatchRemove (h : Mirrors fl api desc c.bus l) {refs : List ObjectRef}
    {prs : List ObjRef} (hhandles : List.Forall₂ (fun r pr => pr.handle = r.handle.toNat) refs prs)
    (hnodup : (refs.map ObjectRef.handle).Nodup) (hrefs : ∀ r ∈ refs, r ∈ l.map Object.ref) :
    Mirrors fl api desc (prs.foldl Client.dispatchRemove c).bus
      (refs.foldl (fun l r => applyRemove r l) l) := by
  induction hhandles generalizing c l with
  | nil => exact h
  | @cons r pr refs prs hfirst _ ih =>
    rw [List.map_cons, List.nodup_cons] at hnodup
    refine ih (h.dispatchRemove (hrefs r List.mem_cons_self) hfirst) hnodup.2 fun q hq => ?_
    refine mem_refs_applyRemove (hrefs q (List.mem_cons_of_mem r hq)) fun heq => hnodup.1 ?_
    exact heq ▸ List.mem_map_of_mem hq

/-- A bus event is dispatched: objects are added, events are merged and objects are removed. -/
lemma notifyBusEvent (h : Mirrors fl api desc c.bus l) (hapi : api.Ok) (type : BusEventType)
    {objects : List Object}
    {pos : List ObusObject} {events : List Event} {pes : List ObusEvent} {refs : List ObjectRef}
    {prs : List ObjRef}
    (hobjects : List.Forall₂ (ObjectShows fl desc) objects pos)
    (hevents : List.Forall₂ (EventShows fl c.bus) events pes)
    (hremoves : List.Forall₂ (fun r pr => pr.handle = r.handle.toNat) refs prs)
    (hadds : Adds api objects l)
    (hof : ∀ v ∈ events, v.obj ∈ l.map Object.ref) (hnodup : (refs.map ObjectRef.handle).Nodup)
    (hrefs : ∀ r ∈ refs, r ∈ l.map Object.ref) :
    ∃ c', c.notifyBusEvent ⟨type, pos, prs, pes⟩ = .ok c' ∧ Mirrors fl api desc c'.bus
      (refs.foldl (fun l r => applyRemove r l) (events.foldl (fun l v => applyEvent v l)
        (objects.foldl (fun l o => applyAdd o l) l))) := by
  have hnote : Mirrors fl api desc (c.note (.busEvent type)).bus l := h
  obtain ⟨hadded, hkept⟩ := hnote.foldl_dispatchAdd hobjects hadds
  have hmore := foldl_applyAdd_refs objects (l := l)
  obtain ⟨c', hdispatch, hmerged⟩ := hadded.foldlM_dispatchEvent hapi hevents hkept fun v hv =>
    hmore _ (hof v hv)
  refine ⟨prs.foldl Client.dispatchRemove c', ?_,
    hmerged.foldl_dispatchRemove hremoves hnodup fun r hr => ?_⟩
  · unfold Client.notifyBusEvent Client.dispatchBusEvent
    rw [hdispatch]
    rfl
  · rw [foldl_applyEvent_refs]
    exact hmore r (hrefs r hr)

end Mirrors

namespace Client

variable {fl : Floats} {c c' : Client}

/-- A payload that is taken as a whole is handled. -/
lemma recvPacket_of_takes {type : PacketType} {bs : List UInt8} {packet : RxPacket}
    (h : Takes (rxPacketClass fl c.bus type) bs packet) (hhandle : c.handlePacket packet = .ok c') :
    c.recvPacket fl type bs = .ok c' := by
  have hlead := h [] []
  rw [List.nil_append, List.append_nil, List.length_nil] at hlead
  unfold Fallible.Leads at hlead
  unfold recvPacket rxRawPacketDecode
  rw [hlead]
  exact hhandle

/-- An acknowledgement changes the pending calls at most; one with an unknown status is dropped. -/
lemma recvPacket_ack (fl : Floats) (c : Client) (a : Ack) :
    ∃ c', c.recvPacket fl .ack (PacketInfo.ack a).bodyBytes = .ok c' ∧ c'.bus = c.bus ∧
    c'.state = c.state := by
  cases hack : CallAck.fromInt a.status.toNat with
  | ok ack =>
    refine ⟨c.recvAck a.handle.toNat ack,
      recvPacket_of_takes (?_ : Takes _ _ (RxPacket.ack a.handle.toNat ack)) rfl,
      c.recvAck_bus _ _, c.recvAck_state _ _⟩
    refine (takes_readU16 a.handle).bind ((takes_readU8 a.status).bind_nil ?_)
    rw [hack]
    exact takes_pure
  | error e =>
    refine ⟨c, ?_, rfl, rfl⟩
    have hhandle := takes_readU16 a.handle [] (bigEndian 1 a.status.toNat)
    have hstatus := takes_readU8 a.status (bigEndian 2 a.handle.toNat) []
    rw [List.append_nil] at hstatus
    have hfails : rxPacketClass fl c.bus .ack ⟨(PacketInfo.ack a).bodyBytes, 0⟩ =
        .error (.decodeError (.invalidCallAck a.status.toNat)) := by
      refine (bind_of_ok hhandle).trans ((bind_of_ok hstatus).trans ?_)
      rw [hack]
      rfl
    unfold recvPacket rxRawPacketDecode
    rw [hfails]
    rfl

end Client

namespace Mirrors

variable {fl : Floats} {api : Obus.BusDesc} {desc : BusDesc} {c : Client} {l : List Object}

/-- A packet that fits is decoded, and the client makes the change that it stands for. -/
lemma packet (h : Mirrors fl api desc c.bus l) (hsame : SameBus api desc) {info : PacketInfo}
    (hfits : info.Fits api l)
    (hstate : info.type = .conresp → c.state = .connecting) (hok : info.Ok)
    (hlen : info.bytes.length < 2 ^ 32) (hdecl : PacketDeclared desc info) :
    ∃ c', c.recvPacket fl info.type info.bodyBytes = .ok c' ∧
    Mirrors fl api desc c'.bus (info.apply l) := by
  rw [PacketInfo.bytes_length] at hlen
  have hbody : info.bodyBytes.length < 2 ^ 32 := by omega
  cases info with
  | conreq req => exact absurd hfits id
  | call call => exact absurd hfits id
  | conresp status objects =>
    obtain ⟨rfl, hadds⟩ := hfits
    simp only [PacketInfo.bodyBytes, List.length_append, bigEndian_length] at hbody
    obtain ⟨pos, htakes, hshows⟩ := h.takes_objects hsame hadds.full hok.2 (by omega) hdecl
    have hopen : Mirrors fl api desc ({ c with state := .connected } : Client).bus l := h
    obtain ⟨c', hnotify, hmirrors⟩ :=
      hopen.notifyBusEvent hsame.ok .connected hshows .nil .nil hadds
      (fun v hv => absurd hv List.not_mem_nil) List.nodup_nil fun r hr => absurd hr List.not_mem_nil
    refine ⟨c', Client.recvPacket_of_takes (?_ : Takes _ _ (RxPacket.connResp 0 pos)) ?_, hmirrors⟩
    · exact (takes_readU8 _).bind
        ((takes_unpack (lt_of_lt_of_le hok.1 (by decide))).bind (htakes.bind_nil takes_pure))
    · exact (if_neg (not_not.mpr (hstate rfl))).trans ((if_neg (not_not.mpr rfl)).trans hnotify)
  | add o =>
    simp only [PacketInfo.bodyBytes, length_objectAddBytes] at hbody
    have hfull := hfits.full o List.mem_cons_self
    obtain ⟨po, htakes, hshows⟩ := h.takes_object hsame hfull hok (by omega) hdecl
    obtain ⟨c', hnotify, hmirrors⟩ :=
      h.notifyBusEvent hsame.ok .objectRegistered (.cons hshows .nil) .nil .nil hfits
      (fun v hv => absurd hv List.not_mem_nil) List.nodup_nil fun r hr => absurd hr List.not_mem_nil
    exact ⟨c', Client.recvPacket_of_takes (htakes.bind_nil takes_pure) hnotify, hmirrors⟩
  | remove r =>
    obtain ⟨r, rfl, hr⟩ := hfits
    obtain ⟨po, -, hhandle, -, htakes⟩ := h.takes_remove hsame hr
    obtain ⟨c', hnotify, hmirrors⟩ := h.notifyBusEvent hsame.ok .objectUnregistered .nil .nil
      (List.Forall₂.cons (b := po.ref) hhandle .nil)
        (Adds.mk (fun o ho => absurd ho List.not_mem_nil) (by simpa using h.handles))
      (fun v hv => absurd hv List.not_mem_nil) (List.nodup_singleton _)
      fun q hq => (List.mem_singleton.mp hq).symm ▸ hr
    exact ⟨c', Client.recvPacket_of_takes htakes hnotify, hmirrors⟩
  | event e =>
    simp only [PacketInfo.bodyBytes, length_eventBytes] at hbody
    obtain ⟨pe, htakes, hshows⟩ := h.takes_event hsame hfits hok (by omega) hdecl
    obtain ⟨c', hnotify, hmirrors⟩ :=
      h.notifyBusEvent hsame.ok .objectEvent .nil (.cons hshows .nil) .nil
      (Adds.mk (fun o ho => absurd ho List.not_mem_nil) (by simpa using h.handles))
      (fun v hv => (List.mem_singleton.mp hv).symm ▸ hfits.obj) List.nodup_nil fun r hr =>
        absurd hr List.not_mem_nil
    exact ⟨c', Client.recvPacket_of_takes (htakes.bind_nil takes_pure) hnotify, hmirrors⟩
  | busEvent e =>
    obtain ⟨-, hadds, hevents, hnodup, hremoves⟩ := hfits
    obtain ⟨⟨haddCount, hremoveCount, heventCount⟩, haddOk, heventOk⟩ := hok
    simp only [PacketInfo.bodyBytes, busEventBytes, List.length_append, bigEndian_length] at hbody
    obtain ⟨⟨pd, hpd⟩, haddDecl, heventDecl⟩ := hdecl
    obtain ⟨pos, htakesAdd, hshowsAdd⟩ :=
      h.takes_objects hsame hadds.full haddOk (by omega) haddDecl
    obtain ⟨pes, htakesEvents, hshowsEvents⟩ :=
      h.takes_events hsame hevents heventOk (by omega) heventDecl
    have hremove : ∀ r ∈ e.removeObjs, ∃ pr : ObjRef,
        Takes (decodeRemove c.bus) (objectRemoveBytes r) (some pr) ∧
        pr.handle = r.handle.toNat := by
      intro r hr
      obtain ⟨po, -, hhandle, htakes, -⟩ := h.takes_remove hsame (hremoves r hr)
      exact ⟨po.ref, htakes, hhandle⟩
    obtain ⟨prs, htakesRemove, hshowsRemove⟩ := takes_decodeMany hremove
    obtain ⟨c', hnotify, hmirrors⟩ :=
      h.notifyBusEvent hsame.ok (.ofBus pd) hshowsAdd hshowsEvents hshowsRemove hadds
      (fun v hv => (hevents v hv).obj) hnodup hremoves
    refine ⟨c', Client.recvPacket_of_takes (Takes.map ?_) hnotify, hmirrors⟩
    have hfound : descriptorFor e.desc.uid.toNat (c.bus.desc.eventsDesc e.desc.uid.toNat) =
        .ok pd := by
      rw [h.onDesc, hpd]
      rfl
    have hsize : ∀ {n : ℕ}, n < 2 ^ 32 → n < 256 ^ 4 := fun hn => lt_of_lt_of_le hn (by decide)
    refine (takes_readU16 e.desc.uid).bind ((takes_lift hfound).bind ?_)
    refine (takes_unpack (hsize haddCount)).bind ((takes_unpack (hsize hremoveCount)).bind ?_)
    refine (takes_unpack (hsize heventCount)).bind (htakesAdd.bind (htakesRemove.bind ?_))
    exact htakesEvents.bind_nil takes_pure
  | ack a =>
    obtain ⟨c', hreceive, hbus, -⟩ := Client.recvPacket_ack fl c a
    exact ⟨c', hreceive, h.of_bus hbus⟩

end Mirrors

end Obus.Python
