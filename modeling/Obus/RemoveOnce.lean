import Obus.DecoderLemmas
import Obus.Unlinking

/-!
# A bus event removes each object once

`obus_bus_event_decode` puts the objects that a bus event removes into its list without asking
whether they are in it, unlike `obus_bus_event_unregister_object`.  An object that is named twice is
linked twice, which no circular list survives (`IsCircle.eq_of_foldl_addBefore`): depending on the
place of the repetition the walk of the commit never ends or leaves objects out.

The lists of a decoded bus event are in order, and its commit removes and destroys each object of
the list of removals once, exactly if the bytes name no object of the bus twice
(`decoded_bus_event_removes_each_once_iff`).
-/

namespace Obus

open Prog

/-! ## The removals in the bytes of a bus event -/

/-- Read a removal: the handle, absent when the bytes end before. -/
def removalHandle : Dec (Option UInt16) := do
  match ← (do let uid ← readU16; let handle ← readU16; pure (uid, handle) : Dec _).attempt with
  | .error _ => pure none
  | .ok (_, handle) => pure (some handle)

/-- The handles in the removals of a bus event, behind the objects that it adds. -/
def removalHandles (bus : Bus) : Dec (List UInt16) := do
  let (_, nAdd, nRemove, _) ← busEventHead
  let _ ← decodeMany (objectAddDecode bus.api) nAdd.toNat
  decodeMany removalHandle nRemove.toNat

/-- The handles in the removals of a bus event that an object of the bus has. -/
def knownRemovals (bus : Bus) (b : Buffer) : List UInt16 :=
  match ((removalHandles bus).on b).1 with
  | .ok handles => handles.filter fun h => (bus.object? h).isSome
  | .error _ => []

/-- A removal is decoded by looking up its handle. -/
lemma objectRemoveDecode_on (bus : Bus) (b : Buffer) : ∃ r b', removalHandle.on b = (.ok r, b') ∧
    (objectRemoveDecode bus).on b = (.ok (r.bind fun h => (bus.object? h).map Object.ref), b') := by
  have hattempt := run_attempt readHandler
    (do let uid ← readU16; let handle ← readU16; pure (uid, handle) : Dec (UInt16 × UInt16)) b
  unfold objectRemoveDecode removalHandle Dec.on
  rw [run_bind_ok _ hattempt, run_bind_ok _ hattempt]
  rcases Prog.run readHandler
    (do let uid ← readU16; let handle ← readU16; pure (uid, handle) : Dec (UInt16 × UInt16)) b
    with ⟨e | ⟨uid, handle⟩, b'⟩
  · exact ⟨none, b', rfl, rfl⟩
  · exact ⟨some handle, b', rfl, rfl⟩

/-- Elements that are decoded alike but for a lookup are kept alike. -/
lemma decodeMany_lookup {α β : Type} {p : Dec (Option α)} {q : Dec (Option β)} {f : β → Option α}
    (h : ∀ b, ∃ r b', q.on b = (.ok r, b') ∧ p.on b = (.ok (r.bind f), b')) (n : ℕ) (b : Buffer) :
    ∃ l b', (decodeMany q n).on b = (.ok l, b') ∧
    (decodeMany p n).on b = (.ok (l.filterMap f), b') := by
  induction n with
  | zero => exact ⟨[], b, rfl, rfl⟩
  | succ n ih =>
    obtain ⟨l, b', hq, hp⟩ := ih
    obtain ⟨r, b'', hq', hp'⟩ := h b'
    refine ⟨l ++ r.toList, b'', ?_, ?_⟩
    · rw [Dec.on, decodeMany, run_iter_succ]
      exact (run_bind_ok _ hq).trans (run_bind_ok _ hq')
    · rw [Dec.on, decodeMany, run_iter_succ]
      refine (run_bind_ok _ hp).trans ((run_bind_ok _ hp').trans ?_)
      cases r with
      | none => simp
      | some a => cases hf : f a <;> simp [hf]

/-- An object that is found under a handle has that handle. -/
lemma filterMap_handle (bus : Bus) (handles : List UInt16) :
    (handles.filterMap fun h => ((bus.object? h).map Object.ref).map ObjectRef.handle) =
      handles.filter fun h => (bus.object? h).isSome := by
  rw [← List.filterMap_eq_filter]
  refine List.filterMap_congr fun h _ => ?_
  cases hfound : bus.object? h with
  | none => simp [Option.guard, hfound]
  | some o =>
    simpa [Option.guard, hfound] using (show o.ref.handle = h from Bus.object?_handle hfound)

/-- The objects that a decoded bus event removes are those of the bus with the handles in its bytes.
-/
lemma removeObjs_of_decode {bus : Bus} {b b' : Buffer} {event : BusEvent}
    (hread : (busEventDecode bus).on b = (.ok (some event), b')) :
    event.removeObjs.map ObjectRef.handle = knownRemovals bus b := by
  have hattempt := run_attempt readHandler busEventHead b
  rw [Dec.on, busEventDecode] at hread
  have hread' := (run_bind_ok readHandler hattempt).symm.trans hread
  unfold knownRemovals removalHandles Dec.on
  rcases hhead : Prog.run readHandler busEventHead b with ⟨e | ⟨uid, nAdd, nRemove, nEvents⟩, b₁⟩
  · rw [hhead] at hread'
    cases hread'
  · rw [hhead] at hread'
    rw [run_bind_ok _ hhead]
    dsimp only at hread' ⊢
    cases hdesc : bus.api.busEvent? uid with
    | none =>
      rw [hdesc] at hread'
      cases hread'
    | some desc =>
      rw [hdesc] at hread'
      dsimp only at hread'
      rcases hadd : Prog.run readHandler (decodeMany (objectAddDecode bus.api) nAdd.toNat) b₁ with
        ⟨e | addObjs, b₂⟩
      · rw [run_bind_error _ hadd] at hread'
        cases hread'
      · obtain ⟨handles, b₃, hhandles, hremove⟩ :=
          decodeMany_lookup (objectRemoveDecode_on bus) nRemove.toNat b₂
        rw [run_bind_ok _ hadd, run_bind_ok _ hremove] at hread'
        rw [run_bind_ok _ hadd, ← Dec.on, hhandles]
        rcases hevents : Prog.run readHandler (decodeMany (eventDecode bus) nEvents.toNat) b₃ with
          ⟨e | objEvents, b₄⟩
        · rw [run_bind_error _ hevents] at hread'
          cases hread'
        · rw [run_bind_ok _ hevents] at hread'
          cases hread'
          dsimp only
          rw [List.map_filterMap]
          exact filterMap_handle bus handles

namespace Registry

variable {m : Registry} {e : ℕ}

/-! ## The lists of a decoded bus event -/

/-- The bus in memory has objects under the same handles as a bus. -/
def SameHandles (m : Registry) (bus : Bus) : Prop :=
  ∀ h, (m.busObject h).isSome = (bus.object? h).isSome

/-- In the state after a bus event was decoded its lists have the members `as`, `rs` and `vs`, where
`rs` are different objects of the bus; its commit ends, removes each of them once and in order, and
destroys them. -/
structure RemovesEach (alloc : UInt16 → Bool) (m : Registry) (e : ℕ) (m' : Registry)
    (as rs vs : List ℕ) : Prop where
  added : IsCircle m'.eventNodes (.addObjs e) (as.map .object)
  removed : IsCircle m'.eventNodes (.removeObjs e) (rs.map .object)
  events : IsCircle m'.eventNodes (.objEvents e) (vs.map .event)
  different : rs.Nodup
  known : ∀ a ∈ rs, ∃ h, (h, a) ∈ m.hash .objects
  ends : (m'.commitBusEvent alloc e).fault = false
  once : m'.commitBusEvent alloc e =
    rs.foldl (fun m a => (m.eventDel (.object a)).removeObject (some a))
      (m'.commitAdditions alloc e)
  destroyed : ∀ a ∈ rs, (m'.commitBusEvent alloc e).objs a = none
  gone : ∀ p ∈ m.hash .objects, p ∈ (m'.commitBusEvent alloc e).hash .objects ↔ p.2 ∉ rs

/-- The removals are put into the list of a bus event one after the other, wherever they are
already. -/
lemma decodeRemoveObjs_eq (refs : List ObjectRef) (hf : m.fault = false)
    (hhead : (m.eventNodes.prev (.removeObjs e)).isSome = true) :
    m.decodeRemoveObjs e refs = { m with
      eventNodes := ((refs.filterMap (m.busObject ·.handle)).map EventNode.object).foldl
        (fun L x => L.addBefore (.removeObjs e) x) m.eventNodes } := by
  induction refs generalizing m with
  | nil => rfl
  | cons r refs ih =>
    cases hfound : m.busObject r.handle with
    | none =>
      have hstep : m.decodeRemoveObjs e (r :: refs) = m.decodeRemoveObjs e refs := by
        simp only [Registry.decodeRemoveObjs, List.foldl_cons, hfound]
      rw [hstep, ih hf hhead, List.filterMap_cons]
      simp only [hfound]
    | some a =>
      have hadd : m.eventAddBefore (.removeObjs e) (.object a) =
          { m with eventNodes := m.eventNodes.addBefore (.removeObjs e) (.object a) } := by
        rw [Registry.eventAddBefore, live_of_running hf, if_neg]
        rw [Option.isNone_iff_eq_none]
        exact fun hnone => by simp [hnone] at hhead
      have hstep : m.decodeRemoveObjs e (r :: refs) = Registry.decodeRemoveObjs e refs
          { m with eventNodes := m.eventNodes.addBefore (.removeObjs e) (.object a) } := by
        simp only [Registry.decodeRemoveObjs, List.foldl_cons, hfound]
        exact congrArg (List.foldl _ · refs) hadd
      have hhead' : ((m.eventNodes.addBefore (.removeObjs e) (.object a)).prev
          (.removeObjs e)).isSome = true := by
        simp [IsCircle.prev_addBefore]
      rw [hstep, ih (m := { m with
        eventNodes := m.eventNodes.addBefore (.removeObjs e) (.object a) }) hf hhead',
        List.filterMap_cons]
      simp only [hfound]
      rfl

/-- The events of a bus event are put into a list of their own. -/
lemma decodeObjEvents_prev (events : List Event) {x : EventNode}
    (hx : x = .removeObjs e ∨ ∃ a, x = .object a) :
    (m.decodeObjEvents e events).eventNodes.prev x = m.eventNodes.prev x := by
  have hne : x ≠ .objEvents e ∧ ∀ v, x ≠ .event v := by
    rcases hx with rfl | ⟨a, rfl⟩
    · exact ⟨nofun, nofun⟩
    · exact ⟨nofun, nofun⟩
  induction events generalizing m with
  | nil => rfl
  | cons v events ih =>
    cases hfound : m.busObject v.obj.handle with
    | none =>
      have hstep : m.decodeObjEvents e (v :: events) = m.decodeObjEvents e events := by
        simp only [Registry.decodeObjEvents, List.foldl_cons, hfound]
      rw [hstep]
      exact ih
    | some a =>
      have hstep : m.decodeObjEvents e (v :: events) = Registry.decodeObjEvents e events
          ((m.eventNew true a).2.eventAddBefore (.objEvents e) (.event m.fresh)) := by
        simp only [Registry.decodeObjEvents, List.foldl_cons, hfound]
        rfl
      have hnew : (m.eventNew true a).2.eventNodes.prev x = m.eventNodes.prev x := by
        have hxv := hne.2 m.fresh
        simp [Registry.eventNew, Links.unref, Links.setNext, Links.setPrev,
          Function.update_of_ne hxv]
      rw [hstep, ih, ← hnew]
      generalize (m.eventNew true a).2 = m'
      cases hfault : m'.fault with
      | true => rw [Registry.eventAddBefore, live_of_fault hfault]
      | false =>
        rw [Registry.eventAddBefore, live_of_running hfault]
        split
        · rfl
        · simp only [IsCircle.prev_addBefore, if_neg (hne.2 m.fresh), if_neg hne.1]

/-- The list of removals of a decoded bus event is only a circular list if it was built from
different objects. -/
lemma Idle.nodup_of_isCircle (h : Idle m) (event : BusEvent) {rs : List ℕ}
    (hring : IsCircle (m.busEventDecode event).2.eventNodes (.removeObjs m.fresh)
      (rs.map .object)) :
    (event.removeObjs.filterMap (m.busObject ·.handle)).Nodup := by
  obtain ⟨l, g, as, hsound, hheads, -, -, hhash, -⟩ := h.decodeAddObjs event.addObjs
  have hfound : ∀ x, Registry.busObject x
      (Registry.decodeAddObjs m.fresh event.addObjs m.busEventNew.2) =
      m.busObject x := fun x => by simp only [Registry.busObject, hashLookup, hhash]
  have hempty : (Registry.decodeAddObjs m.fresh event.addObjs m.busEventNew.2).eventNodes.prev
      (.removeObjs m.fresh) =
      some (.removeObjs m.fresh) := by
    have hnil : Function.update g (.addObjs m.fresh) (some as) (.removeObjs m.fresh) = some [] := by
      rw [Function.update_of_ne (by simp), hheads _ (by simp [heads])]
    exact (List.isChain_cons_cons.mp (hsound.attached.circle hnil).chain).1.2
  have hdecode := decodeRemoveObjs_eq event.removeObjs hsound.running (by rw [hempty]; rfl)
  simp only [hfound] at hdecode
  have hresult : (m.busEventDecode event).2 = Registry.decodeObjEvents m.fresh event.objEvents
      (Registry.decodeRemoveObjs m.fresh event.removeObjs
        (Registry.decodeAddObjs m.fresh event.addObjs m.busEventNew.2)) := rfl
  have hmembers : rs.map EventNode.object =
      (event.removeObjs.filterMap (m.busObject ·.handle)).map EventNode.object := by
    refine IsCircle.eq_of_foldl_addBefore hempty (fun hmem => ?_) hring fun x hx => ?_
    · obtain ⟨a, -, ha⟩ := List.mem_map.mp hmem
      cases ha
    · rw [hresult, decodeObjEvents_prev, hdecode]
      rcases List.mem_cons.mp hx with rfl | hx
      · exact .inl rfl
      · obtain ⟨a, -, rfl⟩ := List.mem_map.mp hx
        exact .inr ⟨a, rfl⟩
  rw [← List.map_injective_iff.mpr (fun _ _ => EventNode.object.inj) hmembers]
  exact (List.nodup_cons.mp hring.nodup).2.of_map _

/-- Different handles lead to different objects. -/
lemma Idle.nodup_objects (h : Idle m) (refs : List ObjectRef)
    (hknown : ∀ r ∈ refs, (m.busObject r.handle).isSome = true) :
    (refs.filterMap (m.busObject ·.handle)).Nodup ↔ (refs.map ObjectRef.handle).Nodup := by
  obtain ⟨l, g, hsound, -⟩ := h
  have hinj : ∀ x y a, m.busObject x = some a → m.busObject y = some a → x = y := by
    intro x y a hx hy
    obtain ⟨o, ho, -, hxo⟩ := ((hsound.tidy.object a).keyed_iff x).mp (hsound.found_alive hx).1
    obtain ⟨o', ho', -, hyo⟩ := ((hsound.tidy.object a).keyed_iff y).mp (hsound.found_alive hy).1
    obtain rfl := Option.mem_unique ho ho'
    exact hxo.symm.trans hyo
  have hmap : (refs.filterMap (m.busObject ·.handle)).map some =
      (refs.map ObjectRef.handle).map m.busObject := by
    rw [List.map_map, List.map_filterMap]
    induction refs with
    | nil => rfl
    | cons r refs ih =>
      obtain ⟨a, ha⟩ := Option.isSome_iff_exists.mp (hknown r List.mem_cons_self)
      rw [List.filterMap_cons, ha, List.map_cons, ← ih fun r hr => hknown r
        (List.mem_cons_of_mem _ hr)]
      simp [ha]
  rw [← List.nodup_map_iff (Option.some_injective ℕ), hmap]
  refine ⟨List.Nodup.of_map _, fun hnodup => hnodup.map_on fun x hx y _ heq => ?_⟩
  obtain ⟨r, hr, rfl⟩ := List.mem_map.mp hx
  obtain ⟨a, ha⟩ := Option.isSome_iff_exists.mp (hknown r hr)
  exact hinj _ _ a ha (heq ▸ ha)

end Registry

open Registry

/-- For every bus between two packets and all bytes that are decoded to a bus event: the lists of
the bus event are in order, its list of removals has different objects of the bus, and its commit
ends and removes and destroys each of them once, exactly if no handle of an object of the bus stands
twice in the removals of the bytes. -/
theorem decoded_bus_event_removes_each_once_iff (m : Registry) (hm : m.Idle) (bus : Bus)
    (hbus : m.SameHandles bus) (alloc : UInt16 → Bool) (b b' : Buffer) (event : BusEvent)
    (hread : (busEventDecode bus).on b = (.ok (some event), b')) :
    (∃ as rs vs, RemovesEach alloc m m.fresh (m.busEventDecode event).2 as rs vs) ↔
    (knownRemovals bus b).Nodup := by
  have hhandles := removeObjs_of_decode hread
  have hknown : ∀ r ∈ event.removeObjs, (m.busObject r.handle).isSome = true := by
    intro r hr
    have hmem : r.handle ∈ knownRemovals bus b := hhandles ▸ List.mem_map_of_mem hr
    rw [hbus]
    unfold knownRemovals at hmem
    split at hmem
    · exact (List.mem_filter.mp hmem).2
    · cases hmem
  rw [← hhandles, ← hm.nodup_objects event.removeObjs hknown]
  constructor
  · rintro ⟨as, rs, vs, h⟩
    exact hm.nodup_of_isCircle event h.removed
  · intro hnodup
    obtain ⟨l, g, as, vs, hsound, hadd, hremove, hevents, hnew, -, hhash, hoff⟩ :=
      hm.busEventDecode event hnodup
    obtain ⟨l', hcommit, -, hfold, hgone, hkeep⟩ :=
      hsound.commitBusEvent as _ vs alloc hadd hremove hevents hnew
    refine ⟨as, _, vs, hsound.attached.circle hadd, hsound.attached.circle hremove,
      hsound.attached.circle hevents,
      hnodup, fun a ha => ?_, hcommit.running, hfold, hgone, fun p hp => ?_⟩
    · obtain ⟨r, -, hr⟩ := List.mem_filterMap.mp ha
      obtain ⟨l₀, g₀, hsound₀, -⟩ := hm
      exact ⟨_, (hsound₀.found_alive hr).1⟩
    · exact hkeep p (hhash ▸ hp) fun hmem => hoff _ hmem _ hp

/-- A bus that has one object, under the handle 7, and a bus event. -/
def oneObjectBus : Bus where
  api := ⟨CString.ofBytes [98, 117, 115], [plainObject.desc], [⟨1⟩], 77⟩
  hash := [{ plainObject with isRegistered := true }]
  objects := [7]

/-- The same bus in memory. -/
def oneObjectMemory : Registry :=
  connectionResponse (fun _ => true) .accepted [plainObject] { busInit with state := .connecting }

/-- A bus event that names the object in each of its `n` removals. -/
def removals (n : ℕ) : Buffer :=
  let data := [0, 1] ++ [0, 0, 0, 0] ++ [0, 0, 0, UInt8.ofNat n] ++ [0, 0, 0, 0] ++
    (List.replicate n [0, 100, 0, 7]).flatten
  ⟨data, data.length, 0⟩

/-- A bus that has a second object, under the handle 8. -/
def twoObjectBus : Bus where
  api := oneObjectBus.api
  hash := [{ plainObject with isRegistered := true },
    { plainObject with handle := 8, isRegistered := true }]
  objects := [7, 8]

/-- The same bus in memory. -/
def twoObjectMemory : Registry :=
  connectionResponse (fun _ => true) .accepted [plainObject, { plainObject with handle := 8 }]
    { busInit with state := .connecting }

/-- A bus event that removes both objects. -/
def twoRemovals : Buffer :=
  let data := [0, 1] ++ [0, 0, 0, 0] ++ [0, 0, 0, 2] ++ [0, 0, 0, 0] ++ [0, 100, 0, 7, 0, 100, 0, 8]
  ⟨data, data.length, 0⟩

lemma twoObjectMemory_sameHandles : twoObjectMemory.SameHandles twoObjectBus := by
  intro h
  by_cases h7 : h = 7
  · subst h7
    decide
  · by_cases h8 : h = 8
    · subst h8
      decide
    · have hmemory : twoObjectMemory.hash .objects = [(7, 1), (8, 2)] := by decide
      have hbus : twoObjectBus.object? h = none := by
        simp [Bus.object?, twoObjectBus, plainObject, Ne.symm h7, Ne.symm h8]
      have hnone : twoObjectMemory.busObject h = none := by
        simp [busObject, Registry.hashLookup, hmemory, Ne.symm h7, Ne.symm h8]
      rw [hbus, hnone]
      rfl

theorem decoded_bus_event_removes_each_once_two :
    ∃ as rs vs, RemovesEach (fun _ => true) twoObjectMemory twoObjectMemory.fresh
      (twoObjectMemory.busEventDecode ⟨⟨1⟩, [], [plainObject.ref, ⟨plainObject.desc, 8⟩], []⟩).2
        as rs vs :=
  (decoded_bus_event_removes_each_once_iff twoObjectMemory
    ((Idle.busInit.withState .connecting).connectionResponse
    (fun _ => true) .accepted [plainObject, { plainObject with handle := 8 }]) twoObjectBus
    twoObjectMemory_sameHandles (fun _ => true) twoRemovals _
    ⟨⟨1⟩, [], [plainObject.ref, ⟨plainObject.desc, 8⟩], []⟩ (Prod.ext (by decide) rfl)).mpr
      (by decide)

/-- A bus event that names an object twice links it to itself. -/
theorem named_twice_linked_to_itself :
    ((busEventDecode oneObjectBus).on (removals 2)).1 =
        .ok (some ⟨⟨1⟩, [], [plainObject.ref, plainObject.ref], []⟩) ∧
      (oneObjectMemory.busEventDecode
        ⟨⟨1⟩, [], [plainObject.ref, plainObject.ref], []⟩).2.eventNodes.next (.object 1) =
        some (.object 1) ∧
      ((oneObjectMemory.busEventDecode
        ⟨⟨1⟩, [], [plainObject.ref, plainObject.ref], []⟩).2.commitBusEvent (fun _ => true)
        oneObjectMemory.fresh).fault = true ∧
      ¬∃ as rs vs, RemovesEach (fun _ => true) oneObjectMemory oneObjectMemory.fresh
        (oneObjectMemory.busEventDecode ⟨⟨1⟩, [], [plainObject.ref, plainObject.ref], []⟩).2 as
          rs vs := by
  refine ⟨by decide, by decide, by decide, ?_⟩
  rintro ⟨as, rs, vs, h⟩
  exact absurd h.ends (by decide)

end Obus
