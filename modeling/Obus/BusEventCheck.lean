import Obus.Lib.Run
import Obus.RegistryServer

/-!
# The check of a bus event

`obus_server_check_bus_event` with the cursors of its three walks.  The walks over the objects share
the cursor `obj`; the walk over the events has one of its own, but its message names the object at
`obj`, which is where the walk over the objects to remove has stopped.

The check rejects exactly the bus events that it should.  The message is about an object of the bus
event unless the walk over the events rejects (`rejected_object_named_iff`): then `obj` is the head
of a list.
-/

namespace Obus

namespace Registry

/-- What `obus_server_check_bus_event` returns, and the node of the object whose descriptor is read
for its message. -/
structure CheckReport where
  ret : Except Errno Unit
  named : Option EventNode := none
  deriving DecidableEq

/-- A walk of `obus_server_check_bus_event`, which is left at the first node that fails the test:
whether all passed, and where the cursor is then. -/
def checkWalk (head : EventNode) (test : EventNode → Registry → Option Bool) (m : Registry) :
    Option (Bool × EventNode) :=
  search m.eventNodes head (test · m) (m.fresh + 1) (m.eventNodes.next head)

/-- `obus_server_check_bus_event`, as far as it reads and reports. -/
def reportBusEvent (e : ℕ) (m : Registry) : Option CheckReport :=
  match m.checkWalk (.addObjs e) (testObject fun o => !o.isRegistered) with
  | none => none
  | some (false, obj) => some ⟨.error .eperm, some obj⟩
  | some (true, _) =>
    match m.checkWalk (.removeObjs e) (testObject ObjectMem.isRegistered) with
    | none => none
    | some (false, obj) => some ⟨.error .eperm, some obj⟩
    | some (true, obj) =>
      match m.checkWalk (.objEvents e) testEvent with
      | none => none
      | some (false, _) => some ⟨.error .eperm, some obj⟩ -- `obj` and not the object of the event
      | some (true, _) => some ⟨.ok (), none⟩

/-- A bus event with its lists.  Its objects and events exist, and so do the objects of the events.
-/
structure BusEventOf (m : Registry) (e : ℕ) (adds removes events : List ℕ) : Prop where
  addObjs : IsCircle m.eventNodes (.addObjs e) (adds.map .object)
  removeObjs : IsCircle m.eventNodes (.removeObjs e) (removes.map .object)
  objEvents : IsCircle m.eventNodes (.objEvents e) (events.map .event)
  below : ∀ a ∈ adds ++ removes ++ events, a < m.fresh
  objects : ∀ a ∈ adds ++ removes, (m.objs a).isSome = true
  alive : ∀ v ∈ events, ∃ ev, m.events v = some ev ∧ (m.objs ev.obj).isSome = true

/-- The objects of a bus event are as they must be. -/
def ObjectsFit (m : Registry) (adds removes : List ℕ) : Prop :=
  (∀ a ∈ adds, Unregistered m a) ∧ ∀ a ∈ removes, Registered m a

/-- The object of an event is registered. -/
def EventFits (m : Registry) (v : ℕ) : Prop := ∃ ev, m.events v = some ev ∧ Registered m ev.obj

/-- The node of an object because of which a bus event is rejected. -/
inductive Offending (m : Registry) (adds removes events : List ℕ) : EventNode → Prop where
  | add {a : ℕ} (ha : a ∈ adds) (h : Registered m a) : Offending m adds removes events (.object a)
  | remove {a : ℕ} (ha : a ∈ removes) (h : Unregistered m a) : Offending m adds removes events
    (.object a)
  | event {v : ℕ} {ev : EventMem} (hv : v ∈ events) (hev : m.events v = some ev)
    (h : Unregistered m ev.obj) :
      Offending m adds removes events (.object ev.obj)

variable {m : Registry} {l : Lists} {g : EventLists} {e : ℕ} {adds removes events : List ℕ}

/-! ## One walk -/

/-- A walk passes a list all of whose members pass the test, and stops at its head; otherwise it
stops at a member that fails. -/
lemma checkWalk_cases {head : EventNode} {node : ℕ → EventNode} {as : List ℕ}
    {test : EventNode → Registry → Option Bool} (hcircle : IsCircle m.eventNodes head (as.map node))
    (hinj : Function.Injective node) (hbelow : ∀ a ∈ as, a < m.fresh)
    (htest : ∀ a ∈ as, test (node a) m ≠ none) :
    (m.checkWalk head test = some (true, head) ∧ ∀ a ∈ as, test (node a) m = some true) ∨
      ∃ a ∈ as, m.checkWalk head test = some (false, node a) ∧ test (node a) m = some false := by
  have hnodup : as.Nodup := (List.nodup_map_iff hinj).mp (List.nodup_cons.mp hcircle.nodup).2
  have hlength : (as.map node).length < m.fresh + 1 := by
    rw [List.length_map, Nat.lt_succ_iff]
    exact hnodup.length_le hbelow
  have htested : ∀ x ∈ as.map node, (test · m) x ≠ none := by simpa using htest
  have hsearch := search_members hcircle htested hlength
  rw [← checkWalk.eq_def head test m] at hsearch
  cases hfind : (as.map node).find? (test · m = some false) with
  | none =>
    left
    rw [hfind] at hsearch
    refine ⟨hsearch, fun a ha => ?_⟩
    have hpass := List.find?_eq_none.mp hfind (node a) (List.mem_map_of_mem ha)
    cases hvalue : test (node a) m with
    | none => exact absurd hvalue (htest a ha)
    | some passed =>
      cases passed with
      | false => simp [hvalue] at hpass
      | true => rfl
  | some n =>
    right
    rw [hfind] at hsearch
    obtain ⟨a, ha, rfl⟩ := List.mem_map.mp (List.mem_of_find?_eq_some hfind)
    exact ⟨a, ha, hsearch, by simpa using List.find?_some hfind⟩

lemma testObject_registered {a : ℕ} {b : Bool} :
    testObject ObjectMem.isRegistered (.object a) m = some b ↔ ∃ o, m.objs a = some o ∧
    o.isRegistered = b :=
  Option.map_eq_some_iff

lemma testObject_unregistered {a : ℕ} {b : Bool} :
    testObject (fun o => !o.isRegistered) (.object a) m = some b ↔ ∃ o, m.objs a = some o ∧
    o.isRegistered = !b := by
  rw [testObject, Option.map_eq_some_iff]
  exact exists_congr fun o => and_congr_right fun _ => Bool.not_eq_eq_eq_not

lemma testEvent_registered {v : ℕ} {b : Bool} :
    testEvent (.event v) m = some b ↔
      ∃ ev, m.events v = some ev ∧ ∃ o, m.objs ev.obj = some o ∧ o.isRegistered = b := by
  rw [testEvent, Option.bind_eq_some_iff]
  exact exists_congr fun ev => and_congr_right fun _ => Option.map_eq_some_iff

/-! ## The three walks -/

namespace BusEventOf

/-- The walk over the objects to add. -/
lemma walk_addObjs (h : BusEventOf m e adds removes events) :
    (m.checkWalk (.addObjs e) (testObject fun o => !o.isRegistered) = some (true, .addObjs e) ∧
        ∀ a ∈ adds, Unregistered m a) ∨
      ∃ a ∈ adds, m.checkWalk (.addObjs e) (testObject fun o => !o.isRegistered) =
        some (false, .object a) ∧
        Registered m a := by
  refine (checkWalk_cases h.addObjs (fun _ _ => EventNode.object.inj)
    (fun a ha => h.below a (by simp [ha]))
    fun a ha => ?_).imp (fun hall => ⟨hall.1, fun a ha => ?_⟩) fun ⟨a, ha, hwalk, hfail⟩ =>
      ⟨a, ha, hwalk, ?_⟩
  · have halive := h.objects a (by simp [ha])
    obtain ⟨o, ho⟩ := Option.isSome_iff_exists.mp halive
    simp [testObject, ho]
  · exact testObject_unregistered.mp (hall.2 a ha)
  · exact testObject_unregistered.mp hfail

/-- The walk over the objects to remove. -/
lemma walk_removeObjs (h : BusEventOf m e adds removes events) :
    (m.checkWalk (.removeObjs e) (testObject ObjectMem.isRegistered) = some (true, .removeObjs e) ∧
        ∀ a ∈ removes, Registered m a) ∨
      ∃ a ∈ removes, m.checkWalk (.removeObjs e) (testObject ObjectMem.isRegistered) =
        some (false, .object a) ∧
        Unregistered m a := by
  refine (checkWalk_cases h.removeObjs (fun _ _ => EventNode.object.inj)
    (fun a ha => h.below a (by simp [ha]))
    fun a ha => ?_).imp (fun hall => ⟨hall.1, fun a ha => ?_⟩) fun ⟨a, ha, hwalk, hfail⟩ =>
      ⟨a, ha, hwalk, ?_⟩
  · have halive := h.objects a (by simp [ha])
    obtain ⟨o, ho⟩ := Option.isSome_iff_exists.mp halive
    simp [testObject, ho]
  · exact testObject_registered.mp (hall.2 a ha)
  · exact testObject_registered.mp hfail

/-- The walk over the events. -/
lemma walk_objEvents (h : BusEventOf m e adds removes events) :
    (m.checkWalk (.objEvents e) testEvent = some (true, .objEvents e) ∧
      ∀ v ∈ events, EventFits m v) ∨
      ∃ v ∈ events, m.checkWalk (.objEvents e) testEvent = some (false, .event v) ∧
      ¬EventFits m v := by
  refine (checkWalk_cases h.objEvents (fun _ _ => EventNode.event.inj)
    (fun v hv => h.below v (by simp [hv]))
    fun v hv => ?_).imp (fun hall => ⟨hall.1, fun v hv => ?_⟩) fun ⟨v, hv, hwalk, hfail⟩ =>
      ⟨v, hv, hwalk, ?_⟩
  · obtain ⟨ev, hev, halive⟩ := h.alive v hv
    obtain ⟨o, ho⟩ := Option.isSome_iff_exists.mp halive
    simp [testEvent, hev, ho]
  · exact testEvent_registered.mp (hall.2 v hv)
  · intro hfits
    have hpass := testEvent_registered.mpr hfits
    rw [hfail] at hpass
    cases hpass

end BusEventOf

/-! ## The check -/

/-- The check of a bus event returns 0 exactly if all objects to add are unregistered, all objects
to remove are registered, and so are the objects of all events; otherwise it returns `-EPERM`.  The
object that its message names is one because of which the bus event is rejected, exactly if it is
not an event alone that is rejected. -/
theorem rejected_object_named_iff (h : BusEventOf m e adds removes events) :
    ∃ r, m.reportBusEvent e = some r ∧ (r.ret = .ok () ∨ r.ret = .error .eperm) ∧
      (r.ret = .ok () ↔ ObjectsFit m adds removes ∧ ∀ v ∈ events, EventFits m v) ∧
      (r.named = none ↔ r.ret = .ok ()) ∧
      ((∀ n, r.named = some n → Offending m adds removes events n) ↔
        ¬(ObjectsFit m adds removes ∧ ∃ v ∈ events, ¬EventFits m v)) := by
  unfold reportBusEvent
  rcases h.walk_addObjs with ⟨hwalk, hadds⟩ | ⟨a, ha, hwalk, hreg⟩
  · rw [hwalk]
    rcases h.walk_removeObjs with ⟨hwalk, hremoves⟩ | ⟨a, ha, hwalk, hno⟩
    · rw [hwalk]
      rcases h.walk_objEvents with ⟨hwalk, hevents⟩ | ⟨v, hv, hwalk, hno⟩
      · rw [hwalk]
        have hfits : ObjectsFit m adds removes ∧ ∀ v ∈ events, EventFits m v :=
          ⟨⟨hadds, hremoves⟩, hevents⟩
        refine ⟨_, rfl, .inl rfl, by simpa using hfits, by simp, ?_⟩
        simpa using fun _ => hevents
      · rw [hwalk]
        have hbad : ObjectsFit m adds removes ∧ ∃ v ∈ events, ¬EventFits m v :=
          ⟨⟨hadds, hremoves⟩, v, hv, hno⟩
        refine ⟨_, rfl, .inr rfl, ⟨nofun, fun hall => absurd (hall.2 v hv) hno⟩, by simp,
          fun hall => ?_,
          fun hgood => absurd hbad hgood⟩
        -- the walk over the objects to remove went to its end
        cases hall _ rfl
    · rw [hwalk]
      have hunfit : ¬ObjectsFit m adds removes := fun hfit => (hfit.2 a ha).not_unregistered hno
      refine ⟨_, rfl, .inr rfl, ⟨nofun, fun hall => absurd hall.1 hunfit⟩, by simp, fun _ hbad =>
        hunfit hbad.1, ?_⟩
      rintro - n ⟨⟩
      exact .remove ha hno
  · rw [hwalk]
    have hunfit : ¬ObjectsFit m adds removes := fun hfit => hreg.not_unregistered (hfit.1 a ha)
    refine ⟨_, rfl, .inr rfl, ⟨nofun, fun hall => absurd hall.1 hunfit⟩, by simp, fun _ hbad =>
      hunfit hbad.1, ?_⟩
    rintro - n ⟨⟩
    exact .add ha hreg

/-! ## The server -/

/-- The bus events of a server have their lists, as long as the objects of their events are not
destroyed. -/
lemma Serving.busEventOf (h : Serving m l g) (he : m.busEvents e = true)
    (halive : ∀ v ev, m.events v = some ev → (m.objs ev.obj).isSome = true) :
    ∃ adds removes events, BusEventOf m e adds removes events := by
  obtain ⟨adds, hadds⟩ := h.attached.opened e he (.addObjs e) (by simp [heads])
  obtain ⟨removes, hremoves⟩ := h.attached.opened e he (.removeObjs e) (by simp [heads])
  obtain ⟨events, hevents⟩ := h.attached.opened e he (.objEvents e) (by simp [heads])
  refine ⟨adds, removes, events, h.attached.circle hadds, h.attached.circle hremoves,
    h.attached.circle hevents,
    fun a ha => ?_, fun a ha => ?_, fun v hv => ?_⟩
  · simp only [List.mem_append] at ha
    rcases ha with (ha | ha) | ha
    · exact h.attached.below _ adds hadds a ha
    · exact h.attached.below _ removes hremoves a ha
    · exact h.attached.below _ events hevents a ha
  · rcases List.mem_append.mp ha with ha | ha
    · exact h.attached.alive _ ⟨_, adds, hadds, a, ha, rfl⟩
    · exact h.attached.alive _ ⟨_, removes, hremoves, a, ha, rfl⟩
  · obtain ⟨ev, hev⟩ := Option.isSome_iff_exists.mp
      (h.attached.alive _ ⟨_, events, hevents, v, hv, rfl⟩)
    exact ⟨ev, hev, halive v ev hev⟩

/-- The walk of the check tells what the test of the members tells. -/
lemma Attached.checkNodes_fst {k : EventNode} {as : List ℕ}
    (test : EventNode → Registry → Option Bool)
    (h : Attached m g) (hk : g k = some as) (htest : ∀ a ∈ as, test (k.member a) m ≠ none) :
    ∃ n, m.checkWalk k test = some ((m.checkNodes k test).1, n) ∧ (m.checkNodes k test).2 = m := by
  rcases h.checkNodes hk test with ⟨ok, heq, hok⟩ | ⟨-, a, ha, hnone⟩
  · rw [heq]
    rcases checkWalk_cases (h.circle hk) (EventLists.member_injective k)
      (h.below k as hk) htest with
      ⟨hwalk, hall⟩ | ⟨a, ha, hwalk, hfail⟩
    · exact ⟨_, by rw [hwalk, hok.mpr hall], rfl⟩
    · have hno : ok = false := by
        rw [Bool.eq_false_iff]
        intro hyes
        rw [hok.mp hyes a ha] at hfail
        cases hfail
      exact ⟨_, by rw [hwalk, hno], rfl⟩
  · exact absurd hnone (htest a ha)

/-- The check of a server succeeds exactly if the report says so, and leaves the memory as it is. -/
lemma Serving.checkBusEvent_eq (h : Serving m l g) (he : m.busEvents e = true)
    (halive : ∀ v ev, m.events v = some ev → (m.objs ev.obj).isSome = true) :
    ∃ r, m.reportBusEvent e = some r ∧ m.checkBusEvent e = (decide (r.ret = .ok ()), m) := by
  obtain ⟨adds, hadds⟩ := h.attached.opened e he (.addObjs e) (by simp [heads])
  obtain ⟨removes, hremoves⟩ := h.attached.opened e he (.removeObjs e) (by simp [heads])
  obtain ⟨events, hevents⟩ := h.attached.opened e he (.objEvents e) (by simp [heads])
  have hobject : ∀ {a : ℕ} (ok : ObjectMem → Bool), m.Alive (.object a) →
      testObject ok (.object a) m ≠ none := by
    intro a ok ha hnone
    rw [testObject, Option.map_eq_none_iff] at hnone
    rw [Alive, hnone] at ha
    cases ha
  obtain ⟨n₁, hwalk₁, hsame₁⟩ :=
    h.attached.checkNodes_fst (testObject fun o => !o.isRegistered) hadds
    fun a ha => hobject _ (h.attached.alive _ ⟨_, adds, hadds, a, ha, rfl⟩)
  obtain ⟨n₂, hwalk₂, hsame₂⟩ :=
    h.attached.checkNodes_fst (testObject ObjectMem.isRegistered) hremoves
    fun a ha => hobject _ (h.attached.alive _ ⟨_, removes, hremoves, a, ha, rfl⟩)
  obtain ⟨n₃, hwalk₃, hsame₃⟩ := h.attached.checkNodes_fst testEvent hevents fun v hv => by
    obtain ⟨ev, hev⟩ := Option.isSome_iff_exists.mp
      (h.attached.alive _ ⟨_, events, hevents, v, hv, rfl⟩)
    obtain ⟨o, ho⟩ := Option.isSome_iff_exists.mp (halive v ev hev)
    simp [EventNode.member, testEvent, hev, ho]
  unfold reportBusEvent Registry.checkBusEvent
  rw [hwalk₁, hwalk₂, hwalk₃]
  obtain ⟨ok₁, heq₁⟩ : ∃ ok, m.checkNodes (.addObjs e) (testObject fun o => !o.isRegistered) =
    (ok, m) :=
    ⟨_, Prod.ext rfl hsame₁⟩
  obtain ⟨ok₂, heq₂⟩ : ∃ ok, m.checkNodes (.removeObjs e) (testObject ObjectMem.isRegistered) =
    (ok, m) :=
    ⟨_, Prod.ext rfl hsame₂⟩
  obtain ⟨ok₃, heq₃⟩ : ∃ ok, m.checkNodes (.objEvents e) testEvent = (ok, m) :=
    ⟨_, Prod.ext rfl hsame₃⟩
  rw [heq₁]
  cases ok₁ with
  | false => exact ⟨_, rfl, rfl⟩
  | true =>
    simp only [heq₂]
    cases ok₂ with
    | false => exact ⟨_, rfl, rfl⟩
    | true =>
      simp only [heq₃]
      cases ok₃ with
      | false => exact ⟨_, rfl, rfl⟩
      | true => exact ⟨_, rfl, rfl⟩

/-- A server with a registered object and a bus event that adds this object again. -/
def addAgain : List RegistryOp :=
  [.newObject 100 true true [7], .registerObject 0, .busEventNew, .busEventRegisterObject 1 0]

theorem rejected_object_named_addAgain :
    ∃ m r, runs registryStep addAgain busInit = some m ∧ m.reportBusEvent 1 = some r ∧
    r.ret = .error .eperm ∧
      ∀ n, r.named = some n → Offending m [0] [] [] n := by
  obtain ⟨m, hrun⟩ : ∃ m, runs registryStep addAgain busInit = some m := ⟨_, rfl⟩
  have hevent : BusEventOf m 1 [0] [] [] := by
    cases hrun
    exact ⟨⟨by decide, by decide⟩, ⟨by decide, by decide⟩,
      ⟨by decide, by decide⟩, by decide, by decide, nofun⟩
  have hregistered : Registered m 0 := by
    cases hrun
    exact ⟨_, rfl, rfl⟩
  obtain ⟨r, hr, hret, hexact, -, hnamed⟩ := rejected_object_named_iff hevent
  refine ⟨m, r, hrun, hr, hret.resolve_left fun hok => ?_, hnamed.mpr ?_⟩
  · exact hregistered.not_unregistered ((hexact.mp hok).1.1 0 (List.mem_singleton_self 0))
  · rintro ⟨-, v, hv, -⟩
    cases hv

/-- A server with an object that is not registered, and a bus event with an event of this object. -/
def orphanEvent : List RegistryOp :=
  [.newObject 100 true true [7], .busEventNew, .eventNew true 0, .busEventAddEvent 1 2]

/-- The object that the message names is the head of the list of objects to remove. -/
theorem list_head_named :
    ∃ m, runs registryStep orphanEvent busInit = some m ∧ BusEventOf m 1 [] [] [2] ∧
      m.reportBusEvent 1 = some ⟨.error .eperm, some (.removeObjs 1)⟩ ∧
      ¬Offending m [] [] [2] (.removeObjs 1) := by
  refine ⟨_, rfl, ?_, by decide, nofun⟩
  refine ⟨⟨by decide, by decide⟩, ⟨by decide, by decide⟩, ⟨by decide, by decide⟩, by decide, nofun,
    fun v hv => ?_⟩
  obtain rfl := List.mem_singleton.mp hv
  exact ⟨⟨0, true⟩, rfl, rfl⟩

end Registry

end Obus
