import Obus.RegistryEvents

/-!
# The tables of a server agree

Between the operations of its user all objects of a server are on its bus, and the lists and tables
of the bus and the lists of the bus events are in order (`Registry.Serving`).  Every operation but
the last keeps this, or it is a fault that changes nothing: sending a bus event with an event of an
object that was destroyed.
-/

namespace Obus
namespace Registry

variable {m m' : Registry} {l : Lists} {g : EventLists} {k : EventNode} {a e : ℕ} {as : List ℕ}
  {o : ObjectMem}

/-- What holds between the operations of the user of a server. -/
structure Serving (m : Registry) (l : Lists) (g : EventLists) : Prop extends Linked m l g where
  onBus : ∀ a o, m.objs a = some o → o.bus = true
  calls : l.calls = []
  hash : ∀ t ≠ .objects, m.hash t = []

/-- An object exists and is registered. -/
def Registered (m : Registry) (a : ℕ) : Prop := ∃ o, m.objs a = some o ∧ o.isRegistered = true

/-- An object exists and is not registered. -/
def Unregistered (m : Registry) (a : ℕ) : Prop := ∃ o, m.objs a = some o ∧ o.isRegistered = false

lemma Registered.not_unregistered (h : Registered m a) : ¬ Unregistered m a := by
  rintro ⟨o, ho, hno⟩
  obtain ⟨o', ho', hreg⟩ := h
  rw [ho, Option.some.injEq] at ho'
  rw [ho', hreg] at hno
  cases hno

namespace Serving

/-- Registering an object adds it to the registered ones. -/
lemma busRegisterObject (h : Serving m l g) (ha : Unregistered m a) :
    (∃ l', Serving (m.busRegisterObject a) l' g) ∧ Registered (m.busRegisterObject a) a ∧
      ∀ b, b ≠ a → (m.busRegisterObject a).objs b = m.objs b := by
  obtain ⟨o, ho, hreg⟩ := ha
  obtain ⟨nodes, heq, htidy⟩ :=
    h.tidy.busRegisterObject h.running ho hreg (h.onBus a o ho) h.settled.not_waiting
  rw [heq]
  refine ⟨⟨_, ⟨htidy, h.attached.congr rfl rfl (fun _ => id) rfl (fun _ => isSome_update) le_rfl,
    h.settled, h.running⟩,
    fun b o' hb => ?_, h.calls, h.hash⟩, ⟨_, Function.update_self .., rfl⟩,
      fun b hb => Function.update_of_ne hb ..⟩
  · by_cases hba : b = a
    · subst hba
      simp only [Function.update_self, Option.some.injEq] at hb
      rw [← hb]
      exact h.onBus b o ho
    · simp only [Function.update_of_ne hba] at hb
      exact h.onBus b o' hb

/-- Unregistering a registered object takes it out of the registered ones. -/
lemma busUnregisterObject (h : Serving m l g) (ha : Registered m a) :
    (∃ l', Serving (m.busUnregisterObject a) l' g) ∧ Unregistered (m.busUnregisterObject a) a ∧
      ∀ b, b ≠ a → (m.busUnregisterObject a).objs b = m.objs b := by
  obtain ⟨o, ho, hreg⟩ := ha
  obtain ⟨nodes, dels, heq, htidy⟩ := h.tidy.busUnregisterObject h.running ho hreg
  rw [heq]
  refine ⟨⟨_, ⟨htidy, h.attached.congr rfl rfl (fun _ => id) rfl (fun _ => isSome_update) le_rfl,
    h.settled, h.running⟩,
    fun b o' hb => ?_, h.calls, h.hash⟩, ⟨_, Function.update_self .., rfl⟩,
      fun b hb => Function.update_of_ne hb ..⟩
  · by_cases hba : b = a
    · subst hba
      simp only [Function.update_self, Option.some.injEq] at hb
      rw [← hb]
      exact h.onBus b o ho
    · simp only [Function.update_of_ne hba] at hb
      exact h.onBus b o' hb

/-- Registering the objects of a list of a bus event, none of which is registered. -/
lemma registerObjects (h : Serving m l g) (hk : g (.addObjs e) = some as)
    (has : ∀ a ∈ as, Unregistered m a) :
    (∃ l', Serving (m.registerObjects e) l' g) ∧ (∀ a ∈ as, Registered (m.registerObjects e) a) ∧
      ∀ a, Registered m a → Registered (m.registerObjects e) a := by
  have hfollow := h.attached.followEvents (f := onObject Registry.busRegisterObject)
    (I := fun rest m' => ∃ l', Serving m' l' g ∧
      (∃ pre, as = pre ++ rest ∧ ∀ a ∈ pre, Registered m' a) ∧
      (∀ a ∈ rest, Unregistered m' a) ∧ ∀ a, Registered m a → Registered m' a) ?_ hk
    ⟨l, h, ⟨[], rfl, fun _ => nofun⟩, has, fun _ => id⟩
  · obtain ⟨l', hl', ⟨pre, hpre, hall⟩, -, hkeep⟩ := hfollow
    rw [List.append_nil] at hpre
    exact ⟨⟨l', hl'⟩, fun a ha => hall a (hpre ▸ ha), hkeep⟩
  · rintro a rest m' ⟨l', hl', ⟨pre, hpre, hall⟩, hrest, hkeep⟩
    obtain ⟨⟨l'', hl''⟩, hnow, hother⟩ := hl'.busRegisterObject (hrest a List.mem_cons_self)
    have hstill : ∀ b, Registered m' b → Registered (m'.busRegisterObject a) b := by
      intro b hb
      by_cases hba : b = a
      · exact hba ▸ hnow
      · obtain ⟨o, ho, hreg⟩ := hb
        exact ⟨o, (hother b hba).trans ho, hreg⟩
    have hnodup := hl'.attached.nodup hk
    rw [hpre] at hnodup
    refine ⟨⟨l'', hl'', ⟨pre ++ [a], by rw [hpre]; simp, fun b hb => ?_⟩, fun b hb => ?_,
      fun b hb => hstill b (hkeep b hb)⟩, g, pre, hl''.attached, hpre ▸ hk⟩
    · rcases List.mem_append.mp hb with hb | hb
      · exact hstill b (hall b hb)
      · rw [List.mem_singleton.mp hb]
        exact hnow
    · have hba : b ≠ a := by
        rintro rfl
        exact (List.nodup_cons.mp (List.nodup_append.mp hnodup).2.1).1 hb
      obtain ⟨o, ho, hreg⟩ := hrest b (List.mem_cons_of_mem a hb)
      exact ⟨o, (hother b hba).trans ho, hreg⟩

/-- Unregistering the objects of a list of a bus event, all of which are registered. -/
lemma unregisterObjects (h : Serving m l g) (hk : g k = some as)
    (hmember : ∀ a, k.member a = .object a)
    (has : ∀ a ∈ as, Registered m a) :
    ∃ l', Serving (m.followEvents k (onObject Registry.busUnregisterObject)) l' g := by
  have hfollow := h.attached.followEvents (f := onObject Registry.busUnregisterObject)
    (I := fun rest m' => ∃ l', Serving m' l' g ∧ (∃ pre, as = pre ++ rest) ∧
      ∀ a ∈ rest, Registered m' a) ?_ hk
    ⟨l, h, ⟨[], rfl⟩, has⟩
  · obtain ⟨l', hl', -⟩ := hfollow
    exact ⟨l', hl'⟩
  · rintro a rest m' ⟨l', hl', ⟨pre, hpre⟩, hrest⟩
    obtain ⟨⟨l'', hl''⟩, -, hother⟩ := hl'.busUnregisterObject (hrest a List.mem_cons_self)
    have hnodup := hl'.attached.nodup hk
    rw [hpre] at hnodup
    rw [hmember]
    refine ⟨⟨l'', hl'', ⟨pre ++ [a], by rw [hpre]; simp⟩, fun b hb => ?_⟩, g, pre, hl''.attached,
      hpre ▸ hk⟩
    have hba : b ≠ a := by
      rintro rfl
      exact (List.nodup_cons.mp (List.nodup_append.mp hnodup).2.1).1 hb
    obtain ⟨o, ho, hreg⟩ := hrest b (List.mem_cons_of_mem a hb)
    exact ⟨o, (hother b hba).trans ho, hreg⟩

/-- What a check that succeeds tells about the objects of a bus event. -/
lemma checkBusEvent (h : Serving m l g) {rs vs : List ℕ} (hadd : g (.addObjs e) = some as)
    (hremove : g (.removeObjs e) = some rs) (hevents : g (.objEvents e) = some vs) :
    (∃ ok, m.checkBusEvent e = (ok, m) ∧
      (ok = true → (∀ a ∈ as, Unregistered m a) ∧ ∀ a ∈ rs, Registered m a)) ∨
    (m.checkBusEvent e).2 = m.crash := by
  unfold Registry.checkBusEvent
  have hobject : ∀ {ok : ObjectMem → Bool} {a : ℕ}, (m.objs a).map ok = some true →
      ∃ o, m.objs a = some o ∧ ok o = true := fun hmap => by
    obtain ⟨o, ho, hok⟩ := Option.map_eq_some_iff.mp hmap
    exact ⟨o, ho, hok⟩
  have halive : ∀ {k : EventNode} {bs : List ℕ} {ok : ObjectMem → Bool}, g k = some bs →
      (∀ a, k.member a = .object a) → ¬ ∃ a ∈ bs, testObject ok (k.member a) m = none := by
    rintro k bs ok hk hmember ⟨a, ha, hnone⟩
    have halive := h.attached.alive _ ⟨k, bs, hk, a, ha, rfl⟩
    rw [hmember, testObject, Option.map_eq_none_iff] at hnone
    rw [hmember, Alive, hnone] at halive
    cases halive
  rcases h.attached.checkNodes hadd (testObject fun o => !o.isRegistered) with
    ⟨ok, heq, hadds⟩ | ⟨-, hgone⟩
  · rw [heq]
    cases ok with
    | false => exact .inl ⟨false, rfl, (by rintro ⟨⟩)⟩
    | true =>
      simp only
      rcases h.attached.checkNodes hremove (testObject ObjectMem.isRegistered) with
        ⟨ok, heq, hremoves⟩ | ⟨-, hgone⟩
      · rw [heq]
        cases ok with
        | false => exact .inl ⟨false, rfl, (by rintro ⟨⟩)⟩
        | true =>
          simp only
          rcases h.attached.checkNodes hevents testEvent with ⟨ok, heq, -⟩ | ⟨hcrash, -⟩
          · refine .inl ⟨ok, heq, fun _ =>
              ⟨fun a ha => ?_, fun a ha => hobject (hremoves.mp rfl a ha)⟩⟩
            obtain ⟨o, ho, hno⟩ := hobject (hadds.mp rfl a ha)
            exact ⟨o, ho, by simpa using hno⟩
          · exact .inr hcrash
      · exact absurd hgone (halive hremove fun _ => rfl)
  · exact absurd hgone (halive hadd fun _ => rfl)

/-- After a fault the objects of a bus event are left alone. -/
lemma followEvents_of_fault (hf : m.fault = true) {f : ℕ → Registry → Registry}
    (hfix : ∀ a m, m.fault = true → f a m = m) : m.followEvents k (onObject f) = m := by
  refine walk_invariant (P := (· = m)) ?_ ?_ _ _ m rfl
  · rintro n m' rfl
    cases n with
    | object a => exact hfix a m' hf
    | _ => exact crash_of_fault hf
  · rintro m' rfl
    exact crash_of_fault hf

/-- A bus event is refused, sent, or fails and is undone; or one of its events has lost its object.
-/
lemma sendBusEvent (h : Serving m l g) (he : m.busEvents e = true)
    (connected buffer encoded : Bool) :
    (∃ l', Serving (m.sendBusEvent e connected buffer encoded) l' g) ∨
      m.sendBusEvent e connected buffer encoded = m.crash := by
  obtain ⟨as, hadd⟩ := h.attached.opened e he (.addObjs e) (by simp [heads])
  obtain ⟨rs, hremove⟩ := h.attached.opened e he (.removeObjs e) (by simp [heads])
  obtain ⟨vs, hevents⟩ := h.attached.opened e he (.objEvents e) (by simp [heads])
  unfold Registry.sendBusEvent
  rcases h.checkBusEvent hadd hremove hevents with ⟨ok, heq, hok⟩ | hcrash
  · cases ok with
    | false =>
      simp only [heq]
      exact .inl ⟨l, h⟩
    | true =>
      simp only [heq]
      obtain ⟨hunregistered, hregistered⟩ := hok rfl
      obtain ⟨⟨l', hl'⟩, hadded, hkept⟩ := h.registerObjects hadd hunregistered
      split
      · exact .inl (hl'.unregisterObjects hadd (fun _ => rfl) hadded)
      · exact .inl (hl'.unregisterObjects hremove (fun _ => rfl) fun a ha =>
          hkept a (hregistered a ha))
  · right
    have hregister : m.crash.registerObjects e = m.crash :=
      followEvents_of_fault rfl fun a m hf => busRegisterObject_of_fault hf
    have hunregister : ∀ k, m.crash.followEvents k (onObject Registry.busUnregisterObject) =
        m.crash :=
      fun k => followEvents_of_fault rfl fun a m hf => busUnregisterObject_of_fault hf
    cases hcheck : m.checkBusEvent e with
    | mk ok m' =>
      rw [hcheck] at hcrash
      have hcrash' : m' = m.crash := hcrash
      subst hcrash'
      cases ok with
      | false => rfl
      | true =>
        simp only [hregister, undoRegisterObjects, commitServerBusEvent, hunregister, ite_self]

/-- Destroying an object. -/
lemma objectDestroy (h : Serving m l g) (ha : (m.objs a).isSome = true) :
    Serving (m.objectDestroy a) l g ∨ Serving (m.objectDestroy a) l (g.erase (.object a)) := by
  obtain ⟨o, ho⟩ := Option.isSome_iff_exists.mp ha
  cases hreg : o.isRegistered with
  | true =>
    have hsame : m.objectDestroy a = m := by
      unfold Registry.objectDestroy
      simp only [ho, hreg, if_true]
    rw [hsame]
    exact .inl h
  | false =>
    obtain ⟨hlinked, hobjs, -, hsame⟩ := h.toLinked.objectDestroy ho hreg
    refine .inr ⟨hlinked, fun b o' hb => ?_, h.calls, fun t ht => (hsame.hash t ht).trans
      (h.hash t ht)⟩
    rw [hobjs] at hb
    by_cases hba : b = a
    · subst hba
      rw [Function.update_self] at hb
      cases hb
    · rw [Function.update_of_ne hba] at hb
      exact h.onBus b o' hb

/-- A new object is on the bus, or it is gone again. -/
lemma newObject (h : Serving m l g) (uid : UInt16) (allocObj allocEntry : Bool)
    (draws : List UInt16) : Serving (m.newObject uid allocObj allocEntry draws) l g := by
  unfold Registry.newObject
  split
  · exact h
  · have hnone := (h.tidy.fresh m.fresh le_rfl).1
    have htidy := h.tidy.objectNew uid 0
    obtain ⟨hattached, hno⟩ := h.attached.objectNew hnone uid 0
    have hlinked : Linked (m.objectNew uid 0).2 l g := ⟨htidy, hattached, h.settled, h.running⟩
    have hobj : (m.objectNew uid 0).2.objs m.fresh = some { uid := uid, handle := 0 } :=
      Function.update_self ..
    simp only
    rcases htidy.busAddObject h.running allocEntry draws hobj with hfail |
      ⟨-, x, nodes, hadd, htidy'⟩
    · have hfail' : (m.objectNew uid 0).2.busAddObject allocEntry draws (m.objectNew uid 0).1 =
        (false, (m.objectNew uid 0).2) := hfail
      simp only [hfail']
      obtain ⟨hgone, hobjs, -, hsame⟩ := hlinked.objectDestroy hobj rfl
      rw [EventLists.erase_of_not_member hno] at hgone
      refine ⟨hgone, fun b o' hb => h.onBus b o' ?_, h.calls, fun t ht => (hsame.hash t ht).trans
        (h.hash t ht)⟩
      have hback : Function.update (m.objectNew uid 0).2.objs m.fresh none = m.objs := by
        change Function.update (Function.update m.objs m.fresh _) m.fresh none = m.objs
        rw [Function.update_idem, ← hnone, Function.update_eq_self]
      have hb' : ((m.objectNew uid 0).2.objectDestroy m.fresh).objs b = some o' := hb
      rwa [hobjs, hback] at hb'
    · have hadd' : (m.objectNew uid 0).2.busAddObject allocEntry draws (m.objectNew uid 0).1 = _ :=
        hadd
      simp only [hadd']
      refine ⟨⟨htidy', hattached.congr rfl rfl (fun _ => id) rfl (fun _ => isSome_update) le_rfl,
        h.settled, h.running⟩,
        fun b o' hb => ?_, h.calls, fun t ht => (Function.update_of_ne ht ..).trans (h.hash t ht)⟩
      · by_cases hba : b = m.fresh
        · subst hba
          simp only [Function.update_self, Option.some.injEq] at hb
          rw [← hb]
        · have hb' : Function.update (Function.update m.objs m.fresh _) m.fresh _ b = some o' := hb
          rw [Function.update_idem, Function.update_of_ne hba] at hb'
          exact h.onBus b o' hb'

/-- Pointers of bus events do not matter for what is on the bus. -/
lemma of_linked (h : Serving m l g) {g' : EventLists} (hlinked : Linked m' l g')
    (hobjs : ∀ a o, m'.objs a = some o → m.objs a = some o)
    (hhash : ∀ t ≠ .objects, m'.hash t = m.hash t) : Serving m' l g' :=
  ⟨hlinked, fun a o ha => h.onBus a o (hobjs a o ha), h.calls, fun t ht => (hhash t ht).trans
    (h.hash t ht)⟩

/-- Destroying an event. -/
lemma eventDestroy (h : Serving m l g) {v : ℕ} (hv : (m.events v).isSome = true) :
    Serving (m.eventDestroy v) l g ∨ Serving (m.eventDestroy v) l (g.erase (.event v)) := by
  obtain ⟨ev, hev⟩ := Option.isSome_iff_exists.mp hv
  obtain ⟨links, ds, es, heq, hlinked⟩ := h.toLinked.eventDestroy hev
  rw [heq]
  have hserving := h.of_linked hlinked (fun _ _ => id) fun _ _ => rfl
  split at hserving
  · exact .inr hserving
  · exact .inl hserving

/-- Taking all members out of a list of a bus event. -/
lemma unlinkAll {f : ℕ → Registry → Registry} {F : EventNode → Registry → Registry}
    (hF : ∀ a m, F (k.member a) m = f a (m.eventDel (k.member a)))
    (hf : ∀ a m g, Serving m l g → ¬ g.Member (k.member a) → m.Alive (k.member a) →
      Serving (f a m) l g)
    (h : Serving m l g) (hk : g k = some as) :
    Serving (m.walkEvents k F) l (Function.update g k (some [])) := by
  have hall :=
    h.toLinked.unlinkAll (Q := fun _ m l' => (∀ a o, m.objs a = some o → o.bus = true) ∧ l' = l ∧
      ∀ t ≠ .objects, m.hash t = []) hF (fun _ _ _ _ _ => id) ?_ hk ⟨h.onBus, rfl, h.hash⟩
  · obtain ⟨⟨l', hlinked, hbus, rfl, hhash⟩, -⟩ := hall
    exact ⟨hlinked, hbus, h.calls, hhash⟩
  · rintro a rest m' l' hlinked ⟨hbus, rfl, hhash⟩ hno halive
    have hserving := hf a m' _ ⟨hlinked, hbus, h.calls, hhash⟩ hno halive
    exact ⟨l', hserving.toLinked, hserving.onBus, rfl, hserving.hash⟩

/-- Destroying a bus event empties its lists. -/
lemma busEventDestroy (h : Serving m l g) (he : m.busEvents e = true) :
    ∃ g', Serving (m.busEventDestroy e) l g' := by
  obtain ⟨as, hadd⟩ := h.attached.opened e he (.addObjs e) (by simp [heads])
  obtain ⟨rs, hremove⟩ := h.attached.opened e he (.removeObjs e) (by simp [heads])
  obtain ⟨vs, hevents⟩ := h.attached.opened e he (.objEvents e) (by simp [heads])
  have h₁ := h.unlinkAll (k := .objEvents e)
    (F := onEvent fun v m => (m.eventDel (.event v)).eventDestroy v)
    (fun _ _ => rfl) (fun v m g h hno halive => by
      rcases h.eventDestroy halive with hstay | hgone
      · exact hstay
      · rwa [EventLists.erase_of_not_member (x := .event v) hno] at hgone) hevents
  have h₂ := h₁.unlinkAll (k := .addObjs e) (f := fun _ m => m)
    (F := onObject fun a m => m.eventDel (.object a))
    (fun _ _ => rfl) (fun _ _ _ h _ _ => h) (by rwa [Function.update_of_ne (by simp)])
  have h₃ := h₂.unlinkAll (k := .removeObjs e)
    (F := onObject fun a m => (m.eventDel (.object a)).objectDestroy a) (fun _ _ => rfl)
    (fun a m g h hno halive => by
      rcases h.objectDestroy halive with hstay | hgone
      · exact hstay
      · rwa [EventLists.erase_of_not_member (x := .object a) hno] at hgone)
    (by rwa [Function.update_of_ne (by simp), Function.update_of_ne (by simp)])
  have heq := live_of_running
    (f := fun m => { m with busEvents := Function.update m.busEvents e false }) h₃.running
  unfold Registry.busEventDestroy
  simp only [heq]
  refine ⟨_, h₃.of_linked ⟨h₃.tidy.congr rfl rfl rfl rfl le_rfl id, h₃.attached.congr rfl rfl
    (fun d hd => ?_) rfl
    (fun _ => id) le_rfl, h₃.settled, h₃.running⟩ (fun _ _ => id) fun _ _ => rfl⟩
  by_cases hde : d = e
  · subst hde
    simp at hd
  · simpa only [Function.update_of_ne hde] using hd

/-- Putting a node into a list of a bus event, if it is in none. -/
lemma attach (h : Serving m l g) (hk : g k = some as) (halive : m.Alive (k.member a)) :
    ∃ g', Serving (if m.eventNodes.isRef (k.member a) then m else m.eventAddBefore k (k.member a))
      l g' := by
  split
  · exact ⟨g, h⟩
  · next href =>
    have hno : ¬ g.Member (k.member a) := fun hmem =>
      href ((h.attached.isRef_iff (h.attached.member_none k a)).mpr hmem)
    have hlt : a < m.fresh := by
      by_contra hge
      cases k with
      | objEvents e =>
        simp [Alive, EventNode.member, h.attached.events a (by omega)] at halive
      | _ => simp [Alive, EventNode.member, (h.tidy.fresh a (by omega)).1] at halive
    obtain ⟨links, heq, hattached⟩ := h.attached.eventAddBefore h.running hk hno halive hlt
    rw [heq]
    exact ⟨_, h.of_linked ⟨h.tidy.congr rfl rfl rfl rfl le_rfl id, hattached, h.settled, h.running⟩
      (fun _ _ => id)
      fun _ _ => rfl⟩

/-- What an operation keeps, except the last one. -/
lemma perform (h : Serving m l g) {op : RegistryOp} (hvalid : m.Valid op = true)
    (hop : op ≠ .destroy) : (∃ l' g', Serving (m.perform op) l' g') ∨ m.perform op = m.crash := by
  cases op with
  | destroy => exact absurd rfl hop
  | newObject uid allocObj allocEntry draws =>
    exact .inl ⟨l, g, h.newObject uid allocObj allocEntry draws⟩
  | registerObject a =>
    obtain ⟨o, ho⟩ := Option.isSome_iff_exists.mp hvalid
    left
    simp only [Registry.perform, registerObject, ho]
    cases hreg : o.isRegistered with
    | true => exact ⟨l, g, h⟩
    | false =>
      obtain ⟨⟨l', hl'⟩, -⟩ := h.busRegisterObject ⟨o, ho, hreg⟩
      exact ⟨l', g, hl'⟩
  | unregisterObject a =>
    obtain ⟨o, ho⟩ := Option.isSome_iff_exists.mp hvalid
    left
    simp only [Registry.perform, unregisterObject, ho]
    cases hreg : o.isRegistered with
    | false => exact ⟨l, g, h⟩
    | true =>
      obtain ⟨⟨l', hl'⟩, -⟩ := h.busUnregisterObject ⟨o, ho, hreg⟩
      exact ⟨l', g, hl'⟩
  | objectDestroy a =>
    rcases h.objectDestroy hvalid with hstay | hgone
    · exact .inl ⟨l, g, hstay⟩
    · exact .inl ⟨l, _, hgone⟩
  | eventNew isAllocated obj =>
    obtain ⟨hattached, -⟩ := h.attached.eventNew isAllocated obj
    exact .inl ⟨l, g, h.of_linked
      ⟨h.tidy.congr rfl rfl rfl rfl (Nat.le_succ _) id, hattached, h.settled, h.running⟩
      (fun _ _ => id) fun _ _ => rfl⟩
  | eventDestroy v =>
    rcases h.eventDestroy hvalid with hstay | hgone
    · exact .inl ⟨l, g, hstay⟩
    · exact .inl ⟨l, _, hgone⟩
  | busEventNew =>
    exact .inl ⟨l, _, h.of_linked
      ⟨h.tidy.congr rfl rfl rfl rfl (Nat.le_succ _) id, h.attached.busEventNew, h.settled,
      h.running⟩ (fun _ _ => id) fun _ _ => rfl⟩
  | busEventRegisterObject e a =>
    obtain ⟨he, ha⟩ := Bool.and_eq_true_iff.mp hvalid
    obtain ⟨as, hadd⟩ := h.attached.opened e he (.addObjs e) (by simp [heads])
    obtain ⟨g', hg'⟩ := h.attach (a := a) hadd ha
    exact .inl ⟨l, g', hg'⟩
  | busEventUnregisterObject e a =>
    obtain ⟨he, ha⟩ := Bool.and_eq_true_iff.mp hvalid
    obtain ⟨rs, hremove⟩ := h.attached.opened e he (.removeObjs e) (by simp [heads])
    obtain ⟨g', hg'⟩ := h.attach (a := a) hremove ha
    exact .inl ⟨l, g', hg'⟩
  | busEventAddEvent e v =>
    obtain ⟨he, hv⟩ := Bool.and_eq_true_iff.mp hvalid
    obtain ⟨vs, hevents⟩ := h.attached.opened e he (.objEvents e) (by simp [heads])
    obtain ⟨g', hg'⟩ := h.attach (a := v) hevents hv
    exact .inl ⟨l, g', hg'⟩
  | sendBusEvent e connected buffer encoded =>
    rcases h.sendBusEvent hvalid connected buffer encoded with ⟨l', hl'⟩ | hcrash
    · exact .inl ⟨l', g, hl'⟩
    · exact .inr hcrash
  | busEventDestroy e =>
    obtain ⟨g', hg'⟩ := h.busEventDestroy hvalid
    exact .inl ⟨l, g', hg'⟩

lemma busInit : Serving busInit {} fun _ => none where
  tidy := busInit_tidy
  attached :=
    { circles := Circles.empty
      head := nofun
      opened := nofun
      alive := by
        rintro x ⟨n, as, hn, -⟩
        cases hn
      below := nofun
      events := fun _ _ => rfl
      clean := nofun }
  settled := nofun
  running := rfl
  onBus := nofun
  calls := rfl
  hash _ _ := rfl

end Serving

end Registry
end Obus
