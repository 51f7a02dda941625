import Obus.Calls

/-!
# The loss of a connection

A client announces to the providers of its user each object that it adds to its bus, and each that
it removes.  The functions `stepAnnounces` and those before it list the announcements of a step; a
provider is asked by the uid of the descriptor of an object, and the providers stay the same.

`obus_client_disconnect` removes the objects only if the client was connected, but packets that
bring objects are handled in any state.  A disconnection leaves a clean bus (`CleanBus`) exactly if
the client is connected or has no objects when it happens (`disconnections_clean_iff`).
-/

namespace Obus

/-! ## Announcements -/

/-- What a client tells the provider of an object. -/
inductive Announcement where
  | added (obj : ObjectRef)
  | removed (obj : ObjectRef)
  deriving DecidableEq

/-- The objects that are announced, after one more announcement.  None is announced as added while
another one has its handle, and none as removed that is not announced. -/
def Announcement.apply (known : List ObjectRef) : Announcement → Option (List ObjectRef)
  | .added obj => if obj.handle ∈ known.map ObjectRef.handle then none else some (known ++ [obj])
  | .removed obj => if obj ∈ known then some (known.erase obj) else none

/-- The objects that were announced as added and have not been announced as removed since. -/
def announcedObjects (log : List Announcement) : Option (List ObjectRef) :=
  log.foldlM Announcement.apply []

/-- Every object was announced as removed as often as it was announced as added, unless it is still
announced. -/
lemma count_announced {log : List Announcement} {known known' : List ObjectRef}
    (h : log.foldlM Announcement.apply known = some known') (obj : ObjectRef) :
    known.count obj + log.count (.added obj) = known'.count obj + log.count (.removed obj) := by
  induction log generalizing known with
  | nil =>
    cases h
    simp
  | cons a log ih =>
    rw [List.foldlM_cons, Option.bind_eq_bind, Option.bind_eq_some_iff] at h
    obtain ⟨next, hnext, hrest⟩ := h
    have hlog := ih hrest
    cases a with
    | added obj' =>
      simp only [Announcement.apply] at hnext
      split at hnext
      · cases hnext
      · cases hnext
        rw [List.count_append, List.count_singleton] at hlog
        rw [List.count_cons, List.count_cons]
        by_cases heq : obj' = obj
        · subst heq
          simp at hlog ⊢
          omega
        · simp [heq] at hlog ⊢
          omega
    | removed obj' =>
      simp only [Announcement.apply] at hnext
      split at hnext
      · next hmem =>
        cases hnext
        rw [List.count_erase] at hlog
        rw [List.count_cons, List.count_cons]
        by_cases heq : obj' = obj
        · subst heq
          have hpos := List.count_pos_iff.mpr hmem
          simp at hlog ⊢
          omega
        · simp [heq] at hlog ⊢
          omega
      · cases hnext

namespace Client

variable (providers : UInt16 → Bool)

/-- The announcements while the elements of a list are handled one after the other. -/
def foldAnnounces {α : Type} (body : α → Client → Client)
    (announces : α → Client → List Announcement) : List α → Client → List Announcement
  | [], _ => []
  | x :: xs, c => announces x c ++ foldAnnounces body announces xs (body x c)

/-- In `obus_client_add_object_notify`, after an object was added. -/
def addObjectAnnounces (obj : Object) (c : Client) : List Announcement :=
  match busAddObject [] obj c.bus with
  | .error _ => []
  | .ok (obj, _) => if providers obj.desc.uid then [.added obj.ref] else []

/-- In `obus_client_remove_object`. -/
def removeObjectAnnounces (obj : Option ObjectRef) (c : Client) : List Announcement :=
  match obj.bind fun o => c.bus.object? o.handle with
  | none => []
  | some o => if providers o.desc.uid then [.removed o.ref] else []

/-- In `obus_client_commit_bus_event`. -/
def commitBusEventAnnounces (e : BusEvent) (c : Client) : List Announcement :=
  let added := e.addObjs.foldl (fun c o => c.addObject o) c
  foldAnnounces addObject (addObjectAnnounces providers) e.addObjs c ++
    foldAnnounces (fun o => removeObject (some o))
      (fun o => removeObjectAnnounces providers (some o))
      e.removeObjs (e.objEvents.foldl (fun c v => c.event v) added)

/-- In `obus_client_connection_response`. -/
def connectionResponseAnnounces (status : ConrespStatus) (objects : List Object) (c : Client) :
    List Announcement :=
  if c.state ≠ .connecting then []
  else if status ≠ .accepted then []
  else foldAnnounces addObject (addObjectAnnounces providers) objects { c with state := .connected }

/-- In `obus_client_disconnect_bus`. -/
def disconnectBusAnnounces (c : Client) : List Announcement :=
  foldAnnounces (fun o => removeObject (some o)) (fun o => removeObjectAnnounces providers (some o))
    (c.bus.registered.map Object.ref) c

/-- In `obus_client_disconnect`. -/
def disconnectAnnounces (c : Client) : List Announcement :=
  if c.state = .connected then { c with state := .disconnecting }.disconnectBusAnnounces
    providers else []

/-- In a step of a client. -/
def stepAnnounces (c : Client) : ClientOp → List Announcement
  | .packet (.conresp status objects) => c.connectionResponseAnnounces providers status objects
  | .packet (.add obj) => c.addObjectAnnounces providers obj
  | .packet (.remove obj) => c.removeObjectAnnounces providers obj
  | .packet (.busEvent e) => c.commitBusEventAnnounces providers e
  | .packet _ | .start | .call _ => []
  | .disconnect _ => c.disconnectAnnounces providers

/-- The registered objects that have a provider. -/
def known (c : Client) : List ObjectRef := (c.bus.registered.map Object.ref).filter fun o =>
  providers o.desc.uid

end Client

/-- A client, and the announcements that it has made. -/
abbrev WatchedClient := Client × List Announcement

/-- A step of a client, with its announcements. -/
def watchedStep (providers : UInt16 → Bool) (w : WatchedClient) (op : ClientOp) :
    Option WatchedClient :=
  (clientStep w.1 op).map fun c => (c, w.2 ++ w.1.stepAnnounces providers op)

/-- The objects of a list, for each handle the first one. -/
def firstByHandle : List Object → List Object
  | [] => []
  | o :: objects => o :: (firstByHandle objects).filter (·.handle ≠ o.handle)

/-- Decoded objects have a descriptor and a handle. -/
def Object.Listed (o : Object) : Prop := o.desc.uid ≠ 0 ∧ o.handle ≠ 0

instance : DecidablePred Object.Listed :=
  fun o => inferInstanceAs (Decidable (o.desc.uid ≠ 0 ∧ o.handle ≠ 0))

/-- Nothing is left on the bus of a client, and a response will bring the objects that it lists. -/
structure CleanBus (w : WatchedClient) : Prop where
  registered : w.1.bus.registered = []
  calls : w.1.calls = [] ∧ w.1.callsHash = []
  /-- No object is announced any more. -/
  announced : announcedObjects w.2 = some []
  once : ∀ obj, w.2.count (.removed obj) = w.2.count (.added obj)
  response : w.1.state = .connecting → ∀ objects,
    (w.1.connectionResponse .accepted objects).state = .connected ∧
    (w.1.connectionResponse .accepted objects).bus.registered =
      (firstByHandle (objects.filter Object.Listed)).map fun o => { o with isRegistered := true }

/-- A disconnection leaves a clean bus. -/
def LeavesCleanBus (providers : UInt16 → Bool) (w : WatchedClient) : ClientOp → Prop
  | .disconnect reconnect =>
    ∀ w', watchedStep providers w (.disconnect reconnect) = some w' → CleanBus w'
  | _ => True

/-- A disconnection happens to a client that is connected or has no objects. -/
def ConnectedOrEmpty (w : WatchedClient) : ClientOp → Prop
  | .disconnect _ => w.1.fault = false → w.1.state = .connected ∨ w.1.bus.registered = []
  | _ => True

/-! ## What a step does to the objects -/

namespace Client

variable {providers : UInt16 → Bool} {c c' c'' : Client} {log log' : List Announcement}

/-- The calls of a client are in order, and all its objects are registered. -/
structure Steady (c : Client) : Prop extends CallsOk c where
  all : ∀ h o, c.bus.object? h = some o → o.isRegistered = true

/-- A client goes on with no calls but its own, and the announcements fit its objects. -/
structure Advance (providers : UInt16 → Bool) (c : Client) (log : List Announcement) (c' : Client) :
    Prop where
  steady : Steady c'
  calls : ∀ call ∈ c'.calls, call ∈ c.calls
  state : c'.state = c.state
  follows : log.foldlM Announcement.apply (c.known providers) = some (c'.known providers)

lemma Advance.trans (h : Advance providers c log c') (h' : Advance providers c' log' c'') :
    Advance providers c (log ++ log') c'' := by
  refine ⟨h'.steady, fun call hcall => h.calls call (h'.calls call hcall),
    h'.state.trans h.state, ?_⟩
  rw [List.foldlM_append, h.follows]
  exact h'.follows

/-- Elements that are handled one after the other, where the program may fault. -/
lemma foldAnnounces_advance {α : Type} {body : α → Client → Client}
    {announces : α → Client → List Announcement}
    (hfault : ∀ x c, c.fault = true → (body x c).fault = true)
    (hbody : ∀ x c, Steady c → (body x c).fault = true ∨
      Advance providers c (announces x c) (body x c))
    (xs : List α) (h : Steady c) :
    (xs.foldl (fun c x => body x c) c).fault = true ∨
      Advance providers c (foldAnnounces body announces xs c)
        (xs.foldl (fun c x => body x c) c) := by
  have hlost : ∀ (xs : List α) (c : Client), c.fault = true →
      (xs.foldl (fun c x => body x c) c).fault = true := by
    intro xs
    induction xs with
    | nil => exact fun _ => id
    | cons x xs ih => exact fun c hc => ih _ (hfault x c hc)
  induction xs generalizing c with
  | nil => exact .inr ⟨h, fun _ => id, rfl, rfl⟩
  | cons x xs ih =>
    rcases hbody x c h with hx | hx
    · exact .inl (hlost xs _ hx)
    · rcases ih hx.steady with hxs | hxs
      · exact .inl hxs
      · exact .inr (hx.trans hxs)

namespace Steady

/-- Announced objects are found under their handles. -/
lemma object?_of_known {r : ObjectRef} (hr : r ∈ c.known providers) :
    ∃ o, c.bus.object? r.handle = some o ∧ o.ref = r := by
  obtain ⟨o, ho, rfl⟩ := List.mem_map.mp (List.mem_filter.mp hr).1
  exact ⟨o, (Bus.mem_registered.mp ho).2, rfl⟩

lemma addObject (h : Steady c) (obj : Object) :
    Advance providers c (c.addObjectAnnounces providers obj) (c.addObject obj) := by
  obtain ⟨hcalls, hgain, hstate⟩ := h.toCallsOk.addObject obj
  have hnone : c.addObject obj = c → c.addObjectAnnounces providers obj = [] →
      Advance providers c (c.addObjectAnnounces providers obj) (c.addObject obj) := by
    intro heq hlog
    rw [heq, hlog]
    exact ⟨h, fun _ => id, rfl, rfl⟩
  rcases addObject_cases h.bus obj with ⟨heq, hreason⟩ | ⟨bus, heq, hok, -, hfree, hreg, hfind⟩
  · apply hnone heq
    unfold addObjectAnnounces busAddObject
    rcases hreason with huid | hzero | hused
    · simp [huid]
    · by_cases huid : obj.desc.uid = 0 <;> simp [huid, hzero, randHandle]
    · have hzero : obj.handle ≠ 0 := by
        obtain ⟨a, ha, heq⟩ := List.mem_map.mp hused
        exact heq ▸ h.bus.nonzero a ha
      have hany : c.bus.hash.any (·.handle = obj.handle) = true := by
        obtain ⟨a, ha, heq⟩ := List.mem_map.mp hused
        exact List.any_eq_true.mpr ⟨a, ha, by simpa using heq⟩
      by_cases huid : obj.desc.uid = 0 <;> simp [huid, hzero, hany]
  · -- the object was added, so that it was announced
    have hlog : c.addObjectAnnounces providers obj = if providers obj.desc.uid then [.added obj.ref]
        else [] := by
      have hlast : ({ obj with isRegistered := true } : Object) ∈
          (c.addObject obj).bus.registered := by
        rw [heq, hreg]
        exact List.mem_append_right _ (List.mem_singleton_self _)
      unfold addObjectAnnounces
      cases hadd : busAddObject [] obj c.bus with
      | error e =>
        rw [Client.addObject, hadd] at hlast
        rw [(Bus.mem_registered.mp hlast).2] at hfree
        cases hfree
      | ok r =>
        obtain ⟨o', bus'⟩ := r
        have hzero : obj.handle ≠ 0 := Bus.object?_ne_zero ((hfind obj.handle).trans (if_pos rfl))
        obtain rfl := (Bus.Ok.add hadd).2.2.2.2.2.2 hzero
        rfl
    have hknown : (c.addObject obj).known providers =
        c.known providers ++ if providers obj.desc.uid then [obj.ref] else [] := by
      rw [known, heq]
      simp only [hreg, List.map_append, List.filter_append, List.map_cons, List.map_nil]
      refine congrArg₂ (· ++ ·) rfl ?_
      change List.filter _ [obj.ref] = _
      rw [List.filter_singleton, Bool.cond_eq_ite]
      rfl
    refine ⟨⟨hcalls, fun x o ho => ?_⟩, fun _ hcall => hgain.calls ▸ hcall, hstate, ?_⟩
    · rw [heq] at ho
      simp only [hfind] at ho
      split at ho
      · cases ho
        rfl
      · exact h.all x o ho
    · have hnew : obj.ref.handle ∉ (c.known providers).map ObjectRef.handle := by
        intro hmem
        obtain ⟨r, hr, hhandle⟩ := List.mem_map.mp hmem
        obtain ⟨o, ho, -⟩ := object?_of_known hr
        rw [hhandle] at ho
        exact absurd (ho.symm.trans hfree) (by rintro ⟨⟩)
      rw [hlog, hknown]
      split
      · rw [List.foldlM_cons, Announcement.apply, if_neg hnew]
        rfl
      · simp

lemma event (h : Steady c) (e : Event) : Advance providers c [] (c.event e) := by
  obtain ⟨hcalls, hgain, hstate⟩ := h.toCallsOk.event e
  refine ⟨⟨hcalls, fun x o ho => ?_⟩, fun _ hcall => hgain.calls ▸ hcall, hstate, ?_⟩
  · rw [Client.event, Bus.Ok.object?_eventCommit] at ho
    obtain ⟨a, ha, rfl⟩ := Option.map_eq_some_iff.mp ho
    have hreg := h.all x a ha
    split
    · split <;> exact hreg
    · exact hreg
  · have hsame : (c.event e).known providers = c.known providers := by
      rw [known, Client.event, Bus.Ok.registered_eventCommit, List.map_map]
      refine congrArg _ (List.map_congr_left fun o _ => ?_)
      simp only [Function.comp_apply]
      split
      · split <;> rfl
      · rfl
    rw [hsame]
    rfl

/-- Removing an object that is not there is a fault; otherwise it is registered, and removed. -/
lemma removeObject (h : Steady c) (obj : Option ObjectRef) :
    (c.removeObject obj).fault = true ∨
      Advance providers c (c.removeObjectAnnounces providers obj) (c.removeObject obj) := by
  cases obj with
  | none => exact .inl rfl
  | some r =>
    obtain ⟨hbus, -⟩ := c.abortCall_frame (some r.handle)
    cases hfound : c.bus.object? r.handle with
    | none =>
      left
      simp only [Client.removeObject, Option.map_some, hbus, hfound, Option.isNone_none, if_true]
    | some o =>
      right
      have hflag : isRegistered r.handle c.bus = true :=
        Bus.Ok.isRegistered_iff.mpr ⟨o, hfound, h.all _ o hfound⟩
      obtain ⟨hcalls, hstate, hkeep, -⟩ := h.toCallsOk.removeObject (o := r) hflag
      obtain ⟨-, hreg, hfind⟩ := remove_spec (h := r.handle) h.bus
      have hhandle := Bus.object?_handle hfound
      have heq : (c.removeObject (some r)).bus = busRemoveObject r.handle
          (busUnregisterObject r.handle c.bus) := by
        simp only [Client.removeObject, Option.map_some, hbus, hfound, Option.isNone_some,
          Bool.false_eq_true,
          if_false]
      -- the announced objects have different handles
      have hinj : ∀ q ∈ c.known providers, (q != o.ref) = decide (q.handle ≠ r.handle) := by
        intro q hq
        obtain ⟨a, ha, rfl⟩ := object?_of_known hq
        rw [Bool.eq_iff_iff, bne_iff_ne, decide_eq_true_iff]
        refine not_congr ⟨fun heq => heq ▸ hhandle, fun hsame => ?_⟩
        rw [hsame, hfound] at ha
        cases ha
        rfl
      have hnodup : (c.known providers).Nodup := by
        refine List.Nodup.filter _ (List.Nodup.of_map ObjectRef.handle ?_)
        rw [List.map_map]
        exact h.bus.registered_handles ▸ h.bus.nodup
      have hknown : (c.removeObject (some r)).known providers = (c.known providers).filter
          (· != o.ref) := by
        rw [List.filter_congr hinj, known, known, heq, hreg, List.filter_filter, List.filter_map,
          List.filter_map,
          List.filter_filter]
        refine congrArg _ (List.filter_congr fun a _ => ?_)
        exact Bool.and_comm _ _
      refine ⟨⟨hcalls, fun x a ha => ?_⟩, fun call hcall => (hkeep call hcall).1, hstate, ?_⟩
      · rw [heq, hfind] at ha
        split at ha
        · cases ha
        · exact h.all x a ha
      · have hlog : c.removeObjectAnnounces providers (some r) =
            if providers o.desc.uid then [.removed o.ref] else [] := by
          simp only [removeObjectAnnounces, Option.bind_some, hfound]
        rw [hlog, hknown, ← hnodup.erase_eq_filter]
        split
        · next hprov =>
          have hmem : o.ref ∈ c.known providers := by
            refine List.mem_filter.mpr ⟨List.mem_map_of_mem (Bus.mem_registered.mpr ?_), hprov⟩
            rw [hhandle]
            exact ⟨(h.bus.flags _).mpr hflag, hfound⟩
          rw [List.foldlM_cons, Announcement.apply, if_pos hmem]
          rfl
        · next hprov =>
          have hmem : o.ref ∉ c.known providers := fun hmem => hprov (List.mem_filter.mp hmem).2
          rw [List.erase_of_not_mem hmem]
          rfl

end Steady

/-- The fault of a client stays while objects are removed. -/
lemma removeObject_fault (obj : Option ObjectRef) (c : Client) (h : c.fault = true) :
    (c.removeObject obj).fault = true := by
  have habort : ∀ (l : List ClientCall) (c : Client), c.fault = true →
      (l.foldl (fun c call => complete call CallStatus.aborted.code c) c).fault = true := by
    intro l
    induction l with
    | nil => exact fun _ => id
    | cons call l ih =>
      intro c hc
      have hsame : (complete call CallStatus.aborted.code c).fault = c.fault := by
        unfold complete unregisterCall
        split <;> rfl
      exact ih _ (hsame.trans hc)
  have hfault : (c.abortCall (obj.map ObjectRef.handle)).fault = true := habort _ c h
  unfold removeObject
  cases obj with
  | none => rfl
  | some o =>
    simp only
    split
    · rfl
    · exact hfault

namespace Steady

/-- The objects of a packet are added, and the events of a bus event are committed. -/
lemma foldl_addObject (h : Steady c) (objects : List Object) :
    Advance providers c (foldAnnounces Client.addObject (addObjectAnnounces providers) objects c)
      (objects.foldl (fun c o => c.addObject o) c) := by
  induction objects generalizing c with
  | nil => exact ⟨h, fun _ => id, rfl, rfl⟩
  | cons o objects ih =>
    have hadd : Advance providers c _ _ := h.addObject o
    exact hadd.trans (ih hadd.steady)

lemma foldl_event (h : Steady c) (events : List Event) :
    Advance providers c [] (events.foldl (fun c v => c.event v) c) := by
  induction events generalizing c with
  | nil => exact ⟨h, fun _ => id, rfl, rfl⟩
  | cons v events ih =>
    have hevent : Advance providers c _ _ := h.event v
    exact hevent.trans (ih hevent.steady)

lemma commitBusEvent (h : Steady c) (e : BusEvent) :
    (c.commitBusEvent e).fault = true ∨
      Advance providers c (c.commitBusEventAnnounces providers e) (c.commitBusEvent e) := by
  have hadd : Advance providers c _ _ := foldl_addObject h e.addObjs
  have hevents : Advance providers _ _ _ := foldl_event hadd.steady e.objEvents
  have hremove : _ ∨ Advance providers _ _ _ :=
    foldAnnounces_advance (fun (o : ObjectRef) c => removeObject_fault (some o) c)
      (fun o c hc => hc.removeObject (some o)) e.removeObjs hevents.steady
  refine hremove.imp id fun hremove => ?_
  have hall := hadd.trans (hevents.trans hremove)
  rwa [List.nil_append] at hall

end Steady

/-- After the bus was disconnected no object is left. -/
lemma disconnectBus_spec (h : CallsOk c) : CallsOk c.disconnectBus ∧
    c.disconnectBus.bus.objects = [] := by
  have hrefs : (c.bus.registered.map Object.ref).map ObjectRef.handle = c.bus.objects := by
    rw [List.map_map]
    exact h.bus.registered_handles
  obtain ⟨hok, -, -, hsplit⟩ := h.foldl_removeObject (hrefs ▸ h.bus.nodup) fun o ho =>
    (h.bus.flags _).mp (hrefs ▸ List.mem_map_of_mem ho)
  rw [List.foldl_map] at hok hsplit
  refine ⟨hok, List.eq_nil_iff_forall_not_mem.mpr fun x hx => ?_⟩
  obtain ⟨hout, hreg⟩ := (hsplit x).mp ((hok.bus.flags x).mp hx)
  rw [hrefs] at hout
  exact hout ((h.bus.flags x).mpr hreg)

/-- Between the steps of a client: without a connection there are no calls. -/
structure Resting (c : Client) : Prop extends Steady c where
  idle : c.state ≠ .connected → c.calls = []

namespace Resting

lemma new (api : BusDesc) : Resting (clientNew api) where
  toCallsOk := (StepOk.new api).toCallsOk
  all h o ho := by simp [clientNew, Bus.object?] at ho
  idle _ := rfl

lemma of_advance (h : Resting c) (hadv : Advance providers c log c') : Resting c' := by
  refine ⟨hadv.steady, fun hne => List.eq_nil_iff_forall_not_mem.mpr fun call hcall => ?_⟩
  have hin := hadv.calls call hcall
  rw [h.idle (hadv.state ▸ hne)] at hin
  cases hin

/-- A change of the state of a client without calls. -/
lemma setState (h : Resting c) (hnone : c.calls = []) (st : ClientState) :
    Resting { c with state := st } where
  toCallsOk := ⟨h.bus, h.hash, h.handles, h.nonzero, h.once, h.accepted, h.numbers,
    h.objects, h.fault⟩
  all := h.all
  idle _ := hnone

/-- A packet either is a fault, or its announcements fit what it does to the objects. -/
lemma packet (h : Resting c) (info : PacketInfo) :
    (c.packet info).fault = true ∨ Resting (c.packet info) ∧
      (c.stepAnnounces providers (.packet info)).foldlM Announcement.apply (c.known providers) =
        some ((c.packet info).known providers) := by
  have hsame : Resting c ∧ ([] : List Announcement).foldlM Announcement.apply (c.known providers) =
      some (c.known providers) := ⟨h, rfl⟩
  have hadvance : ∀ {log : List Announcement} {c' : Client}, Advance providers c log c' →
      Resting c' ∧ log.foldlM Announcement.apply (c.known providers) = some (c'.known providers) :=
    fun hadv => ⟨h.of_advance hadv, hadv.follows⟩
  cases info with
  | conreq req => exact .inr hsame
  | call call => exact .inr hsame
  | conresp status objects =>
    right
    rw [Client.packet, stepAnnounces, connectionResponse, connectionResponseAnnounces]
    split
    · exact hsame
    · next hstate =>
      have hnone : c.calls = [] := h.idle fun hc => hstate (by simp [hc])
      split
      · exact ⟨h.setState hnone _, rfl⟩
      · have hset := h.setState hnone .connected
        have hadd : Advance providers _ _ _ := hset.toSteady.foldl_addObject objects
        exact ⟨hset.of_advance hadd, hadd.follows⟩
  | add obj => exact .inr (hadvance (h.toSteady.addObject obj))
  | remove obj => exact (h.toSteady.removeObject obj).imp id hadvance
  | event e => exact .inr (hadvance (h.toSteady.event e))
  | busEvent e => exact (h.toSteady.commitBusEvent e).imp id hadvance
  | ack a =>
    obtain ⟨hcalls, hsub, hstate⟩ := h.toCallsOk.ack a
    have hbus : (c.ack a).bus = c.bus := by
      unfold Client.ack
      split
      · rfl
      · exact (complete_frame c _ _).1
    have hadv : Advance providers c [] (c.ack a) := by
      refine ⟨⟨hcalls, ?_⟩, hsub, hstate, ?_⟩
      · rw [hbus]
        exact h.all
      · change some (c.known providers) = some (known providers (c.ack a))
        rw [known, known, hbus]
    exact .inr (hadvance hadv)

/-- A disconnection; the objects are removed if there was a connection. -/
lemma disconnect (providers : UInt16 → Bool) (h : Resting c) (reconnect : Bool) :
    Resting (c.disconnect reconnect) ∧
      (c.disconnectAnnounces providers).foldlM Announcement.apply (c.known providers) =
        some ((c.disconnect reconnect).known providers) ∧
      (c.state = .connected → (c.disconnect reconnect).bus.objects = []) := by
  unfold Client.disconnect disconnectAnnounces
  simp only
  split
  · next hstate =>
    have hstart : Steady { c with state := .disconnecting } :=
      ⟨⟨h.bus, h.hash, h.handles, h.nonzero, h.once, h.accepted, h.numbers, h.objects, h.fault⟩,
        h.all⟩
    obtain ⟨hok, hempty⟩ := disconnectBus_spec hstart.toCallsOk
    have hadv : _ ∨ Advance providers _ _ _ := foldAnnounces_advance
      (fun (o : ObjectRef) c => removeObject_fault (some o) c)
        (fun o c hc => hc.removeObject (some o))
      (c.bus.registered.map Object.ref) hstart
    rw [List.foldl_map] at hadv
    replace hadv := hadv.resolve_left fun hfault => absurd (hok.fault.symm.trans hfault) nofun
    have hnone : ({ c with state := .disconnecting } : Client).disconnectBus.calls = [] := by
      refine List.eq_nil_iff_forall_not_mem.mpr fun call hcall => ?_
      have hreg := (hok.bus.flags _).mpr (hok.objects call hcall)
      rw [hempty] at hreg
      cases hreg
    refine ⟨?_, hadv.follows, fun _ => hempty⟩
    have hrest : Resting ({ c with state := .disconnecting } : Client).disconnectBus :=
      ⟨hadv.steady, fun _ => hnone⟩
    exact hrest.setState hnone _
  · next hstate => exact ⟨h.setState (h.idle hstate) _, rfl, fun hc => absurd hc hstate⟩

lemma step (providers : UInt16 → Bool) (h : Resting c) {op : ClientOp}
    (hstep : clientStep c op = some c') : c'.fault = true ∨ Resting c' ∧
      (c.stepAnnounces providers op).foldlM Announcement.apply (c.known providers) =
        some (c'.known providers) := by
  simp only [clientStep, h.fault, Bool.false_eq_true, if_false, Option.some.injEq] at hstep
  subst hstep
  cases op with
  | start =>
    right
    simp only [Client.start, stepAnnounces]
    split
    · exact ⟨h, rfl⟩
    · next hstate =>
      rw [not_not] at hstate
      exact ⟨h.setState (h.idle (by rw [hstate]; decide)) _, rfl⟩
  | call req =>
    right
    obtain ⟨hok, hbus, hstate, new, hnew, hnone⟩ := h.toCallsOk.call req
    refine ⟨⟨⟨hok, by rw [hbus]; exact h.all⟩, fun hne => ?_⟩, ?_⟩
    · rw [hstate] at hne
      rw [hnew, h.idle hne, hnone hne, List.append_nil]
    · change some (c.known providers) = some ((c.call req).known providers)
      rw [known, known, hbus]
  | packet info => exact h.packet info
  | disconnect reconnect =>
    obtain ⟨hrest, hfollows, -⟩ := h.disconnect providers reconnect
    exact .inr ⟨hrest, hfollows⟩

end Resting

/-! ## Responses -/

/-- Objects that are added one after the other: those that are listed, and whose handles are new. -/
lemma foldl_addObject_registered (h : Steady c) (objects : List Object) :
    (objects.foldl (fun c o => c.addObject o) c).bus.registered = c.bus.registered ++
      (((firstByHandle (objects.filter Object.Listed)).filter fun o =>
        (c.bus.object? o.handle).isNone).map
        fun o => { o with isRegistered := true }) := by
  induction objects generalizing c with
  | nil => simp [firstByHandle]
  | cons o objects ih =>
    have hadd : Advance (fun _ => true) c _ _ := h.addObject o
    have hnext := hadd.steady
    rw [List.foldl_cons, ih hnext]
    rcases addObject_cases h.bus o with ⟨heq, hreason⟩ | ⟨bus, heq, -, -, hfree, hreg, hfind⟩
    · rw [heq]
      by_cases hlisted : o.Listed
      · -- the handle of the object is in use, so that later objects with this handle are not added
        -- either
        have hused : (c.bus.object? o.handle).isNone = false := by
          obtain ⟨a, ha, hhandle⟩ := List.mem_map.mp
            ((hreason.resolve_left hlisted.1).resolve_left hlisted.2)
          rw [← hhandle, h.bus.object?_of_mem ha]
          rfl
        rw [List.filter_cons_of_pos (by simpa using hlisted), firstByHandle,
          List.filter_cons_of_neg (by simp [hused]), List.filter_filter]
        refine congrArg _ (congrArg _ (List.filter_congr fun a _ => ?_))
        by_cases ha : a.handle = o.handle
        · rw [ha, hused]
          rfl
        · simp [ha]
      · rw [List.filter_cons_of_neg (by simpa using hlisted)]
    · have hlisted : o.Listed := by
        have hzero : o.handle ≠ 0 := Bus.object?_ne_zero ((hfind o.handle).trans (if_pos rfl))
        refine ⟨fun huid => ?_, hzero⟩
        have hsame : c.addObject o = c := by
          unfold addObject busAddObject
          simp [huid]
        rw [hsame] at heq
        have hlen := congrArg (fun d : Client => d.bus.registered.length) heq
        simp [hreg] at hlen
      rw [List.filter_cons_of_pos (by simpa using hlisted), firstByHandle,
        List.filter_cons_of_pos (by simp [hfree]), heq, List.map_cons, List.filter_filter]
      simp only [hreg, List.append_assoc, List.singleton_append]
      refine congrArg _ (congrArg _ (congrArg _ (List.filter_congr fun a _ => ?_)))
      rw [hfind]
      by_cases ha : a.handle = o.handle <;> simp [ha]

/-- A client without objects has the objects of a response, once it was accepted. -/
lemma Resting.response (h : Resting c) (hempty : c.bus.objects = [])
    (hstate : c.state = .connecting) (objects : List Object) :
    (c.connectionResponse .accepted objects).state = .connected ∧
      (c.connectionResponse .accepted objects).bus.registered =
        (firstByHandle (objects.filter Object.Listed)).map fun o =>
          { o with isRegistered := true } := by
  have hset := h.setState (h.idle (by rw [hstate]; decide)) .connected
  have hnone : ∀ x, c.bus.object? x = none := by
    intro x
    cases hfound : c.bus.object? x with
    | none => rfl
    | some o =>
      have hmem := (h.bus.flags x).mpr (Bus.Ok.isRegistered_iff.mpr ⟨o, hfound, h.all x o hfound⟩)
      rw [hempty] at hmem
      cases hmem
  have hreg : c.bus.registered = [] := by
    rw [Bus.registered, hempty]
    rfl
  simp only [connectionResponse, hstate, ne_eq, not_true_eq_false, if_false]
  have hadd : Advance (fun _ => true) _ _ _ := hset.toSteady.foldl_addObject objects
  refine ⟨hadd.state, ?_⟩
  rw [foldl_addObject_registered hset.toSteady]
  simp [hreg, hnone]

end Client

/-! ## Runs -/

/-- The announcements of a client that runs name its objects. -/
def WatchedClient.Ok (providers : UInt16 → Bool) (w : WatchedClient) : Prop :=
  w.1.fault = true ∨ w.1.Resting ∧ announcedObjects w.2 = some (w.1.known providers)

lemma WatchedClient.Ok.step {providers : UInt16 → Bool} {w w' : WatchedClient} {op : ClientOp}
    (h : w.Ok providers) (hstep : watchedStep providers w op = some w') : w'.Ok providers := by
  obtain ⟨c', hc, rfl⟩ := Option.map_eq_some_iff.mp hstep
  rcases h with hfault | ⟨hrest, hlog⟩
  · simp [clientStep, hfault] at hc
  · refine (hrest.step providers hc).imp id fun h => ⟨h.1, ?_⟩
    obtain ⟨hrest', hfollows⟩ := h
    rw [announcedObjects, List.foldlM_append]
    change (announcedObjects w.2).bind _ = _
    rw [hlog]
    exact hfollows

/-- A disconnection of a client that is connected or has no objects leaves a clean bus. -/
lemma WatchedClient.Ok.leavesCleanBus {providers : UInt16 → Bool} {w : WatchedClient}
    (h : w.Ok providers)
    {op : ClientOp} (hop : ConnectedOrEmpty w op) : LeavesCleanBus providers w op := by
  cases op with
  | disconnect reconnect =>
    intro w' hstep
    have hok := h.step hstep
    obtain ⟨c', hc, rfl⟩ := Option.map_eq_some_iff.mp hstep
    rcases h with hfault | ⟨hrest, hlog⟩
    · simp [clientStep, hfault] at hc
    · simp only [clientStep, hrest.fault, Bool.false_eq_true, if_false, Option.some.injEq] at hc
      subst hc
      obtain ⟨hrest', -, hclean⟩ := hrest.disconnect providers reconnect
      have hempty : (w.1.disconnect reconnect).bus.objects = [] := by
        by_cases hstate : w.1.state = .connected
        · exact hclean hstate
        · have hreg := (hop hrest.fault).resolve_left hstate
          have hsame : (w.1.disconnect reconnect).bus = w.1.bus := by
            simp only [Client.disconnect, if_neg hstate]
          rw [hsame, ← hrest.bus.registered_handles, hreg]
          rfl
      have hreg : (w.1.disconnect reconnect).bus.registered = [] := by
        rw [Bus.registered, hempty]
        rfl
      have hcalls : (w.1.disconnect reconnect).calls = [] := by
        refine List.eq_nil_iff_forall_not_mem.mpr fun call hcall => ?_
        have hmem := (hrest'.bus.flags _).mpr (hrest'.objects call hcall)
        rw [hempty] at hmem
        cases hmem
      have hlog' : announcedObjects (w.2 ++ w.1.stepAnnounces providers (.disconnect reconnect)) =
          some [] := by
        rcases hok with hfault | ⟨-, hlog'⟩
        · exact absurd (hrest'.fault.symm.trans hfault) (by rintro ⟨⟩)
        · rw [hlog', Client.known, hreg]
          rfl
      refine ⟨hreg, ⟨hcalls, by rw [hrest'.hash, hcalls]; rfl⟩, hlog', fun obj => ?_,
        fun hstate objects =>
        hrest'.response hempty hstate objects⟩
      simpa using (count_announced hlog' obj).symm
  | start => trivial
  | call req => trivial
  | packet info => trivial

/-- A disconnection that leaves a clean bus happens to a client that is connected or has no objects.
-/
lemma connectedOrEmpty_of_leavesCleanBus {providers : UInt16 → Bool} {w : WatchedClient}
    {op : ClientOp} (h : LeavesCleanBus providers w op) : ConnectedOrEmpty w op := by
  cases op with
  | disconnect reconnect =>
    intro hfault
    have hstep : watchedStep providers w (.disconnect reconnect) =
        some (w.1.disconnect reconnect, w.2 ++ w.1.stepAnnounces providers
          (.disconnect reconnect)) := by
      simp [watchedStep, clientStep, hfault]
    have hclean := (h _ hstep).registered
    by_cases hstate : w.1.state = .connected
    · exact .inl hstate
    · right
      simpa only [Client.disconnect, if_neg hstate] using hclean
  | start => trivial
  | call req => trivial
  | packet info => trivial

/-- In a run of a client all disconnections leave a clean bus, exactly if each of them happens to a
client that is connected or has no objects. -/
theorem disconnections_clean_iff (api : BusDesc) (providers : UInt16 → Bool) (ops : List ClientOp) :
    MeetsAll (watchedStep providers) (LeavesCleanBus providers) ops (clientNew api, []) ↔
      MeetsAll (watchedStep providers) ConnectedOrEmpty ops (clientNew api, []) := by
  constructor
  · apply MeetsAll.imp (I := fun _ => True) (fun _ _ _ _ _ _ => trivial)
    · exact fun _ _ _ => connectedOrEmpty_of_leavesCleanBus
    · trivial
  · apply MeetsAll.imp (I := WatchedClient.Ok providers)
    · exact fun _ _ _ h _ hstep => h.step hstep
    · exact fun _ _ h => h.leavesCleanBus
    · exact .inr ⟨Client.Resting.new api, rfl⟩

/-- An object arrives before any response, and the connection is lost; then a response lists an
object under the same handle. -/
def earlyObject : List ClientOp :=
  [.start, .packet (.add ⟨methodDesc, 7, false, enabledInfo⟩), .disconnect true,
    .packet (.conresp .accepted [⟨methodDesc, 7, false, enabledInfo⟩])]

/-- The early object stays on the bus and is never announced as removed, and the object of the
response is not added. -/
theorem earlyObject_stays :
    ¬MeetsAll (watchedStep fun _ => true) (LeavesCleanBus fun _ => true) earlyObject
      (clientNew methodApi, []) ∧
      (runs (watchedStep fun _ => true) earlyObject (clientNew methodApi, [])).map
          (fun w => (w.1.state, w.1.bus.registered, w.2)) =
        some (.connected, [⟨methodDesc, 7, true, enabledInfo⟩], [.added ⟨methodDesc, 7⟩]) := by
  constructor
  · intro h
    have hclean := ((h.2 _ rfl).2 _ rfl).1 _ rfl
    exact absurd hclean.announced (by decide)
  · decide

end Obus
