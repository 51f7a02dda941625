import Obus.Admission
import Obus.BusLemmas
import Obus.Client

/-!
# The calls of a client

Every call that a client has made is pending, in the list and in the hash table under a handle of
its own, or its status callback was invoked, once (`Client.CallsOk`).  Acknowledgements, the removal
of objects, the loss of the connection and the unwinding of a failed call all keep this;
`client_calls_complete` says so for runs.
-/

namespace Obus

namespace Client

open scoped List

variable {c c' : Client}

/-! ## Objects -/

/-- The flag of a new object does not matter, because the object is registered at once. -/
lemma addObject_unflagged (obj : Object) (c : Client) :
    c.addObject obj = c.addObject { obj with isRegistered := false } := by
  unfold addObject busAddObject
  by_cases huid : obj.desc.uid = 0
  · simp [huid]
  · by_cases hzero : obj.handle = 0
    · simp [huid, hzero, randHandle]
    · by_cases hused : c.bus.hash.any (·.handle = obj.handle) = true
      · simp [huid, hzero, hused]
      · simp [huid, hzero, hused, busRegisterObject, Bus.modify]

/-- Adding an object fails, or registers it as the last one under a handle that was free. -/
lemma addObject_cases (hok : c.bus.Ok) (obj : Object) :
    (c.addObject obj = c ∧
        (obj.desc.uid = 0 ∨ obj.handle = 0 ∨ obj.handle ∈ c.bus.hash.map Object.handle)) ∨
      ∃ bus, c.addObject obj = { c with bus := bus } ∧ bus.Ok ∧ bus.api = c.bus.api ∧
        c.bus.object? obj.handle = none ∧
        bus.registered = c.bus.registered ++ [{ obj with isRegistered := true }] ∧
        ∀ h, bus.object? h =
          if h = obj.handle then some { obj with isRegistered := true } else c.bus.object? h := by
  rw [addObject_unflagged]
  unfold addObject
  cases hadd : busAddObject [] { obj with isRegistered := false } c.bus with
  | error e =>
    refine .inl ⟨rfl, ?_⟩
    by_contra hne
    push Not at hne
    have hfree : c.bus.hash.any (·.handle = obj.handle) = false := by
      simpa using hne.2.2
    simp [busAddObject, hne.1, hne.2.1, hfree] at hadd
  | ok r =>
    obtain ⟨o', bus⟩ := r
    obtain ⟨-, -, hapi, hne, hfree, -, hsame⟩ := Bus.Ok.add hadd
    have hzero : obj.handle ≠ 0 := by
      intro h0
      simp only [busAddObject, h0, randHandle, if_true] at hadd
      split at hadd <;> cases hadd
    obtain rfl : o' = { obj with isRegistered := false } := hsame hzero
    obtain ⟨hok', hreg, hnew⟩ := hok.of_add hadd rfl
    have hfound : bus.object? obj.handle = some { obj with isRegistered := false } := by
      rw [Bus.Ok.object?_add hadd, if_pos rfl]
    refine .inr ⟨_, rfl, hok'.register hfound hnew, hapi, ?_, ?_, fun h => ?_⟩
    · cases hold : c.bus.object? obj.handle with
      | none => rfl
      | some a =>
        exact absurd (List.mem_map.mpr ⟨a, Bus.object?_mem hold, Bus.object?_handle hold⟩) hfree
    · rw [Bus.Ok.registered_register hfound hnew, hreg]
    · rw [Bus.object?_register, Bus.Ok.object?_add hadd]
      split <;> simp [*]

/-- What `obus_client_remove_object` does to the bus when the object is registered. -/
lemma remove_spec {bus : Bus} (hok : bus.Ok) {h : UInt16} :
    (busRemoveObject h (busUnregisterObject h bus)).Ok ∧
      (busRemoveObject h (busUnregisterObject h bus)).registered = bus.registered.filter
        (·.handle ≠ h) ∧
      ∀ h', (busRemoveObject h (busUnregisterObject h bus)).object? h' =
        if h' = h then none else bus.object? h' := by
  have hgone : h ∉ (busUnregisterObject h bus).objects := by
    change h ∉ bus.objects.erase h
    rw [hok.nodup.mem_erase_iff]
    exact fun hc => hc.1 rfl
  refine ⟨hok.unregister.remove hgone, ?_, fun h' => ?_⟩
  · rw [Bus.Ok.registered_remove hgone, hok.registered_unregister]
  · rw [Bus.object?_remove]
    split
    · rfl
    · next hne =>
      rw [Bus.object?_unregister]
      cases bus.object? h' <;> simp [hne]

/-- Completing a call leaves the bus and the connection alone. -/
lemma complete_frame (c : Client) (call : ClientCall) (status : UInt8) :
    (c.complete call status).bus = c.bus ∧ (c.complete call status).state = c.state := by
  unfold complete unregisterCall
  split <;> exact ⟨rfl, rfl⟩

lemma abortCall_frame (c : Client) (obj : Option UInt16) :
    (c.abortCall obj).bus = c.bus ∧ (c.abortCall obj).state = c.state := by
  unfold abortCall
  induction c.calls.filter (fun call => obj.all (call.obj = ·)) generalizing c with
  | nil => exact ⟨rfl, rfl⟩
  | cons call calls ih =>
    obtain ⟨hbus, hstate⟩ := complete_frame c call CallStatus.aborted.code
    obtain ⟨hbus', hstate'⟩ := ih (c.complete call CallStatus.aborted.code)
    exact ⟨hbus'.trans hbus, hstate'.trans hstate⟩

/-! ## Pending calls -/

/-- The pending calls and the notified ones. -/
def handled (c : Client) : List ℕ := c.calls.map ClientCall.id ++ c.notified.map Prod.fst

/-- The calls of a client. -/
structure CallsOk (c : Client) : Prop where
  bus : c.bus.Ok
  /-- The list and the hash table hold the same calls, each under its own handle. -/
  hash : c.callsHash = c.calls.map fun call => (call.handle, call)
  handles : (c.calls.map ClientCall.handle).Nodup
  nonzero : ∀ call ∈ c.calls, call.handle ≠ 0
  /-- No call is pending twice, notified twice, or both. -/
  once : c.handled.Nodup
  /-- The calls that were accepted are those that are pending or notified. -/
  accepted : ∀ id, (id, true) ∈ c.returned ↔ id ∈ c.handled
  numbers : c.returned.map Prod.fst = List.range c.nextCall
  /-- The objects of the pending calls are registered. -/
  objects : ∀ call ∈ c.calls, isRegistered call.obj c.bus = true
  fault : c.fault = false

namespace CallsOk

lemma ids (h : CallsOk c) : (c.calls.map ClientCall.id).Nodup := (List.nodup_append.mp h.once).1

/-- In the list of pending calls, handle and number name the same call. -/
lemma handle_eq_iff (h : CallsOk c) {x y : ClientCall} (hx : x ∈ c.calls) (hy : y ∈ c.calls) :
    x.handle = y.handle ↔ x.id = y.id := by
  constructor
  · intro heq
    rw [List.inj_on_of_nodup_map h.handles hx hy heq]
  · intro heq
    rw [List.inj_on_of_nodup_map h.ids hx hy heq]

/-- A change that leaves the calls alone and unregisters no object of theirs. -/
lemma of_bus (h : CallsOk c) {bus : Bus} (hok : bus.Ok)
    (hreg : ∀ call ∈ c.calls, isRegistered call.obj bus = true) : CallsOk { c with bus := bus } :=
  ⟨hok, h.hash, h.handles, h.nonzero, h.once, h.accepted, h.numbers, hreg, h.fault⟩

/-- Unregistering a pending call takes it out of the list and the hash table. -/
lemma unregisterCall_eq (h : CallsOk c) {call : ClientCall} (hcall : call ∈ c.calls) :
    c.unregisterCall call =
      { c with
        calls := c.calls.filter (·.id ≠ call.id)
        callsHash := (c.calls.filter (·.id ≠ call.id)).map fun x => (x.handle, x) } := by
  have hany : c.callsHash.any (·.1 = call.handle) = true := by
    rw [h.hash, List.any_eq_true]
    exact ⟨_, List.mem_map_of_mem hcall, by simp⟩
  have hfilter : c.callsHash.filter (·.1 ≠ call.handle) =
      (c.calls.filter (·.id ≠ call.id)).map fun x => (x.handle, x) := by
    rw [h.hash, List.filter_map]
    refine congrArg _ (List.filter_congr fun x hx => ?_)
    simp only [Function.comp_apply, ne_eq, h.handle_eq_iff hx hcall]
  rw [unregisterCall, if_pos hany, hfilter]

/-- Completing a pending call. -/
lemma complete (h : CallsOk c) {call : ClientCall} (hcall : call ∈ c.calls) (status : UInt8) :
    CallsOk (c.complete call status) ∧
      (c.complete call status).calls = c.calls.filter (·.id ≠ call.id) := by
  have heq : c.complete call status =
      { c with
        calls := c.calls.filter (·.id ≠ call.id)
        callsHash := (c.calls.filter (·.id ≠ call.id)).map fun x => (x.handle, x)
        notified := c.notified ++ [(call.id, status)] } := by
    rw [Client.complete, h.unregisterCall_eq hcall]
    rfl
  have hperm : (c.complete call status).handled.Perm c.handled := by
    have hid := List.mem_map_of_mem (f := ClientCall.id) hcall
    have hrest : (c.calls.filter (·.id ≠ call.id)).map ClientCall.id =
        (c.calls.map ClientCall.id).erase call.id := by
      rw [h.ids.erase_eq_filter, List.filter_map]
      refine congrArg _ (List.filter_congr fun x _ => ?_)
      simp [bne, BEq.beq]
    rw [heq, handled, handled]
    simp only [hrest, List.map_append, List.map_cons, List.map_nil]
    calc (c.calls.map ClientCall.id).erase call.id ++ (c.notified.map Prod.fst ++ [call.id])
        _ ~ call.id :: (c.calls.map ClientCall.id).erase call.id ++ c.notified.map Prod.fst := by
          rw [← List.append_assoc, List.cons_append]
          exact List.perm_append_singleton _ _
        _ ~ c.calls.map ClientCall.id ++ c.notified.map Prod.fst :=
          (List.perm_cons_erase hid).symm.append_right _
  rw [heq] at hperm ⊢
  refine ⟨⟨h.bus, rfl, h.handles.sublist (List.filter_sublist.map _), fun x hx => ?_, ?_,
    fun id => ?_,
    h.numbers, fun x hx => ?_, h.fault⟩, rfl⟩
  · exact h.nonzero x (List.mem_filter.mp hx).1
  · exact hperm.nodup_iff.mpr h.once
  · rw [hperm.mem_iff]
    exact h.accepted id
  · exact h.objects x (List.mem_filter.mp hx).1

/-- Completing some of the pending calls, one after the other. -/
lemma foldl_complete (h : CallsOk c) {l : List ClientCall} (hl : ∀ call ∈ l, call ∈ c.calls)
    (hnodup : (l.map ClientCall.id).Nodup) (status : UInt8) :
    let c' := l.foldl (fun c call => c.complete call status) c
    CallsOk c' ∧ ∀ call ∈ c'.calls, call ∈ c.calls ∧ call ∉ l := by
  induction l generalizing c with
  | nil => exact ⟨h, fun call hcall => ⟨hcall, List.not_mem_nil⟩⟩
  | cons a l ih =>
    rw [List.map_cons, List.nodup_cons] at hnodup
    obtain ⟨hok, hcalls⟩ := h.complete (hl a List.mem_cons_self) status
    -- the calls that are still to be completed are other calls
    have hstay : ∀ call ∈ l, call ∈ (c.complete a status).calls := by
      intro call hcall
      rw [hcalls, List.mem_filter]
      refine ⟨hl call (List.mem_cons_of_mem a hcall), ?_⟩
      simp only [ne_eq, decide_eq_true_eq]
      exact fun heq => hnodup.1 (heq ▸ List.mem_map_of_mem hcall)
    obtain ⟨hok', hmem⟩ := ih hok hstay hnodup.2
    refine ⟨hok', fun call hcall => ?_⟩
    obtain ⟨hin, hout⟩ := hmem call hcall
    rw [hcalls, List.mem_filter] at hin
    refine ⟨hin.1, fun hc => ?_⟩
    rcases List.mem_cons.mp hc with rfl | hc
    · simp at hin
    · exact hout hc

/-- Aborting the calls on an object leaves the others. -/
lemma abortCall (h : CallsOk c) (obj : Option UInt16) :
    CallsOk (c.abortCall obj) ∧
      ∀ call ∈ (c.abortCall obj).calls, call ∈ c.calls ∧ obj.all (call.obj = ·) = false := by
  have hl : ∀ call ∈ c.calls.filter fun call => obj.all (call.obj = ·), call ∈ c.calls :=
    fun call hcall => (List.mem_filter.mp hcall).1
  obtain ⟨hok, hmem⟩ := h.foldl_complete hl
    (h.ids.sublist (List.filter_sublist.map _)) CallStatus.aborted.code
  refine ⟨hok, fun call hcall => ?_⟩
  obtain ⟨hin, hout⟩ := hmem call hcall
  refine ⟨hin, ?_⟩
  by_contra hne
  exact hout (List.mem_filter.mpr ⟨hin, by simpa using hne⟩)

/-- What is found under a handle is a pending call with that handle. -/
lemma call?_mem (h : CallsOk c) {handle : UInt16} {call : ClientCall}
    (hfound : c.call? handle = some call) : call ∈ c.calls ∧ call.handle = handle := by
  unfold call? at hfound
  split at hfound
  · cases hfound
  · obtain ⟨⟨key, call'⟩, hfind, rfl⟩ := Option.map_eq_some_iff.mp hfound
    have hin := List.mem_of_find?_eq_some hfind
    have hkey : key = handle := by simpa using List.find?_some hfind
    rw [h.hash] at hin
    obtain ⟨x, hx, heq⟩ := List.mem_map.mp hin
    cases heq
    exact ⟨hx, hkey⟩

lemma ack (h : CallsOk c) (a : Ack) :
    CallsOk (c.ack a) ∧ (∀ call ∈ (c.ack a).calls, call ∈ c.calls) ∧
    (c.ack a).state = c.state := by
  unfold Client.ack
  cases hfound : c.call? a.handle with
  | none => exact ⟨h, fun _ => id, rfl⟩
  | some call =>
    obtain ⟨hok, hcalls⟩ := h.complete (h.call?_mem hfound).1 a.status
    refine ⟨hok, fun x hx => ?_, (complete_frame c call a.status).2⟩
    rw [hcalls] at hx
    exact (List.mem_filter.mp hx).1

/-! ## Making a call -/

lemma nextCall_not_mem (h : CallsOk c) : c.nextCall ∉ c.handled := by
  intro hmem
  have hret := (h.accepted c.nextCall).mpr hmem
  have hin := List.mem_map_of_mem (f := Prod.fst) hret
  rw [h.numbers, List.mem_range] at hin
  exact lt_irrefl _ hin

lemma giveBack_false (h : CallsOk c) : CallsOk (c.giveBack false) := by
  refine ⟨h.bus, h.hash, h.handles, h.nonzero, h.once, fun id => ?_, ?_, h.objects, h.fault⟩
  · have hmem : (id, true) ∈ (c.giveBack false).returned ↔ (id, true) ∈ c.returned := by
      simp [giveBack]
    exact hmem.trans (h.accepted id)
  · simp [giveBack, h.numbers, List.range_succ]

/-- The call that is being made is entered under a handle that is free. -/
lemma registerCall (h : CallsOk c) {draws : List UInt16} {obj : UInt16} {call : ClientCall}
    {c' : Client} (hreg : c.registerCall draws ⟨c.nextCall, obj, 0⟩ = some (call, c')) :
    ∃ handle, call = ⟨c.nextCall, obj, handle⟩ ∧ handle ≠ 0 ∧
    handle ∉ c.calls.map ClientCall.handle ∧
      c' = { c with calls := c.calls ++ [call], callsHash := c.callsHash ++ [(handle, call)] } := by
  unfold Client.registerCall at hreg
  split at hreg
  · cases hreg
  · next handle hdraw =>
    obtain ⟨hne, hfree⟩ := randHandle_spec hdraw
    cases hreg
    refine ⟨handle, rfl, hne, fun hmem => ?_, rfl⟩
    obtain ⟨x, hx, rfl⟩ := List.mem_map.mp hmem
    have hany : c.callsHash.any (·.1 = x.handle) = true := by
      rw [h.hash, List.any_eq_true]
      exact ⟨_, List.mem_map_of_mem hx, by simp⟩
    rw [hany] at hfree
    cases hfree

/-- Unwinding a call that was just entered. -/
lemma unwind (h : CallsOk c) {call : ClientCall} (hid : call.id = c.nextCall)
    (hfree : call.handle ∉ c.calls.map ClientCall.handle) :
    ({ c with calls := c.calls ++ [call], callsHash := c.callsHash ++ [(call.handle, call)] } :
      Client).unregisterCall call = c := by
  have hold : c.calls.filter (·.id ≠ call.id) = c.calls := by
    refine List.filter_eq_self.mpr fun x hx => ?_
    simp only [ne_eq, decide_eq_true_eq, hid]
    exact fun heq => h.nextCall_not_mem (List.mem_append_left _ (heq ▸ List.mem_map_of_mem hx))
  have hhash : c.callsHash.filter (·.1 ≠ call.handle) = c.callsHash := by
    rw [h.hash]
    refine List.filter_eq_self.mpr fun x hx => ?_
    obtain ⟨y, hy, rfl⟩ := List.mem_map.mp hx
    simp only [ne_eq, decide_eq_true_eq]
    exact fun heq => hfree (heq ▸ List.mem_map_of_mem hy)
  simp only [unregisterCall, List.any_append, List.any_cons, decide_true, Bool.true_or,
    Bool.or_true, if_true,
    List.filter_append, hold, hhash]
  simp

/-- The call that is being made becomes pending when it is given back with success. -/
lemma giveBack_true (h : CallsOk c) {call : ClientCall} (hid : call.id = c.nextCall)
    (hne : call.handle ≠ 0) (hfree : call.handle ∉ c.calls.map ClientCall.handle)
    (hobj : isRegistered call.obj c.bus = true) (sent : List PacketInfo) :
    CallsOk
      { ({ c with calls := c.calls ++ [call], callsHash := c.callsHash ++ [(call.handle, call)] } :
      Client).giveBack true with sent := sent } := by
  have hhandled : ∀ id, id ∈ (c.calls ++ [call]).map ClientCall.id ++ c.notified.map Prod.fst ↔
      id ∈ c.handled ∨ id = c.nextCall := by
    intro id
    simp only [handled, List.map_append, List.map_cons, List.map_nil, List.mem_append,
      List.mem_singleton, hid]
    tauto
  refine ⟨h.bus, ?_, ?_, fun x hx => ?_, ?_, fun id => ?_, ?_, fun x hx => ?_, h.fault⟩
  · simp [giveBack, h.hash]
  · simp only [giveBack, List.map_append, List.map_cons, List.map_nil]
    exact List.nodup_append.mpr ⟨h.handles, List.nodup_singleton _,
      fun a ha b hb hab => hfree (List.mem_singleton.mp hb ▸ hab ▸ ha)⟩
  · rcases List.mem_append.mp hx with hx | hx
    · exact h.nonzero x hx
    · rw [List.mem_singleton.mp hx]
      exact hne
  · have hperm : (c.calls ++ [call]).map ClientCall.id ++ c.notified.map Prod.fst ~ c.nextCall ::
        c.handled := by
      rw [List.map_append, List.map_singleton, hid, List.append_assoc, List.singleton_append]
      exact List.perm_middle
    exact hperm.nodup_iff.mpr (List.nodup_cons.mpr ⟨h.nextCall_not_mem, h.once⟩)
  · have hmem : (id, true) ∈ c.returned ++ [(c.nextCall, true)] ↔ (id, true) ∈ c.returned ∨
        id = c.nextCall := by
      simp
    exact hmem.trans ((or_congr_left (h.accepted id)).trans (hhandled id).symm)
  · simp [giveBack, h.numbers, List.range_succ]
  · rcases List.mem_append.mp hx with hx | hx
    · exact h.objects x hx
    · rw [List.mem_singleton.mp hx]
      exact hobj

/-- What making calls does: new calls are appended, if there is a connection. -/
structure Appends (c c' : Client) : Prop where
  ok : CallsOk c'
  bus : c'.bus = c.bus
  state : c'.state = c.state
  calls : ∃ new, c'.calls = c.calls ++ new ∧ (c.state ≠ .connected → new = [])

lemma Appends.refl (h : CallsOk c) : Appends c c :=
  ⟨h, rfl, rfl, [], (List.append_nil _).symm, fun _ => rfl⟩

/-- `obus_client_call` keeps the calls, whether it succeeds or not. -/
lemma call (h : CallsOk c) (req : CallReq) : Appends c (c.call req) := by
  have hfail : Appends c (c.giveBack false) :=
    ⟨h.giveBack_false, rfl, rfl, [], (List.append_nil _).symm, fun _ => rfl⟩
  unfold Client.call
  split
  · exact hfail
  · next hstate =>
    split
    · exact hfail
    · next obj hobj =>
      split
      · exact hfail
      · next hflag =>
        split
        · exact hfail
        · split
          · exact hfail
          · split
            · exact hfail
            · next call c' hreg =>
              obtain ⟨handle, rfl, hne, hfree, rfl⟩ := h.registerCall hreg
              split
              · refine ⟨h.giveBack_true rfl hne hfree ?_ _, rfl, rfl, _, rfl,
                  fun hc => absurd hc hstate⟩
                simpa [isRegistered, hobj] using hflag
              · rw [h.unwind rfl hfree]
                exact hfail

/-! ## Packets -/

/-- A change of the objects that leaves the calls alone. -/
structure Gains (c c' : Client) : Prop where
  calls : c'.calls = c.calls
  registered : ∀ h, isRegistered h c.bus = true → isRegistered h c'.bus = true

lemma Gains.trans {c'' : Client} (h : Gains c c') (h' : Gains c' c'') : Gains c c'' :=
  ⟨h'.calls.trans h.calls, fun x hx => h'.registered x (h.registered x hx)⟩

lemma addObject (h : CallsOk c) (obj : Object) :
    CallsOk (c.addObject obj) ∧ Gains c (c.addObject obj) ∧ (c.addObject obj).state = c.state := by
  rcases addObject_cases h.bus obj with ⟨heq, -⟩ | ⟨bus, heq, hok, -, hnone, -, hfind⟩
  · rw [heq]
    exact ⟨h, ⟨rfl, fun _ => id⟩, rfl⟩
  · have hkeep : ∀ x, isRegistered x c.bus = true → isRegistered x bus = true := by
      intro x hx
      obtain ⟨a, ha, hflag⟩ := Bus.Ok.isRegistered_iff.mp hx
      rw [Bus.Ok.isRegistered_iff, hfind]
      split
      · exact ⟨_, rfl, rfl⟩
      · exact ⟨a, ha, hflag⟩
    rw [heq]
    exact ⟨h.of_bus hok fun call hcall => hkeep _ (h.objects call hcall), ⟨rfl, hkeep⟩, rfl⟩

lemma foldl_addObject (h : CallsOk c) (objects : List Object) :
    let c' := objects.foldl (fun c o => c.addObject o) c
    CallsOk c' ∧ Gains c c' ∧ c'.state = c.state := by
  induction objects generalizing c with
  | nil => exact ⟨h, ⟨rfl, fun _ => id⟩, rfl⟩
  | cons o objects ih =>
    obtain ⟨hok, hgain, hstate⟩ := h.addObject o
    obtain ⟨hok', hgain', hstate'⟩ := ih hok
    exact ⟨hok', hgain.trans hgain', hstate'.trans hstate⟩

lemma event (h : CallsOk c) (e : Event) :
    CallsOk (c.event e) ∧ Gains c (c.event e) ∧ (c.event e).state = c.state := by
  have hkeep : ∀ x, isRegistered x c.bus = true → isRegistered x (c.event e).bus = true := by
    intro x hx
    obtain ⟨a, ha, hflag⟩ := Bus.Ok.isRegistered_iff.mp hx
    rw [Bus.Ok.isRegistered_iff, Client.event, Bus.Ok.object?_eventCommit, ha]
    refine ⟨_, rfl, ?_⟩
    simp only
    split
    · split <;> exact hflag
    · exact hflag
  exact ⟨h.of_bus (h.bus.eventCommit _) fun call hcall => hkeep _ (h.objects call hcall),
    ⟨rfl, hkeep⟩, rfl⟩

lemma foldl_event (h : CallsOk c) (events : List Event) :
    let c' := events.foldl (fun c v => c.event v) c
    CallsOk c' ∧ Gains c c' ∧ c'.state = c.state := by
  induction events generalizing c with
  | nil => exact ⟨h, ⟨rfl, fun _ => id⟩, rfl⟩
  | cons v events ih =>
    obtain ⟨hok, hgain, hstate⟩ := h.event v
    obtain ⟨hok', hgain', hstate'⟩ := ih hok
    exact ⟨hok', hgain.trans hgain', hstate'.trans hstate⟩

/-- Removing a registered object leaves the calls on other objects. -/
lemma removeObject (h : CallsOk c) {o : ObjectRef} (hreg : isRegistered o.handle c.bus = true) :
    let c' := c.removeObject (some o)
    CallsOk c' ∧ c'.state = c.state ∧ (∀ call ∈ c'.calls, call ∈ c.calls ∧ call.obj ≠ o.handle) ∧
      ∀ x, isRegistered x c'.bus = true ↔ x ≠ o.handle ∧ isRegistered x c.bus = true := by
  obtain ⟨hok, hcalls⟩ := h.abortCall (some o.handle)
  obtain ⟨hbus, hstate⟩ := c.abortCall_frame (some o.handle)
  obtain ⟨a, ha, -⟩ := Bus.Ok.isRegistered_iff.mp hreg
  obtain ⟨hokBus, -, hfind⟩ := remove_spec (h := o.handle) h.bus
  have heq : c.removeObject (some o) =
      { c.abortCall (some o.handle) with
        bus := busRemoveObject o.handle (busUnregisterObject o.handle c.bus) } := by
    simp only [Client.removeObject, Option.map_some, hbus, ha, Option.isNone_some,
      Bool.false_eq_true, if_false]
  have hsplit : ∀ x, isRegistered x
      (busRemoveObject o.handle (busUnregisterObject o.handle c.bus)) = true ↔
      x ≠ o.handle ∧ isRegistered x c.bus = true := by
    intro x
    rw [isRegistered, hfind, isRegistered]
    by_cases hx : x = o.handle <;> simp [hx]
  have hother : ∀ call ∈ (c.abortCall (some o.handle)).calls, call ∈ c.calls ∧
      call.obj ≠ o.handle :=
    fun call hcall => ⟨(hcalls call hcall).1, by simpa using (hcalls call hcall).2⟩
  rw [heq]
  refine ⟨hok.of_bus hokBus fun call hcall => ?_, hstate, hother, hsplit⟩
  exact (hsplit _).mpr ⟨(hother call hcall).2, h.objects call (hother call hcall).1⟩

/-- Removing registered objects, each once. -/
lemma foldl_removeObject (h : CallsOk c) {refs : List ObjectRef}
    (hnodup : (refs.map ObjectRef.handle).Nodup)
    (hreg : ∀ o ∈ refs, isRegistered o.handle c.bus = true) :
    let c' := refs.foldl (fun c o => c.removeObject (some o)) c
    CallsOk c' ∧ c'.state = c.state ∧
      (∀ call ∈ c'.calls, call ∈ c.calls ∧ call.obj ∉ refs.map ObjectRef.handle) ∧
      ∀ x, isRegistered x c'.bus = true ↔ x ∉ refs.map ObjectRef.handle ∧
      isRegistered x c.bus = true := by
  induction refs generalizing c with
  | nil => exact ⟨h, rfl, fun call hcall => ⟨hcall, List.not_mem_nil⟩, fun x => by simp⟩
  | cons o refs ih =>
    rw [List.map_cons, List.nodup_cons] at hnodup
    obtain ⟨hok, hstate, hcalls, hsplit⟩ := h.removeObject (hreg o List.mem_cons_self)
    have hstay : ∀ r ∈ refs, isRegistered r.handle (c.removeObject (some o)).bus = true :=
      fun r hr =>
      (hsplit _).mpr ⟨fun heq => hnodup.1 (heq ▸ List.mem_map_of_mem hr),
        hreg r (List.mem_cons_of_mem o hr)⟩
    obtain ⟨hok', hstate', hcalls', hsplit'⟩ := ih hok hnodup.2 hstay
    refine ⟨hok', hstate'.trans hstate, fun call hcall => ?_, fun x => ?_⟩
    · obtain ⟨hin, hout⟩ := hcalls' call hcall
      rw [List.map_cons, List.mem_cons, not_or]
      exact ⟨(hcalls call hin).1, (hcalls call hin).2, hout⟩
    · rw [List.foldl_cons, hsplit', hsplit, List.map_cons, List.mem_cons]
      tauto

end CallsOk

/-! ## Runs -/

/-- The handles of the objects that a packet removes. -/
def removedBy : PacketInfo → List UInt16
  | .remove obj => (obj.map ObjectRef.handle).toList
  | .busEvent e => e.removeObjs.map ObjectRef.handle
  | _ => []

/-- A packet removes objects that are registered on the client, each once. -/
def RemovesRegistered (c : Client) : ClientOp → Prop
  | .packet info => info ≠ .remove none ∧ (removedBy info).Nodup ∧
      ∀ h ∈ removedBy info, isRegistered h c.bus = true
  | _ => True

/-- Between the steps of a client: without a connection there are no calls. -/
structure StepOk (c : Client) : Prop extends CallsOk c where
  idle : c.state ≠ .connected → c.calls = []

namespace StepOk

lemma new (api : BusDesc) : StepOk (clientNew api) where
  bus := ⟨List.nodup_nil, nofun, fun h => by simp [clientNew, isRegistered, Bus.object?],
    List.nodup_nil⟩
  hash := rfl
  handles := List.nodup_nil
  nonzero := nofun
  once := List.nodup_nil
  accepted id := by simp [clientNew, handled]
  numbers := rfl
  objects := nofun
  fault := rfl
  idle _ := rfl

/-- A change that brings no calls and keeps the connection. -/
lemma of_callsOk (h : StepOk c) (hok : CallsOk c') (hcalls : ∀ call ∈ c'.calls, call ∈ c.calls)
    (hstate : c'.state = c.state) : StepOk c' := by
  refine ⟨hok, fun hne => List.eq_nil_iff_forall_not_mem.mpr fun call hcall => ?_⟩
  have hin := hcalls call hcall
  rw [h.idle (hstate ▸ hne)] at hin
  cases hin

/-- A packet keeps the calls, except those on the objects that it removes. -/
lemma packet (h : StepOk c) {info : PacketInfo} (hinfo : c.RemovesRegistered (.packet info)) :
    StepOk (c.packet info) ∧ ∀ call ∈ (c.packet info).calls, call ∈ c.calls ∧
    call.obj ∉ removedBy info := by
  have hsame : ∀ {c' : Client}, CallsOk c' → (∀ call ∈ c'.calls, call ∈ c.calls) →
      c'.state = c.state →
      StepOk c' ∧ ∀ call ∈ c'.calls, call ∈ c.calls ∧ call.obj ∉ ([] : List UInt16) :=
    fun hok hcalls hstate => ⟨h.of_callsOk hok hcalls hstate,
      fun call hcall => ⟨hcalls call hcall, List.not_mem_nil⟩⟩
  cases info with
  | conreq req => exact hsame h.toCallsOk (fun _ => id) rfl
  | call call => exact hsame h.toCallsOk (fun _ => id) rfl
  | conresp status objects =>
    rw [Client.packet, connectionResponse]
    split
    · exact hsame h.toCallsOk (fun _ => id) rfl
    · next hstate =>
      have hnone : c.calls = [] := h.idle fun hc => hstate (by simp [hc])
      have hset : ∀ st, CallsOk { c with state := st } := fun st =>
        ⟨h.bus, h.hash, h.handles, h.nonzero, h.once, h.accepted, h.numbers, h.objects, h.fault⟩
      split
      · exact ⟨⟨hset _, fun _ => hnone⟩, fun call hcall => ⟨hcall, List.not_mem_nil⟩⟩
      · obtain ⟨hok, hgain, -⟩ := (hset .connected).foldl_addObject objects
        have hcalls := hgain.calls.trans hnone
        refine ⟨⟨hok, fun _ => hcalls⟩, fun call hcall => ?_⟩
        rw [hcalls] at hcall
        cases hcall
  | add obj =>
    obtain ⟨hok, hgain, hstate⟩ := h.addObject obj
    exact hsame hok (fun _ hcall => hgain.calls ▸ hcall) hstate
  | remove obj =>
    cases obj with
    | none => exact absurd rfl hinfo.1
    | some o =>
      obtain ⟨hok, hstate, hcalls, -⟩ := h.removeObject (hinfo.2.2 o.handle (by simp [removedBy]))
      refine ⟨h.of_callsOk hok (fun call hcall => (hcalls call hcall).1) hstate,
        fun call hcall => ?_⟩
      exact ⟨(hcalls call hcall).1, by simpa [removedBy] using (hcalls call hcall).2⟩
  | event e =>
    obtain ⟨hok, hgain, hstate⟩ := h.event e
    exact hsame hok (fun _ hcall => hgain.calls ▸ hcall) hstate
  | busEvent e =>
    obtain ⟨hok₁, hgain₁, hstate₁⟩ := h.foldl_addObject e.addObjs
    obtain ⟨hok₂, hgain₂, hstate₂⟩ := hok₁.foldl_event e.objEvents
    have hgain := hgain₁.trans hgain₂
    obtain ⟨hok, hstate, hcalls, -⟩ := hok₂.foldl_removeObject hinfo.2.1 fun o ho =>
      hgain.registered _ (hinfo.2.2 o.handle (List.mem_map_of_mem ho))
    have hin : ∀ call ∈ (c.commitBusEvent e).calls, call ∈ c.calls := fun call hcall =>
      hgain.calls ▸ (hcalls call hcall).1
    exact ⟨h.of_callsOk hok hin (hstate.trans (hstate₂.trans hstate₁)),
      fun call hcall => ⟨hin call hcall, (hcalls call hcall).2⟩⟩
  | ack a =>
    obtain ⟨hok, hcalls, hstate⟩ := h.ack a
    exact hsame hok hcalls hstate

/-- After a disconnection there are no calls. -/
lemma disconnect (h : StepOk c) (reconnect : Bool) :
    StepOk (c.disconnect reconnect) ∧ (c.disconnect reconnect).calls = [] := by
  have hset : ∀ {c' : Client}, CallsOk c' → c'.calls = [] → ∀ st, StepOk { c' with state := st } :=
    fun h hnone st =>
      ⟨⟨h.bus, h.hash, h.handles, h.nonzero, h.once, h.accepted, h.numbers, h.objects, h.fault⟩,
      fun _ => hnone⟩
  unfold Client.disconnect
  simp only
  split
  · have hstart : CallsOk { c with state := .disconnecting } :=
      ⟨h.bus, h.hash, h.handles, h.nonzero, h.once, h.accepted, h.numbers, h.objects, h.fault⟩
    have hrefs : (c.bus.registered.map Object.ref).map ObjectRef.handle = c.bus.objects := by
      rw [List.map_map]
      exact h.bus.registered_handles
    obtain ⟨hok, -, hcalls, hsplit⟩ :=
      hstart.foldl_removeObject (hrefs ▸ h.bus.nodup) fun o ho => by
      exact (h.bus.flags _).mp (hrefs ▸ List.mem_map_of_mem ho)
    rw [List.foldl_map] at hok hcalls hsplit
    have hnone : ({ c with state := .disconnecting } : Client).disconnectBus.calls = [] := by
      refine List.eq_nil_iff_forall_not_mem.mpr fun call hcall => ?_
      -- the object of a call that was left would still be registered
      obtain ⟨hin, hout⟩ := hcalls call hcall
      rw [hrefs] at hout
      exact hout ((h.bus.flags _).mpr (h.objects call hin))
    exact ⟨hset hok hnone _, hnone⟩
  · next hstate => exact ⟨hset h.toCallsOk (h.idle hstate) _, h.idle hstate⟩

lemma step (h : StepOk c) {op : ClientOp} (hop : c.RemovesRegistered op)
    (hstep : clientStep c op = some c') : StepOk c' := by
  unfold clientStep at hstep
  split at hstep
  · cases hstep
  · cases hstep
    cases op with
    | start =>
      simp only [Client.start]
      split
      · exact h
      · next hstate =>
        have hnone : c.calls = [] := h.idle fun hc => hstate (by simp [hc])
        exact ⟨⟨h.bus, h.hash, h.handles, h.nonzero, h.once, h.accepted, h.numbers,
          h.objects, h.fault⟩,
          fun _ => hnone⟩
    | call req =>
      have hcall := h.toCallsOk.call req
      obtain ⟨new, hnew, hnone⟩ := hcall.calls
      refine ⟨hcall.ok, fun hne => ?_⟩
      rw [hcall.state] at hne
      rw [hnew, h.idle hne, hnone hne, List.append_nil]
    | packet info => exact (h.packet hop).1
    | disconnect reconnect => exact (h.disconnect reconnect).1

end StepOk

/-- A call is pending: it is once in the list and once in the hash table, under its own handle,
which no other pending call has. -/
def Pending (c : Client) (id : ℕ) : Prop :=
  ∃ call, c.calls.filter (·.id = id) = [call] ∧ c.callsHash.filter (·.2.id = id) =
    [(call.handle, call)] ∧
    call.handle ≠ 0 ∧ ∀ other ∈ c.calls, other.handle = call.handle → other = call

/-- A call is in neither table. -/
def Absent (c : Client) (id : ℕ) : Prop :=
  c.calls.filter (·.id = id) = [] ∧ c.callsHash.filter (·.2.id = id) = []

/-- How often the status callback of a call was invoked. -/
def notifications (c : Client) (id : ℕ) : ℕ := (c.notified.map Prod.fst).count id

namespace CallsOk

lemma hash_filter (h : CallsOk c) (id : ℕ) :
    c.callsHash.filter (·.2.id = id) = (c.calls.filter (·.id = id)).map fun call =>
      (call.handle, call) := by
  rw [h.hash, List.filter_map]
  rfl

lemma pending (h : CallsOk c) {id : ℕ} (hid : id ∈ c.calls.map ClientCall.id) : Pending c id := by
  obtain ⟨call, hcall, rfl⟩ := List.mem_map.mp hid
  have hmem : call ∈ c.calls.filter (·.id = call.id) := List.mem_filter.mpr ⟨hcall, by simp⟩
  have hsame : ∀ x ∈ c.calls.filter (·.id = call.id), x = call := fun x hx =>
    List.inj_on_of_nodup_map h.ids (List.mem_filter.mp hx).1 hcall
      (by simpa using (List.mem_filter.mp hx).2)
  have hone : c.calls.filter (·.id = call.id) = [call] := by
    have hnodup : (c.calls.filter (·.id = call.id)).Nodup := (h.ids.of_map _).filter _
    generalize c.calls.filter (·.id = call.id) = l at hmem hsame hnodup
    cases l with
    | nil => cases hmem
    | cons x l =>
      obtain rfl := hsame x List.mem_cons_self
      have hnil : l = [] := List.eq_nil_iff_forall_not_mem.mpr fun y hy =>
        (List.nodup_cons.mp hnodup).1 (hsame y (List.mem_cons_of_mem x hy) ▸ hy)
      rw [hnil]
  refine ⟨call, hone, ?_, h.nonzero call hcall, fun other hother heq => ?_⟩
  · rw [h.hash_filter, hone]
    rfl
  · exact List.inj_on_of_nodup_map h.handles hother hcall heq

lemma absent (h : CallsOk c) {id : ℕ} (hid : id ∉ c.calls.map ClientCall.id) : Absent c id := by
  have hnone : c.calls.filter (·.id = id) = [] := by
    refine List.filter_eq_nil_iff.mpr fun call hcall => ?_
    simp only [decide_eq_true_eq]
    exact fun heq => hid (heq ▸ List.mem_map_of_mem hcall)
  exact ⟨hnone, by rw [h.hash_filter, hnone]; rfl⟩

end CallsOk

end Client

/-- In every run of a client whose packets remove registered objects only, each once: every call
that was accepted is pending and was not notified, or is gone and was notified once; a call that
failed is gone and was never notified.  A disconnection leaves no call, and a packet none on the
objects that it removes. -/
theorem client_calls_complete (api : BusDesc) (ops : List ClientOp) (c : Client)
    (hremoves : MeetsAll clientStep Client.RemovesRegistered ops (clientNew api))
    (hrun : runs clientStep ops (clientNew api) = some c) :
    (∀ id, (id, true) ∈ c.returned →
        c.Pending id ∧ c.notifications id = 0 ∨ c.Absent id ∧ c.notifications id = 1) ∧
      (∀ id, (id, false) ∈ c.returned → c.Absent id ∧ c.notifications id = 0) ∧
      (∀ reconnect c', clientStep c (.disconnect reconnect) = some c' → c'.calls = [] ∧
        c'.callsHash = []) ∧
      ∀ info c', clientStep c (.packet info) = some c' → c.RemovesRegistered (.packet info) →
        ∀ call ∈ c'.calls, call.obj ∉ Client.removedBy info := by
  have h : c.StepOk := runs_invariant (I := Client.StepOk) (fun _ _ _ h hC hstep => h.step hC hstep)
    (Client.StepOk.new api) hremoves hrun
  obtain ⟨-, hnotified, hdisjoint⟩ := List.nodup_append.mp h.once
  refine ⟨fun id hid => ?_, fun id hid => ?_, fun reconnect c' hstep => ?_,
    fun info c' hstep hinfo => ?_⟩
  · have hhandled := (h.accepted id).mp hid
    by_cases hpending : id ∈ c.calls.map ClientCall.id
    · refine .inl ⟨h.pending hpending, List.count_eq_zero.mpr fun hmem => ?_⟩
      exact hdisjoint id hpending id hmem rfl
    · refine .inr ⟨h.absent hpending, List.count_eq_one_of_mem hnotified ?_⟩
      exact (List.mem_append.mp hhandled).resolve_left hpending
  · have hnot : id ∉ c.handled := fun hmem => by
      -- the results are numbered without repetition
      have hnodup : (c.returned.map Prod.fst).Nodup := h.numbers ▸ List.nodup_range
      have heq := List.inj_on_of_nodup_map hnodup hid ((h.accepted id).mpr hmem) rfl
      simp at heq
    exact ⟨h.absent fun hmem => hnot (List.mem_append_left _ hmem),
      List.count_eq_zero.mpr fun hmem => hnot (List.mem_append_right _ hmem)⟩
  · simp only [clientStep, h.fault, Bool.false_eq_true, if_false, Option.some.injEq] at hstep
    obtain ⟨hok, hnone⟩ := h.disconnect reconnect
    rw [hstep] at hok hnone
    exact ⟨hnone, by rw [hok.hash, hnone]; rfl⟩
  · simp only [clientStep, h.fault, Bool.false_eq_true, if_false, Option.some.injEq] at hstep
    exact fun call hcall => ((h.packet hinfo).2 call (hstep ▸ hcall)).2

/-- A client that has made a call, was acknowledged, and was acknowledged again. -/
def acknowledgedTwice : List ClientOp :=
  [.start, .packet (.conresp .accepted [⟨methodDesc, 7, false, enabledInfo⟩]),
    .call ⟨7, ⟨2, none⟩, none, true, [5], true, true, true⟩, .packet (.ack ⟨5, 1⟩),
      .packet (.ack ⟨5, 6⟩)]

theorem client_calls_complete_acknowledgedTwice :
    ∃ c, runs clientStep acknowledgedTwice (clientNew methodApi) = some c ∧
      c.notified = [(0, 1)] ∧ c.Absent 0 ∧ c.notifications 0 = 1 := by
  obtain ⟨c, hrun⟩ : ∃ c, runs clientStep acknowledgedTwice (clientNew methodApi) =
    some c := ⟨_, rfl⟩
  have hremoves : MeetsAll clientStep Client.RemovesRegistered acknowledgedTwice
      (clientNew methodApi) := by
    refine meetsAll_of_forall (fun op hop c => ?_) _
    simp only [acknowledgedTwice, List.mem_cons, List.not_mem_nil, or_false] at hop
    rcases hop with rfl | rfl | rfl | rfl | rfl
    · trivial
    · exact ⟨nofun, List.nodup_nil, nofun⟩
    · trivial
    · exact ⟨nofun, List.nodup_nil, nofun⟩
    · exact ⟨nofun, List.nodup_nil, nofun⟩
  obtain ⟨hcalls, -⟩ := client_calls_complete methodApi acknowledgedTwice c hremoves hrun
  have hret : (0, true) ∈ c.returned ∧ c.notified = [(0, 1)] := by
    cases hrun
    exact ⟨by decide, by decide⟩
  rcases hcalls 0 hret.1 with ⟨-, hzero⟩ | habsent
  · simp [Client.notifications, hret.2] at hzero
  · exact ⟨c, hrun, hret.2, habsent⟩

end Obus
