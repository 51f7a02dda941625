import Obus.Calls

/-!
# Callbacks that call the client

The status callback of a call and the remove callback of a provider may call `obus_client_call`.
New calls are appended to the list of pending calls while `obus_bus_abort_call` walks over it with
its next entry computed ahead: they are walked over as well if an entry was ahead, and missed if
not.

Calls on other objects do no harm.  If no callback that runs during the removal of an object leaves
a new call on that object (`ClientUser.Restrained`), the walk ends and no pending call is on an
object that was destroyed: `no_call_outlives_object`.
-/

namespace Obus

/-- The calls that the callbacks of a user make.  A status callback is told which object is being
removed, if it is invoked for that. -/
structure ClientUser where
  status : Option UInt16 → ClientCall → UInt8 → Client → List Client.CallReq
  remove : UInt16 → Client → List Client.CallReq

namespace Client

/-- A callback makes its calls. -/
def callAll (reqs : List CallReq) (c : Client) : Client := reqs.foldl (fun c req => c.call req) c

/-- A call is unregistered, its status callback is invoked, and it is destroyed. -/
def completeWith (user : ClientUser) (removing : Option UInt16) (call : ClientCall) (status : UInt8)
    (c : Client) : Client :=
  let c := c.complete call status
  c.callAll (user.status removing call status c)

/-- The entry after a call in the list of pending calls. -/
def callAfter (id : ℕ) (c : Client) : Option ℕ :=
  (c.calls.dropWhile (·.id ≠ id)).tail.head?.map ClientCall.id

/-- The walk of `obus_bus_abort_call`, from an entry of the list: the next entry is computed before
the call is aborted.  It has no result if it does not end within a number of rounds. -/
def abortWalk (user : ClientUser) (obj : Option UInt16) : ℕ → Option ℕ → Client → Option Client
  | _, none, c => some c
  | 0, some _, _ => none
  | fuel + 1, some id, c =>
    let next := c.callAfter id
    match c.calls.find? (·.id = id) with
    | none => some { c with fault := true }
    | some call =>
      if obj.all (call.obj = ·) then
        abortWalk user obj fuel next (c.completeWith user obj call CallStatus.aborted.code)
      else abortWalk user obj fuel next c

/-- `obus_bus_abort_call`. -/
def abortCallWith (user : ClientUser) (fuel : ℕ) (obj : Option UInt16) (c : Client) :
    Option Client :=
  c.abortWalk user obj fuel (c.calls.head?.map ClientCall.id)

/-- `obus_client_ack`. -/
def ackWith (user : ClientUser) (a : Ack) (c : Client) : Client :=
  match c.call? a.handle with
  | none => c
  | some call => c.completeWith user none call a.status

/-- `obus_client_remove_object`. -/
def removeObjectWith (user : ClientUser) (fuel : ℕ) (obj : Option ObjectRef) (c : Client) :
    Option Client :=
  (c.abortCallWith user fuel (obj.map ObjectRef.handle)).map fun c =>
    match obj with
    | none => { c with fault := true }
    | some o =>
      if (c.bus.object? o.handle).isNone then { c with fault := true }
      else
        let c := c.callAll (user.remove o.handle c)
        { c with bus := busRemoveObject o.handle (busUnregisterObject o.handle c.bus) }

/-- Objects are removed one after the other. -/
def removeObjectsWith (user : ClientUser) (fuel : ℕ) : List ObjectRef → Client → Option Client
  | [], c => some c
  | o :: objs, c => (c.removeObjectWith user fuel (some o)).bind (removeObjectsWith user fuel objs)

/-- `obus_client_commit_bus_event`. -/
def commitBusEventWith (user : ClientUser) (fuel : ℕ) (e : BusEvent) (c : Client) : Option Client :=
  let c := e.addObjs.foldl (fun c o => c.addObject o) c
  let c := e.objEvents.foldl (fun c v => c.event v) c
  c.removeObjectsWith user fuel e.removeObjs

/-- `obus_client_disconnect`, with `obus_client_disconnect_bus`. -/
def disconnectWith (user : ClientUser) (fuel : ℕ) (reconnect : Bool) (c : Client) : Option Client :=
  let gone : Option Client :=
    if c.state = .connected then
      { c with state := .disconnecting }.removeObjectsWith user fuel
        (c.bus.registered.map Object.ref)
    else some c
  gone.map fun c => { c with state := if reconnect then .connecting else .disconnected }

/-- The switch of `obus_client_io_read_event`. -/
def packetWith (user : ClientUser) (fuel : ℕ) : PacketInfo → Client → Option Client
  | .remove obj, c => c.removeObjectWith user fuel obj
  | .busEvent e, c => c.commitBusEventWith user fuel e
  | .ack a, c => some (c.ackWith user a)
  | info, c => some (c.packet info)

end Client

/-- A step of a client with such callbacks.  Walks over the pending calls are followed for a number
of rounds. -/
def reentrantStep (user : ClientUser) (c : Client) : ClientOp × ℕ → Option Client
  | (op, fuel) =>
    if c.fault then none
    else
      match op with
      | .start => some c.start
      | .call req => some (c.call req)
      | .packet info => c.packetWith user fuel info
      | .disconnect reconnect => c.disconnectWith user fuel reconnect

/-- No callback that runs during the removal of an object leaves a new call on the object. -/
structure ClientUser.Restrained (user : ClientUser) : Prop where
  status : ∀ h call status (c : Client),
    ∀ x ∈ (c.callAll (user.status (some h) call status c)).calls, x.obj = h → x ∈ c.calls
  remove : ∀ h (c : Client), ∀ x ∈ (c.callAll (user.remove h c)).calls, x.obj = h → x ∈ c.calls

/-! ## The calls of callbacks -/

namespace Client

variable {c c' : Client} {user : ClientUser}

namespace CallsOk

lemma Appends.trans {c'' : Client} (h : Appends c c') (h' : Appends c' c'') : Appends c c'' := by
  obtain ⟨new, hnew, hnone⟩ := h.calls
  obtain ⟨new', hnew', hnone'⟩ := h'.calls
  refine ⟨h'.ok, h'.bus.trans h.bus, h'.state.trans h.state, new ++ new', ?_, fun hstate => ?_⟩
  · rw [hnew', hnew, List.append_assoc]
  · rw [hnone hstate, hnone' (h.state ▸ hstate), List.append_nil]

lemma callAll (h : CallsOk c) (reqs : List CallReq) : Appends c (c.callAll reqs) := by
  induction reqs generalizing c with
  | nil => exact Appends.refl h
  | cons req reqs ih =>
    have hcall := h.call req
    exact hcall.trans (ih hcall.ok)

/-- A call in the list is completed, and its callback appends new ones. -/
lemma completeWith (h : CallsOk c) (user : ClientUser) {pre suf : List ClientCall}
    {call : ClientCall}
    (hcalls : c.calls = pre ++ call :: suf) (removing : Option UInt16) (status : UInt8) :
    let c' := c.completeWith user removing call status
    CallsOk c' ∧ c'.bus = c.bus ∧ c'.state = c.state ∧ (c.complete call status).calls = pre ++ suf ∧
      ∃ new, c'.calls = pre ++ suf ++ new ∧ (c.state ≠ .connected → new = []) := by
  intro c'
  obtain ⟨hok, hrest⟩ := h.complete (hcalls ▸ List.mem_append_right pre List.mem_cons_self) status
  obtain ⟨hbus, hstate⟩ := complete_frame c call status
  have hout : (c.complete call status).calls = pre ++ suf := by
    have hids := h.ids
    rw [hcalls, List.map_append, List.map_cons] at hids
    have hne : ∀ x ∈ pre ++ suf, x.id ≠ call.id := by
      intro x hx heq
      have hnot := (List.nodup_middle.mp hids)
      rw [List.nodup_cons, ← List.map_append] at hnot
      exact hnot.1 (heq ▸ List.mem_map_of_mem hx)
    rw [hrest, hcalls, List.filter_append, List.filter_cons_of_neg (by simp), ← List.filter_append]
    exact List.filter_eq_self.mpr fun x hx => by simpa using hne x hx
  have happ := hok.callAll (user.status removing call status (c.complete call status))
  obtain ⟨new, hnew, hnone⟩ := happ.calls
  refine ⟨happ.ok, happ.bus.trans hbus, happ.state.trans hstate, hout, new, ?_,
    fun hne => hnone (hstate ▸ hne)⟩
  rw [← hout]
  exact hnew

/-! ## The walk over the pending calls -/

/-- The walk is at an entry of the list. -/
lemma callAfter (h : CallsOk c) {pre suf : List ClientCall} {call : ClientCall}
    (hcalls : c.calls = pre ++ call :: suf) :
    c.callAfter call.id = suf.head?.map ClientCall.id ∧
    c.calls.find? (·.id = call.id) = some call := by
  have hids := h.ids
  rw [hcalls, List.map_append, List.map_cons] at hids
  have hne : ∀ x ∈ pre, x.id ≠ call.id := by
    intro x hx heq
    exact (List.nodup_append.mp hids).2.2 x.id
      (List.mem_map_of_mem hx) call.id List.mem_cons_self heq
  constructor
  · rw [Client.callAfter, hcalls, List.dropWhile_append_of_pos fun x hx => by simpa using hne x hx,
      List.dropWhile_cons_of_neg (by simp)]
    rfl
  · have hnone : pre.find? (·.id = call.id) = none :=
      List.find?_eq_none.mpr fun x hx => by simpa using hne x hx
    rw [hcalls, List.find?_append, hnone]
    simp

lemma abortWalk_none (user : ClientUser) (obj : Option UInt16) (fuel : ℕ) (c : Client) :
    c.abortWalk user obj fuel none = some c := by
  cases fuel <;> rfl

/-- A round of the walk. -/
lemma abortWalk_cons (h : CallsOk c) {pre suf : List ClientCall} {call : ClientCall}
    (hcalls : c.calls = pre ++ call :: suf) (obj : UInt16) (fuel : ℕ) :
    c.abortWalk user (some obj) (fuel + 1) (some call.id) =
      if call.obj = obj then
        (c.completeWith user (some obj) call CallStatus.aborted.code).abortWalk user (some obj) fuel
          (suf.head?.map ClientCall.id)
      else c.abortWalk user (some obj) fuel (suf.head?.map ClientCall.id) := by
  obtain ⟨hafter, hfind⟩ := h.callAfter hcalls
  rw [Client.abortWalk]
  simp only [hafter, hfind, Option.all_some, decide_eq_true_eq]

variable (hrestrained : user.Restrained) {obj : UInt16}

include hrestrained

/-- The callback of an aborted call brings calls on other objects only. -/
lemma completeWith_restrained (h : CallsOk c) {pre suf : List ClientCall} {call : ClientCall}
    (hcalls : c.calls = pre ++ call :: suf) (obj : UInt16) (status : UInt8) :
    ∃ new, (c.completeWith user (some obj) call status).calls = pre ++ suf ++ new ∧
      (c.state ≠ .connected → new = []) ∧ ∀ x ∈ new, x.obj ≠ obj := by
  obtain ⟨hok, -, -, hout, new, hnew, hnone⟩ := h.completeWith user hcalls (some obj) status
  refine ⟨new, hnew, hnone, fun x hx hobj => ?_⟩
  -- a call on the object would have been there before the callback, and so twice in the list
  have hold := hrestrained.status obj call status (c.complete call status) x
    (by
      change x ∈ (c.completeWith user (some obj) call status).calls
      rw [hnew]
      exact List.mem_append_right _ hx) hobj
  have hids := hok.ids
  rw [hnew, List.map_append] at hids
  rw [hout] at hold
  exact (List.nodup_append.mp hids).2.2 x.id (List.mem_map_of_mem hold) x.id
    (List.mem_map_of_mem hx) rfl

/-- What the walk does if it ends: no call on the object is left. -/
lemma abortWalk (h : CallsOk c) {pre suf : List ClientCall} (hcalls : c.calls = pre ++ suf)
    (hpre : ∀ call ∈ pre, call.obj ≠ obj) {fuel : ℕ}
    (hwalk : c.abortWalk user (some obj) fuel (suf.head?.map ClientCall.id) = some c') :
    CallsOk c' ∧ c'.bus = c.bus ∧ c'.state = c.state ∧ (∀ call ∈ c'.calls, call.obj ≠ obj) ∧
      (c.state ≠ .connected → ∀ call ∈ c'.calls, call ∈ c.calls) := by
  induction fuel generalizing c pre suf with
  | zero =>
    cases suf with
    | nil =>
      cases hwalk
      rw [List.append_nil] at hcalls
      exact ⟨h, rfl, rfl, fun call hcall => hpre call (hcalls ▸ hcall), fun _ _ => id⟩
    | cons call suf => cases hwalk
  | succ fuel ih =>
    cases suf with
    | nil =>
      cases hwalk
      rw [List.append_nil] at hcalls
      exact ⟨h, rfl, rfl, fun call hcall => hpre call (hcalls ▸ hcall), fun _ _ => id⟩
    | cons call suf =>
      rw [List.head?_cons, Option.map_some, h.abortWalk_cons hcalls] at hwalk
      split at hwalk
      · next hobj =>
        obtain ⟨hok, hbus, hstate, -, -⟩ :=
          h.completeWith user hcalls (some obj) CallStatus.aborted.code
        obtain ⟨new, hnew, hnone, hother⟩ :=
          h.completeWith_restrained hrestrained hcalls obj CallStatus.aborted.code
        cases suf with
        | nil =>
          -- the walk was at the last entry, and ends
          rw [List.head?_nil, Option.map_none, abortWalk_none] at hwalk
          cases hwalk
          rw [List.append_nil] at hnew
          refine ⟨hok, hbus, hstate, fun x hx => ?_, fun hne x hx => ?_⟩
          · rcases List.mem_append.mp (hnew ▸ hx) with hold | hold
            · exact hpre x hold
            · exact hother x hold
          · rw [hnew, hnone hne, List.append_nil] at hx
            exact hcalls ▸ List.mem_append_left _ hx
        | cons y suf =>
          have hnext : (c.completeWith user (some obj) call CallStatus.aborted.code).calls =
              pre ++ (y :: suf ++ new) := by rw [hnew, List.append_assoc]
          obtain ⟨hok', hbus', hstate', hgone, hsub⟩ := ih hok hnext hpre hwalk
          refine ⟨hok', hbus'.trans hbus, hstate'.trans hstate, hgone, fun hne x hx => ?_⟩
          have hin := hsub (hstate ▸ hne) x hx
          rw [hnew, hnone hne, List.append_nil] at hin
          rw [hcalls]
          rcases List.mem_append.mp hin with hold | hold
          · exact List.mem_append_left _ hold
          · exact List.mem_append_right _ (List.mem_cons_of_mem _ hold)
      · next hobj =>
        have hnext : c.calls = pre ++ [call] ++ suf := by
          rw [hcalls, List.append_assoc]
          rfl
        refine ih h hnext (fun x hx => ?_) hwalk
        rcases List.mem_append.mp hx with hold | hold
        · exact hpre x hold
        · rw [List.mem_singleton.mp hold]
          exact hobj

/-- The walk ends: calls on the object become fewer, and others are only passed. -/
lemma abortWalk_ends (h : CallsOk c) (obj : UInt16) {pre suf : List ClientCall}
    (hcalls : c.calls = pre ++ suf) :
    ∃ fuel c', c.abortWalk user (some obj) fuel (suf.head?.map ClientCall.id) = some c' := by
  obtain ⟨n, hn⟩ : ∃ n, n = suf.countP (·.obj = obj) := ⟨_, rfl⟩
  induction n using Nat.strong_induction_on generalizing c pre suf with
  | _ n ihn =>
    induction suf generalizing pre with
    | nil => exact ⟨0, c, rfl⟩
    | cons call suf ih =>
      by_cases hobj : call.obj = obj
      · obtain ⟨hok, -, -, -, -⟩ := h.completeWith user hcalls (some obj) CallStatus.aborted.code
        obtain ⟨new, hnew, -, hother⟩ :=
          h.completeWith_restrained hrestrained hcalls obj CallStatus.aborted.code
        have hcount : (suf ++ new).countP (·.obj = obj) < n := by
          have hzero : new.countP (·.obj = obj) = 0 :=
            List.countP_eq_zero.mpr fun x hx => by simpa using hother x hx
          rw [List.countP_append, hzero, hn, List.countP_cons_of_pos (by simpa using hobj)]
          omega
        cases suf with
        | nil =>
          refine ⟨1, c.completeWith user (some obj) call CallStatus.aborted.code, ?_⟩
          rw [List.head?_cons, Option.map_some, h.abortWalk_cons hcalls, if_pos hobj]
          exact abortWalk_none _ _ _ _
        | cons y suf =>
          have hnext : (c.completeWith user (some obj) call CallStatus.aborted.code).calls =
              pre ++ (y :: suf ++ new) := by rw [hnew, List.append_assoc]
          obtain ⟨fuel, c', hwalk⟩ := ihn _ hcount hok hnext rfl
          refine ⟨fuel + 1, c', ?_⟩
          rw [List.head?_cons, Option.map_some, h.abortWalk_cons hcalls, if_pos hobj]
          exact hwalk
      · have hnext : c.calls = pre ++ [call] ++ suf := by
          rw [hcalls, List.append_assoc]
          rfl
        obtain ⟨fuel, c', hwalk⟩ :=
          ih hnext (by rw [hn, List.countP_cons_of_neg (by simpa using hobj)])
        refine ⟨fuel + 1, c', ?_⟩
        rw [List.head?_cons, Option.map_some, h.abortWalk_cons hcalls, if_neg hobj]
        exact hwalk

omit hrestrained in
/-- A walk that ends does so with more rounds as well. -/
lemma abortWalk_mono {removing : Option UInt16} {fuel : ℕ} {cursor : Option ℕ}
    (hwalk : c.abortWalk user removing fuel cursor = some c') (more : ℕ) :
    c.abortWalk user removing (fuel + more) cursor = some c' := by
  induction fuel generalizing c cursor with
  | zero =>
    cases cursor with
    | none =>
      rw [abortWalk_none] at hwalk ⊢
      exact hwalk
    | some id => cases hwalk
  | succ fuel ih =>
    cases cursor with
    | none =>
      rw [abortWalk_none] at hwalk ⊢
      exact hwalk
    | some id =>
      rw [Nat.succ_add]
      rw [Client.abortWalk] at hwalk ⊢
      cases hfind : c.calls.find? (·.id = id) with
      | none =>
        rw [hfind] at hwalk
        exact hwalk
      | some call =>
        rw [hfind] at hwalk
        simp only at hwalk ⊢
        split at hwalk
        · next hobj =>
          rw [if_pos hobj]
          exact ih hwalk
        · next hobj =>
          rw [if_neg hobj]
          exact ih hwalk

/-! ## Objects -/

/-- Removing a registered object leaves no call on it. -/
lemma removeObjectWith (h : CallsOk c) {o : ObjectRef} (hreg : isRegistered o.handle c.bus = true)
    {fuel : ℕ} (hremove : c.removeObjectWith user fuel (some o) = some c') :
    CallsOk c' ∧ c'.state = c.state ∧ (c.state ≠ .connected → ∀ call ∈ c'.calls, call ∈ c.calls) ∧
      ∀ x, isRegistered x c'.bus = true ↔ x ≠ o.handle ∧ isRegistered x c.bus = true := by
  obtain ⟨mid, hmid, heq⟩ := Option.map_eq_some_iff.mp hremove
  have hstart : c.calls = [] ++ c.calls := rfl
  obtain ⟨hok, hbus, hstate, hgone, hsub⟩ :=
    h.abortWalk hrestrained hstart (fun _ hx => absurd hx List.not_mem_nil) hmid
  obtain ⟨a, ha, -⟩ := Bus.Ok.isRegistered_iff.mp hreg
  have hsome : (mid.bus.object? o.handle).isNone = false := by
    rw [hbus, ha]
    rfl
  simp only [hsome, Bool.false_eq_true, if_false] at heq
  -- the remove callback may call other objects
  have happ := hok.callAll (user.remove o.handle mid)
  have hother : ∀ x ∈ (mid.callAll (user.remove o.handle mid)).calls, x.obj ≠ o.handle := by
    intro x hx hobj
    exact hgone x (hrestrained.remove o.handle mid x hx hobj) hobj
  have hbus' : (mid.callAll (user.remove o.handle mid)).bus = c.bus := happ.bus.trans hbus
  obtain ⟨hokBus, -, hfind⟩ := remove_spec (h := o.handle) h.bus
  have hsplit : ∀ x, isRegistered x
      (busRemoveObject o.handle (busUnregisterObject o.handle c.bus)) = true ↔
      x ≠ o.handle ∧ isRegistered x c.bus = true := by
    intro x
    rw [isRegistered, hfind, isRegistered]
    by_cases hx : x = o.handle <;> simp [hx]
  rw [← heq, hbus']
  refine ⟨happ.ok.of_bus hokBus fun call hcall => ?_, happ.state.trans hstate, fun hne call hcall =>
    ?_, hsplit⟩
  · refine (hsplit _).mpr ⟨hother call hcall, ?_⟩
    rw [← hbus']
    exact happ.ok.objects call hcall
  · obtain ⟨new, hnew, hnone⟩ := happ.calls
    change call ∈ (mid.callAll (user.remove o.handle mid)).calls at hcall
    rw [hnew, hnone (hstate ▸ hne), List.append_nil] at hcall
    exact hsub hne call hcall

/-- Removing a registered object ends. -/
lemma removeObjectWith_ends (h : CallsOk c) (o : ObjectRef) :
    ∃ fuel c', ∀ more, c.removeObjectWith user (fuel + more) (some o) = some c' := by
  have hstart : c.calls = [] ++ c.calls := rfl
  obtain ⟨fuel, mid, hmid⟩ := h.abortWalk_ends hrestrained o.handle hstart
  refine ⟨fuel, _, fun more => Option.map_eq_some_iff.mpr ⟨mid, abortWalk_mono hmid more, rfl⟩⟩

/-- Removing registered objects, each once. -/
lemma removeObjectsWith (h : CallsOk c) {refs : List ObjectRef}
    (hnodup : (refs.map ObjectRef.handle).Nodup)
    (hreg : ∀ o ∈ refs, isRegistered o.handle c.bus = true) {fuel : ℕ}
    (hremove : c.removeObjectsWith user fuel refs = some c') :
    CallsOk c' ∧ c'.state = c.state ∧ (c.state ≠ .connected → ∀ call ∈ c'.calls, call ∈ c.calls) ∧
      ∀ x, isRegistered x c'.bus = true ↔ x ∉ refs.map ObjectRef.handle ∧
      isRegistered x c.bus = true := by
  induction refs generalizing c with
  | nil =>
    cases hremove
    exact ⟨h, rfl, fun _ _ => id, fun x => by simp⟩
  | cons o refs ih =>
    rw [List.map_cons, List.nodup_cons] at hnodup
    obtain ⟨mid, hmid, hrest⟩ := Option.bind_eq_some_iff.mp hremove
    obtain ⟨hok, hstate, hsub, hsplit⟩ :=
      h.removeObjectWith hrestrained (hreg o List.mem_cons_self) hmid
    have hstay : ∀ r ∈ refs, isRegistered r.handle mid.bus = true := fun r hr =>
      (hsplit _).mpr ⟨fun heq => hnodup.1 (heq ▸ List.mem_map_of_mem hr),
        hreg r (List.mem_cons_of_mem o hr)⟩
    obtain ⟨hok', hstate', hsub', hsplit'⟩ := ih hok hnodup.2 hstay hrest
    refine ⟨hok', hstate'.trans hstate, fun hne x hx => hsub hne x (hsub' (hstate ▸ hne) x hx),
      fun x => ?_⟩
    rw [hsplit', hsplit, List.map_cons, List.mem_cons]
    tauto

lemma removeObjectsWith_ends (h : CallsOk c) {refs : List ObjectRef}
    (hnodup : (refs.map ObjectRef.handle).Nodup)
    (hreg : ∀ o ∈ refs, isRegistered o.handle c.bus = true) :
    ∃ fuel c', ∀ more, c.removeObjectsWith user (fuel + more) refs = some c' := by
  induction refs generalizing c with
  | nil => exact ⟨0, c, fun _ => rfl⟩
  | cons o refs ih =>
    rw [List.map_cons, List.nodup_cons] at hnodup
    obtain ⟨fuel₁, mid, hmid⟩ := h.removeObjectWith_ends hrestrained o
    obtain ⟨hok, -, -, hsplit⟩ :=
      h.removeObjectWith hrestrained (hreg o List.mem_cons_self) (hmid 0)
    obtain ⟨fuel₂, c', hrest⟩ := ih hok hnodup.2 fun r hr =>
      (hsplit _).mpr ⟨fun heq => hnodup.1 (heq ▸ List.mem_map_of_mem hr),
        hreg r (List.mem_cons_of_mem o hr)⟩
    refine ⟨fuel₁ + fuel₂, c', fun more => Option.bind_eq_some_iff.mpr ⟨mid, ?_, ?_⟩⟩
    · rw [Nat.add_assoc]
      exact hmid (fuel₂ + more)
    · rw [Nat.add_comm fuel₁, Nat.add_assoc]
      exact hrest (fuel₁ + more)

end CallsOk

/-! ## Steps -/

namespace StepOk

variable (hrestrained : user.Restrained)

include hrestrained

omit hrestrained in
/-- Calls are on registered objects, and a client without a connection has none. -/
lemma of_removed (h : StepOk c) (hok : CallsOk c') (hstate : c'.state = c.state)
    (hsub : c.state ≠ .connected → ∀ call ∈ c'.calls, call ∈ c.calls) : StepOk c' := by
  refine ⟨hok, fun hne => List.eq_nil_iff_forall_not_mem.mpr fun call hcall => ?_⟩
  rw [hstate] at hne
  have hin := hsub hne call hcall
  rw [h.idle hne] at hin
  cases hin

omit hrestrained in
lemma ackWith (h : StepOk c) (user : ClientUser) (a : Ack) : StepOk (c.ackWith user a) := by
  unfold Client.ackWith
  split
  · exact h
  · next call hfound =>
    obtain ⟨pre, suf, hcalls⟩ := List.append_of_mem (h.call?_mem hfound).1
    obtain ⟨hok, -, hstate, -, new, hnew, hnone⟩ := h.completeWith user hcalls none a.status
    refine h.of_removed hok hstate fun hne x hx => ?_
    rw [hnew, hnone hne, List.append_nil] at hx
    rw [hcalls]
    rcases List.mem_append.mp hx with hold | hold
    · exact List.mem_append_left _ hold
    · exact List.mem_append_right _ (List.mem_cons_of_mem _ hold)

/-- A packet keeps the calls in order, and leaves none on the objects that it removes. -/
lemma packetWith (h : StepOk c) {info : PacketInfo} (hinfo : c.RemovesRegistered (.packet info))
    {fuel : ℕ} (hpacket : c.packetWith user fuel info = some c') :
    StepOk c' ∧ ∀ call ∈ c'.calls, call.obj ∉ removedBy info := by
  have hplain : some (c.packet info) = some c' → StepOk c' ∧
      ∀ call ∈ c'.calls, call.obj ∉ removedBy info := by
    rintro ⟨⟩
    obtain ⟨hstep, hcalls⟩ := h.packet hinfo
    exact ⟨hstep, fun call hcall => (hcalls call hcall).2⟩
  cases info with
  | conreq req => exact hplain hpacket
  | conresp status objects => exact hplain hpacket
  | add obj => exact hplain hpacket
  | event e => exact hplain hpacket
  | call call => exact hplain hpacket
  | ack a =>
    cases hpacket
    exact ⟨h.ackWith user a, fun _ _ => List.not_mem_nil⟩
  | remove obj =>
    cases obj with
    | none => exact absurd rfl hinfo.1
    | some o =>
      obtain ⟨hok, hstate, hsub, hsplit⟩ := h.removeObjectWith hrestrained
        (hinfo.2.2 o.handle (by simp [removedBy])) hpacket
      refine ⟨h.of_removed hok hstate hsub, fun call hcall => ?_⟩
      have hleft := ((hsplit _).mp (hok.objects call hcall)).1
      simpa [removedBy] using hleft
  | busEvent e =>
    obtain ⟨hok₁, hgain₁, hstate₁⟩ := h.foldl_addObject e.addObjs
    obtain ⟨hok₂, hgain₂, hstate₂⟩ := hok₁.foldl_event e.objEvents
    have hgain := hgain₁.trans hgain₂
    obtain ⟨hok, hstate, hsub, hsplit⟩ := hok₂.removeObjectsWith hrestrained hinfo.2.1
      (fun o ho => hgain.registered _ (hinfo.2.2 o.handle (List.mem_map_of_mem ho))) hpacket
    have hstates := hstate₂.trans hstate₁
    refine ⟨h.of_removed hok (hstate.trans hstates) fun hne call hcall => ?_, fun call hcall => ?_⟩
    · rw [← hgain.calls]
      exact hsub (hstates ▸ hne) call hcall
    · exact ((hsplit _).mp (hok.objects call hcall)).1

/-- So does a disconnection. -/
lemma disconnectWith (h : StepOk c) {reconnect : Bool} {fuel : ℕ}
    (hgone : c.disconnectWith user fuel reconnect = some c') : StepOk c' := by
  obtain ⟨mid, hmid, rfl⟩ := Option.map_eq_some_iff.mp hgone
  have hset : CallsOk mid → mid.calls = [] → ∀ st, StepOk { mid with state := st } :=
    fun h hnone st =>
      ⟨⟨h.bus, h.hash, h.handles, h.nonzero, h.once, h.accepted, h.numbers, h.objects, h.fault⟩,
      fun _ => hnone⟩
  split at hmid
  · have hstart : CallsOk { c with state := .disconnecting } :=
      ⟨h.bus, h.hash, h.handles, h.nonzero, h.once, h.accepted, h.numbers, h.objects, h.fault⟩
    have hrefs : (c.bus.registered.map Object.ref).map ObjectRef.handle = c.bus.objects := by
      rw [List.map_map]
      exact h.bus.registered_handles
    obtain ⟨hok, -, -, hsplit⟩ := hstart.removeObjectsWith hrestrained (hrefs ▸ h.bus.nodup)
      (fun o ho => (h.bus.flags _).mp (hrefs ▸ List.mem_map_of_mem ho)) hmid
    refine hset hok (List.eq_nil_iff_forall_not_mem.mpr fun call hcall => ?_) _
    -- the object of a call that was left would still be registered
    obtain ⟨hout, hin⟩ := (hsplit _).mp (hok.objects call hcall)
    rw [hrefs] at hout
    exact hout ((h.bus.flags _).mpr hin)
  · next hstate =>
    cases hmid
    exact hset h.toCallsOk (h.idle hstate) _

lemma reentrantStep (h : StepOk c) {op : ClientOp} {fuel : ℕ} (hop : c.RemovesRegistered op)
    (hstep : reentrantStep user c (op, fuel) = some c') : StepOk c' := by
  simp only [Obus.reentrantStep, h.fault, Bool.false_eq_true, if_false] at hstep
  cases op with
  | start =>
    have hplain : clientStep c .start = some c' := by simpa [clientStep, h.fault] using hstep
    exact h.step hop hplain
  | call req =>
    have hplain : clientStep c (.call req) = some c' := by simpa [clientStep, h.fault] using hstep
    exact h.step hop hplain
  | packet info => exact (h.packetWith hrestrained hop hstep).1
  | disconnect reconnect => exact h.disconnectWith hrestrained hstep

/-- Every step ends. -/
lemma reentrantStep_ends (h : StepOk c) {op : ClientOp} (hop : c.RemovesRegistered op) :
    ∃ fuel c', ∀ more, Obus.reentrantStep user c (op, fuel + more) = some c' := by
  simp only [Obus.reentrantStep, h.fault, Bool.false_eq_true, if_false]
  cases op with
  | start => exact ⟨0, _, fun _ => rfl⟩
  | call req => exact ⟨0, _, fun _ => rfl⟩
  | packet info =>
    cases info with
    | remove obj =>
      cases obj with
      | none => exact absurd rfl hop.1
      | some o => exact h.removeObjectWith_ends hrestrained o
    | busEvent e =>
      obtain ⟨hok₁, hgain₁, -⟩ := h.foldl_addObject e.addObjs
      obtain ⟨hok₂, hgain₂, -⟩ := hok₁.foldl_event e.objEvents
      exact hok₂.removeObjectsWith_ends hrestrained hop.2.1
        fun o ho => (hgain₁.trans hgain₂).registered _ (hop.2.2 o.handle (List.mem_map_of_mem ho))
    | _ => exact ⟨0, _, fun _ => rfl⟩
  | disconnect reconnect =>
    have hstart : CallsOk { c with state := .disconnecting } :=
      ⟨h.bus, h.hash, h.handles, h.nonzero, h.once, h.accepted, h.numbers, h.objects, h.fault⟩
    have hrefs : (c.bus.registered.map Object.ref).map ObjectRef.handle = c.bus.objects := by
      rw [List.map_map]
      exact h.bus.registered_handles
    obtain ⟨fuel, mid, hmid⟩ := hstart.removeObjectsWith_ends hrestrained (hrefs ▸ h.bus.nodup)
      fun o ho => (h.bus.flags _).mp (hrefs ▸ List.mem_map_of_mem ho)
    by_cases hstate : c.state = .connected
    · refine ⟨fuel, _, fun more => Option.map_eq_some_iff.mpr ⟨mid, ?_, rfl⟩⟩
      rw [if_pos hstate]
      exact hmid more
    · refine ⟨fuel, _, fun more => Option.map_eq_some_iff.mpr ⟨c, ?_, rfl⟩⟩
      rw [if_neg hstate]

end StepOk

end Client

/-- In every run of a client whose callbacks are restrained: the walks over the pending calls end in
every further step, pending calls are on registered objects, and a packet leaves none on the objects
that it removes. -/
theorem no_call_outlives_object (api : BusDesc) (user : ClientUser) (hrestrained : user.Restrained)
    (ops : List (ClientOp × ℕ)) (c : Client)
    (hremoves : MeetsAll (reentrantStep user) (fun c op => c.RemovesRegistered op.1) ops
      (clientNew api))
    (hrun : runs (reentrantStep user) ops (clientNew api) = some c) :
    (∀ call ∈ c.calls, isRegistered call.obj c.bus = true) ∧
      ∀ op, c.RemovesRegistered op →
        (∃ fuel c', ∀ more, reentrantStep user c (op, fuel + more) = some c') ∧
        ∀ fuel c' info, op = .packet info → reentrantStep user c (op, fuel) = some c' →
          ∀ call ∈ c'.calls, call.obj ∉ Client.removedBy info := by
  have h : c.StepOk := runs_invariant (I := Client.StepOk)
    (fun _ _ _ h hC hstep => h.reentrantStep hrestrained hC hstep)
      (Client.StepOk.new api) hremoves hrun
  refine ⟨h.objects, fun op hop => ⟨h.reentrantStep_ends hrestrained hop, ?_⟩⟩
  rintro fuel c' info rfl hstep
  simp only [reentrantStep, h.fault, Bool.false_eq_true, if_false] at hstep
  exact (h.packetWith hrestrained hop hstep).2

/-! ## Restrained callbacks -/

namespace Client

/-- A new call is on the object that was asked for. -/
lemma mem_call {c : Client} {req : CallReq} {x : ClientCall} (hx : x ∈ (c.call req).calls) :
    x ∈ c.calls ∨ x.obj = req.obj := by
  unfold Client.call at hx
  split at hx
  · exact .inl hx
  · split at hx
    · exact .inl hx
    · split at hx
      · exact .inl hx
      · split at hx
        · exact .inl hx
        · split at hx
          · exact .inl hx
          · split at hx
            · exact .inl hx
            · next call c' hreg =>
              unfold Client.registerCall at hreg
              split at hreg
              · cases hreg
              · next handle _ =>
                cases hreg
                have hnew : x ∈ c.calls ++ [⟨c.nextCall, req.obj, handle⟩] := by
                  split at hx
                  · exact hx
                  · change x ∈ (unregisterCall _ _).calls at hx
                    unfold unregisterCall at hx
                    split at hx
                    · exact (List.mem_filter.mp hx).1
                    · exact hx
                rcases List.mem_append.mp hnew with hold | hnew
                · exact .inl hold
                · rw [List.mem_singleton.mp hnew]
                  exact .inr rfl

lemma mem_callAll {c : Client} {reqs : List CallReq} {x : ClientCall}
    (hx : x ∈ (c.callAll reqs).calls) : x ∈ c.calls ∨ ∃ req ∈ reqs, x.obj = req.obj := by
  induction reqs generalizing c with
  | nil => exact .inl hx
  | cons req reqs ih =>
    rcases ih hx with hold | ⟨r, hr, hobj⟩
    · rcases mem_call hold with hold | hobj
      · exact .inl hold
      · exact .inr ⟨req, List.mem_cons_self, hobj⟩
    · exact .inr ⟨r, List.mem_cons_of_mem _ hr, hobj⟩

end Client

/-- Callbacks that call other objects are restrained. -/
lemma ClientUser.Restrained.of_others {user : ClientUser}
    (hstatus : ∀ h call status c, ∀ req ∈ user.status (some h) call status c, req.obj ≠ h)
    (hremove : ∀ h c, ∀ req ∈ user.remove h c, req.obj ≠ h) : user.Restrained := by
  refine ⟨fun h call status c x hx hobj => ?_, fun h c x hx hobj => ?_⟩
  · rcases Client.mem_callAll hx with hold | ⟨req, hreq, heq⟩
    · exact hold
    · exact absurd (heq.symm.trans hobj) (hstatus h call status c req hreq)
  · rcases Client.mem_callAll hx with hold | ⟨req, hreq, heq⟩
    · exact hold
    · exact absurd (heq.symm.trans hobj) (hremove h c req hreq)

/-! ## Callbacks that call nothing -/

/-- A user whose callbacks make no calls. -/
def calmUser : ClientUser := ⟨fun _ _ _ _ => [], fun _ _ => []⟩

namespace Client

variable {c : Client}

/-- The walk aborts the calls on the object that are in the list from its entry on. -/
lemma CallsOk.abortWalk_calm (h : CallsOk c) {pre suf : List ClientCall}
    (hcalls : c.calls = pre ++ suf) (obj : UInt16) :
    c.abortWalk calmUser (some obj) suf.length (suf.head?.map ClientCall.id) =
      some ((suf.filter fun call => (some obj).all (call.obj = ·)).foldl
        (fun c call => c.complete call CallStatus.aborted.code) c) := by
  induction suf generalizing c pre with
  | nil => rfl
  | cons call suf ih =>
    rw [List.head?_cons, Option.map_some, List.length_cons, h.abortWalk_cons hcalls]
    by_cases hobj : call.obj = obj
    · obtain ⟨hok, -, -, hout, -⟩ :=
        h.completeWith calmUser hcalls (some obj) CallStatus.aborted.code
      rw [if_pos hobj, List.filter_cons_of_pos (by simpa using hobj), List.foldl_cons]
      exact ih hok hout
    · have hnext : c.calls = pre ++ [call] ++ suf := by
        rw [hcalls, List.append_assoc]
        rfl
      rw [if_neg hobj, List.filter_cons_of_neg (by simpa using hobj)]
      exact ih h hnext

/-- Without calls in callbacks, objects are removed as by `removeObject`. -/
lemma CallsOk.removeObjectWith_calm (h : CallsOk c) (o : ObjectRef) :
    ∃ fuel, ∀ more, c.removeObjectWith calmUser (fuel + more) (some o) =
      some (c.removeObject (some o)) := by
  refine ⟨c.calls.length, fun more => ?_⟩
  have hwalk := CallsOk.abortWalk_mono
    (h.abortWalk_calm (List.nil_append c.calls).symm o.handle) more
  have habort : c.abortCallWith calmUser (c.calls.length + more) (some o.handle) =
      some (c.abortCall (some o.handle)) := hwalk
  rw [Client.removeObjectWith, Option.map_some, habort]
  rfl

end Client

/-! ## Examples -/

/-- A call of the method of the sample, under a handle that is drawn. -/
def methodReq (obj : UInt16) : Client.CallReq :=
  ⟨obj, ⟨2, none⟩, none, true, [5, 6, 7, 8], true, true, true⟩

/-- A connected client with two objects and a pending call on the first one. -/
def oneCall : List (ClientOp × ℕ) :=
  [(.start, 0),
    (.packet (.conresp .accepted [⟨methodDesc, 7, false, enabledInfo⟩,
      ⟨methodDesc, 9, false, enabledInfo⟩]), 0),
    (.call (methodReq 7), 0)]

/-- A user whose status callback calls an object. -/
def persistentUser (obj : UInt16) : ClientUser := ⟨fun _ _ _ _ => [methodReq obj], fun _ _ => []⟩

/-- A user whose status callback calls an object, unless it is being removed. -/
def considerateUser (obj : UInt16) : ClientUser :=
  ⟨fun removing _ _ _ => if removing = some obj then [] else [methodReq obj], fun _ _ => []⟩

theorem no_call_outlives_object_oneCall :
    ∃ c, runs (reentrantStep (considerateUser 9))
        (oneCall ++ [(.packet (.remove (some ⟨methodDesc, 7⟩)), 5)])
          (clientNew methodApi) = some c ∧
      c.calls.map ClientCall.obj = [9] ∧ ∀ call ∈ c.calls, isRegistered call.obj c.bus = true := by
  obtain ⟨c, hrun⟩ : ∃ c, runs (reentrantStep (considerateUser 9))
      (oneCall ++ [(.packet (.remove (some ⟨methodDesc, 7⟩)), 5)]) (clientNew methodApi) =
        some c := ⟨_, rfl⟩
  have hrestrained : (considerateUser 9).Restrained := by
    refine ClientUser.Restrained.of_others (fun h call status c req hreq => ?_) fun _ _ _ hreq => ?_
    · simp only [considerateUser, Option.some.injEq] at hreq
      split at hreq
      · cases hreq
      · next hne =>
        rw [List.mem_singleton.mp hreq]
        exact Ne.symm hne
    · cases hreq
  have hremoves : MeetsAll (reentrantStep (considerateUser 9))
      (fun c op => c.RemovesRegistered op.1)
      (oneCall ++ [(.packet (.remove (some ⟨methodDesc, 7⟩)), 5)]) (clientNew methodApi) := by
    refine ⟨trivial, ?_⟩
    rintro _ ⟨⟩
    refine ⟨⟨nofun, List.nodup_nil, nofun⟩, ?_⟩
    rintro _ ⟨⟩
    refine ⟨trivial, ?_⟩
    rintro _ ⟨⟩
    refine ⟨⟨nofun, by decide, fun h hh => ?_⟩, fun _ _ => trivial⟩
    rw [List.mem_singleton.mp hh]
    decide
  obtain ⟨hobjects, -⟩ := no_call_outlives_object methodApi _ hrestrained _ c hremoves hrun
  refine ⟨c, hrun, ?_, hobjects⟩
  cases hrun
  decide

/-- An object of the client has the method, and the method is enabled. -/
def Client.Offers (c : Client) (obj : UInt16) : Prop :=
  c.state = .connected ∧ ∃ o, c.bus.object? obj = some o ∧ o.isRegistered = true ∧
  objectGetMethodState o 2 = .enabled

lemma Client.CallsOk.call_methodReq {c : Client} (h : c.CallsOk) {obj : UInt16}
    (hoffers : c.Offers obj) {y : ClientCall} (hcalls : c.calls = [y]) :
    ∃ handle, (c.call (methodReq obj)).calls = [y, ⟨c.nextCall, obj, handle⟩] := by
  obtain ⟨hstate, o, ho, hflag, henabled⟩ := hoffers
  obtain ⟨handle, hdraw⟩ : ∃ handle, randHandle (fun h => c.callsHash.any (·.1 = h)) [5, 6, 7, 8] =
    some handle := by
    rw [h.hash, hcalls]
    by_cases hy : y.handle = 5
    · exact ⟨6, by simp [randHandle, hy]⟩
    · exact ⟨5, by simp [randHandle, hy]⟩
  refine ⟨handle, ?_⟩
  simp [Client.call, methodReq, hstate, ho, hflag, henabled, Client.registerCall, hdraw,
    Client.giveBack, hcalls]

/-- With two pending calls, the callback always has a call ahead of the walk. -/
lemma Client.CallsOk.abortWalk_persistent {c : Client} (h : c.CallsOk) {obj : UInt16}
    (hoffers : c.Offers obj)
    {x y : ClientCall} (hcalls : c.calls = [x, y]) (hx : x.obj = obj) (hy : y.obj = obj)
    (fuel : ℕ) : c.abortWalk (persistentUser obj) (some obj) fuel (some x.id) = none := by
  induction fuel generalizing c x y with
  | zero => rfl
  | succ fuel ih =>
    have hlist : c.calls = [] ++ x :: [y] := hcalls
    obtain ⟨hok, hbus, hstate, hout, -⟩ :=
      h.completeWith (persistentUser obj) hlist (some obj) CallStatus.aborted.code
    obtain ⟨hmid, -⟩ := h.complete (hcalls ▸ List.mem_cons_self) CallStatus.aborted.code
    obtain ⟨hbus', hstate'⟩ := complete_frame c x CallStatus.aborted.code
    have hoffers' : (c.complete x CallStatus.aborted.code).Offers obj := by
      rw [Offers, hbus', hstate']
      exact hoffers
    obtain ⟨handle, hnew⟩ := hmid.call_methodReq hoffers' hout
    rw [h.abortWalk_cons hlist, if_pos hx]
    refine ih hok ?_ hnew hy rfl
    rw [Offers, hbus, hstate]
    exact hoffers

/-- The status callback of an aborted call calls the object that is being removed: with one pending
call, a call is left on the destroyed object; with two of them, the walk never ends. -/
theorem call_outlives_object :
    (∃ c, runs (reentrantStep (persistentUser 7))
      (oneCall ++ [(.packet (.remove (some ⟨methodDesc, 7⟩)), 5)])
        (clientNew methodApi) = some c ∧
      c.calls.map ClientCall.obj = [7] ∧ c.bus.object? 7 = none) ∧
    ∃ c, runs (reentrantStep (persistentUser 7)) (oneCall ++ [(.call (methodReq 7), 0)])
      (clientNew methodApi) =
        some c ∧
      ∀ fuel, reentrantStep (persistentUser 7) c (.packet (.remove (some ⟨methodDesc, 7⟩)), fuel) =
        none := by
  refine ⟨⟨_, rfl, by decide, by decide⟩, ?_⟩
  obtain ⟨c, hrun⟩ : ∃ c, runs (reentrantStep (persistentUser 7))
    (oneCall ++ [(.call (methodReq 7), 0)])
      (clientNew methodApi) = some c := ⟨_, rfl⟩
  -- so far no callback was invoked
  have hok : c.StepOk := by
    have hplain : runs clientStep ((oneCall ++ [(ClientOp.call (methodReq 7), 0)]).map Prod.fst)
        (clientNew methodApi) =
        some c := by
      cases hrun
      rfl
    refine runs_invariant (fun _ _ _ h hC hs => h.step hC hs) (Client.StepOk.new methodApi)
      (meetsAll_of_forall (fun op hop c => ?_) _) hplain
    simp only [oneCall, List.cons_append, List.nil_append, List.map_cons, List.map_nil,
      List.mem_cons,
      List.not_mem_nil, or_false] at hop
    rcases hop with rfl | rfl | rfl | rfl
    · trivial
    · exact ⟨nofun, List.nodup_nil, nofun⟩
    · trivial
    · trivial
  have hcalls : c.calls = [⟨0, 7, 5⟩, ⟨1, 7, 6⟩] := by
    cases hrun
    decide
  have hoffers : c.Offers 7 := by
    cases hrun
    exact ⟨rfl, _, rfl, rfl, by decide⟩
  refine ⟨c, hrun, fun fuel => ?_⟩
  have hwalk := hok.toCallsOk.abortWalk_persistent hoffers hcalls rfl rfl fuel
  have habort : c.abortCallWith (persistentUser 7) fuel (some 7) = none := by
    rw [Client.abortCallWith, hcalls]
    exact hwalk
  simp only [reentrantStep, hok.fault, Bool.false_eq_true, if_false, Client.packetWith,
    Client.removeObjectWith,
    Option.map_some, habort, Option.map_none]

end Obus
