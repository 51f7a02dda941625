import Obus.Admission

/-!
# Acknowledgements

While a call is handled, `srv->call` points to it and its `status` is `OBUS_CALL_INVALID` until it
is acknowledged.  Both together say how far the handling has come (`Handling`): as long as the
pointer is set no acknowledgement was sent, and after the first one it is cleared, whatever status
was given.

Buffers can be had and writes succeed throughout, so that no peer leaves while a call is handled.
-/

namespace Obus

/-- The acknowledgements among the actions of a server, with the peers that they go to. -/
def acks (trace : List Action) : List (ℕ × Ack) :=
  trace.filterMap fun
    | .sent p _ (.ack a) => some (p, a)
    | _ => none

lemma acks_append (as bs : List Action) : acks (as ++ bs) = acks as ++ acks bs :=
  List.filterMap_append

/-! ## What does not concern the call -/

/-- Nothing about the call that is being handled changes, nobody gets an acknowledgement, and all
peers stay. -/
structure Unheard (s s' : Server) : Prop where
  call : s'.call = s.call
  status : s'.callStatus = s.callStatus
  acks : acks s'.trace = acks s.trace
  ids : s'.peers.map Peer.id = s.peers.map Peer.id

namespace Unheard

variable {s s' s'' : Server} {env : Env} {notify : Notify}

lemma refl (s : Server) : Unheard s s := ⟨rfl, rfl, rfl, rfl⟩

lemma trans (h : Unheard s s') (h' : Unheard s' s'') : Unheard s s'' :=
  ⟨h'.call.trans h.call, h'.status.trans h.status, h'.acks.trans h.acks, h'.ids.trans h.ids⟩

lemma log (s : Server) {a : Action} (h : Obus.acks [a] = []) : Unheard s (s.log a) := by
  refine ⟨rfl, rfl, ?_, rfl⟩
  rw [Server.log, acks_append, h, List.append_nil]

lemma setState (s : Server) (p : ℕ) (st : PeerState) : Unheard s (s.setState p st) :=
  ⟨rfl, rfl, rfl, Server.setState_ids⟩

lemma counted (s : Server) (n : ℕ) : Unheard s { s with nPeersConnected := n } :=
  ⟨rfl, rfl, rfl, rfl⟩

lemma peer?_isSome (h : Unheard s s') {p : ℕ} (hp : (s.peer? p).isSome = true) :
    (s'.peer? p).isSome = true := by
  rw [Option.isSome_iff_ne_none, Ne, Server.peer?_eq_none_iff] at hp ⊢
  rwa [h.ids]

/-- A packet that is sent and acknowledges nothing. -/
lemma sendPeer (henv : env.Reliable) (notify : Notify) {info : PacketInfo}
    (hinfo : info.type ≠ .ack) (p : ℕ) (s : Server) : Unheard s (sendPeer env notify info p s) := by
  have hack : Obus.acks [.sent p .connected info] = [] := by
    cases info with
    | ack a => exact absurd rfl hinfo
    | _ => rfl
  have hlog : Unheard s (s.log (.sent p .connected info)) := .log s hack
  rcases sendPeer_cases env notify info p s with ⟨-, heq⟩ | ⟨-, -, heq⟩ | ⟨-, hwrite, -⟩
  · rw [heq]
    exact .refl s
  · rw [heq]
    exact ⟨hlog.call, hlog.status, hlog.acks, hlog.ids⟩
  · simp [henv.write] at hwrite

lemma broadcast (henv : env.Reliable) (notify : Notify) (info : PacketInfo)
    (hinfo : info.type ≠ .ack) (s : Server) : Unheard s (broadcast env notify info s).2 := by
  rcases broadcast_cases env notify info s with ⟨-, heq⟩ | ⟨-, hbuf, -⟩ | ⟨-, -, heq⟩
  · rw [heq]
    exact .refl s
  · simp [henv.buffer] at hbuf
  · rw [heq]
    have hstart : Unheard s { s with ticks := s.ticks + 1, walking := s.walking + 1 } :=
      ⟨rfl, rfl, rfl, rfl⟩
    have hwalk := walkPeers_rule (I := Unheard s)
      (fun p t h => h.trans (sendPeer henv notify hinfo p t))
      (fun t h => ⟨h.call, h.status, h.acks, h.ids⟩) s.peers.length
        (s.peers.head?.map Peer.id) hstart
    exact ⟨hwalk.call, hwalk.status, hwalk.acks, hwalk.ids⟩

/-- Changing the objects of the bus before a broadcast, or after it. -/
lemma of_bus (s : Server) (bus : Bus) : Unheard s { s with bus := bus } := ⟨rfl, rfl, rfl, rfl⟩

/-- A call of the interface that acknowledges nothing. -/
lemma runApi (henv : env.Reliable) {a : Api} (ha : (∀ h st, a ≠ .sendAck h st) ∨ s.call = none) :
    Unheard s (runApi env notify a s) := by
  have hrule : ApiRule env notify (Unheard s) :=
    { bus := fun _ h => h.trans (.of_bus _ _)
      committed := fun _ h => h.trans (.log _ rfl)
      broadcast := fun hinfo h => h.trans (.broadcast henv notify _ hinfo.2 _)
      crashed := fun _ h => h.trans ⟨rfl, rfl, rfl, rfl⟩ }
  apply hrule.runApi (.refl s)
  · rintro handle status rfl
    have hcall : s.call = none := ha.resolve_left fun hne => hne handle status rfl
    simp only [serverSendAck, hcall]
    exact .refl s
  · intro p _
    unfold peerRefuseConnection
    split
    · exact .setState s p _
    · exact .refl s

/-- Outside of calls the callback of the user acknowledges nothing. -/
lemma callback (henv : env.Reliable) (user : User) (depth : ℕ) (event : PeerEvent) (p : ℕ)
    (hcall : s.call = none) : Unheard s (callback user env depth event p s) := by
  have hfold : ∀ (notify : Notify) (calls : List Api) (t : Server), t.call = none →
      Unheard t (calls.foldl (fun t a => Obus.runApi env notify a t) t) := by
    intro notify calls
    induction calls with
    | nil => exact fun t _ => .refl t
    | cons a calls ih =>
      intro t ht
      have hfirst : Unheard t (Obus.runApi env notify a t) := .runApi henv (.inr ht)
      exact hfirst.trans (ih _ (hfirst.call.trans ht))
  have hlog : Unheard s (s.log (.notified event p)) := .log s rfl
  cases depth with
  | zero => exact hlog
  | succ depth => exact hlog.trans (hfold _ _ _ hcall)

end Unheard

/-! ## How a call is handled -/

/-- The server when it takes a call. -/
def Server.taking (s : Server) (p : ℕ) (handle : UInt16) : Server :=
  { s with call := some ⟨p, handle, true⟩, callStatus := .invalid }

/-- The status of a call that nobody acknowledges. -/
def defaultStatus (bus : Bus) (call : Call) : CallStatus :=
  match bus.object? call.obj.handle with
  | none => .aborted
  | some obj =>
    if !obj.isRegistered then .aborted
    else
      match objectGetMethodState obj call.desc.uid with
      | .enabled => .refused
      | .disabled => .methodDisabled
      | .notSupported => .methodNotSupported
      | .other => .refused

/-- The object of the call is registered and its method enabled. -/
def isEnabled (bus : Bus) (call : Call) : Bool :=
  (bus.object? call.obj.handle).any fun obj =>
    obj.isRegistered && decide (objectGetMethodState obj call.desc.uid = .enabled)

/-- What the handler of the method calls, if it is run. -/
def handlerCalls (user : User) (p : ℕ) (call : Call) (s : Server) : List Api :=
  if isEnabled s.bus call then (user.onCall p call (s.taking p call.handle)).getD [] else []

/-- The status that a call of the interface gives to the call with a handle. -/
def Api.ackStatus? (handle : UInt16) : Api → Option CallStatus
  | .sendAck h st => if h = handle then some st else none
  | _ => none

/-- The first status that calls of the interface give to the call with a handle. -/
def firstStatus? (handle : UInt16) (calls : List Api) : Option CallStatus :=
  calls.findSome? (Api.ackStatus? handle)

/-- How far the handling of a call has come since a given state: it waits for a status, or was
acknowledged with one. -/
structure Handling (p : ℕ) (handle : UInt16) (s₀ : Server) (given : Option CallStatus)
    (s : Server) : Prop where
  peer : (s.peer? p).isSome = true
  call : s.call = if given.isNone then some ⟨p, handle, true⟩ else none
  status : s.callStatus = given.getD .invalid
  acks : acks s.trace = acks s₀.trace ++ given.toList.map fun st => (p, ⟨handle, st.code⟩)

namespace Handling

variable {p : ℕ} {handle : UInt16} {s₀ s : Server} {given : Option CallStatus} {env : Env}

lemma of_unheard {s' : Server} (h : Handling p handle s₀ given s) (hu : Unheard s s') :
    Handling p handle s₀ given s' :=
  ⟨hu.peer?_isSome h.peer, hu.call.trans h.call, hu.status.trans h.status, hu.acks.trans h.acks⟩

/-- An acknowledgement with another handle, or a second one, is refused and nothing is sent. -/
lemma sendAck_refused (h : Handling p handle s₀ given s) {h' : UInt16} (st : CallStatus)
    (hrefused : given.isSome = true ∨ h' ≠ handle) :
    serverSendAck env h' st s = (.error .enoent, s) := by
  rcases serverSendAck_cases env h' st s with ⟨-, heq⟩ | ⟨call, hcall, hcases⟩
  · exact heq
  · have hsome := h.call.symm.trans hcall
    cases given with
    | some st' => cases hsome
    | none =>
      cases hsome
      have hne : handle ≠ h' := (hrefused.resolve_left (by simp)).symm
      rcases hcases with ⟨hdead, -⟩ | ⟨-, -, heq⟩ | ⟨-, hsame, -⟩ | ⟨-, hsame, -⟩ | ⟨-, hsame, -⟩
      · cases hdead
      · exact heq
      · exact absurd hsame hne
      · exact absurd hsame hne
      · exact absurd hsame hne

/-- The first acknowledgement with the handle of the call is sent. -/
lemma sendAck_accepted (henv : env.Reliable) (h : Handling p handle s₀ none s) (st : CallStatus) :
    (serverSendAck env handle st s).1 = .ok () ∧
      Handling p handle s₀ (some st) (serverSendAck env handle st s).2 := by
  have hacks : Obus.acks s.trace = Obus.acks s₀.trace := by simpa using h.acks
  rcases serverSendAck_cases env handle st s with ⟨hnone, -⟩ | ⟨call, hcall, hcases⟩
  · cases h.call.symm.trans hnone
  · cases h.call.symm.trans hcall
    rcases hcases with ⟨hdead, -⟩ | ⟨-, hne, -⟩ | ⟨-, -, hbuf, -⟩ | ⟨-, -, -, hgone, -⟩ |
      ⟨-, -, -, -, heq⟩
    · cases hdead
    · exact absurd rfl hne
    · simp [henv.buffer] at hbuf
    · have hpeer := h.peer
      rw [hgone] at hpeer
      cases hpeer
    · simp only [heq, ioWrite, henv.write, if_true]
      refine ⟨trivial, h.peer, rfl, rfl, ?_⟩
      rw [Server.log, acks_append]
      exact congrArg (· ++ _) hacks

/-- A call of the interface gives a status to the call, if none was given before. -/
lemma runApi (henv : env.Reliable) (h : Handling p handle s₀ given s) (notify : Notify) (a : Api) :
    Handling p handle s₀ (given.or (a.ackStatus? handle)) (runApi env notify a s) := by
  cases a with
  | sendAck h' st =>
    change Handling p handle s₀ _ (serverSendAck env h' st s).2
    by_cases hrefused : given.isSome = true ∨ h' ≠ handle
    · have hgiven : given.or ((Api.sendAck h' st).ackStatus? handle) = given := by
        rcases hrefused with hsome | hne
        · obtain ⟨st', rfl⟩ := Option.isSome_iff_exists.mp hsome
          rfl
        · simp [Api.ackStatus?, hne]
      rw [hgiven, h.sendAck_refused st hrefused]
      exact h
    · push Not at hrefused
      obtain ⟨hnone, rfl⟩ := hrefused
      obtain rfl : given = none := by simpa using hnone
      have hgiven : (Api.sendAck h' st).ackStatus? h' = some st := if_pos rfl
      rw [hgiven]
      exact (h.sendAck_accepted henv st).2
  | _ =>
    have hgiven : ∀ b : Option CallStatus, b.or none = b := fun b => by cases b <;> rfl
    simp only [Api.ackStatus?, hgiven]
    exact h.of_unheard (.runApi henv (.inl nofun))

lemma foldl_runApi (henv : env.Reliable) (h : Handling p handle s₀ given s) (notify : Notify)
    (calls : List Api) : Handling p handle s₀ (given.or (firstStatus? handle calls))
      (calls.foldl (fun s a => Obus.runApi env notify a s) s) := by
  induction calls generalizing given s with
  | nil =>
    have hgiven : given.or (firstStatus? handle []) = given := by cases given <;> rfl
    rw [hgiven]
    exact h
  | cons a calls ih =>
    have hrest := ih (h.runApi henv notify a)
    have hfirst : firstStatus? handle (a :: calls) = (a.ackStatus? handle).or
        (firstStatus? handle calls) := by
      unfold firstStatus?
      rw [List.findSome?_cons]
      cases a.ackStatus? handle <;> rfl
    rw [hfirst, ← Option.or_assoc]
    exact hrest

/-- At the end a call that waits is acknowledged with a given status. -/
lemma callEnd (henv : env.Reliable) (h : Handling p handle s₀ given s) (st : CallStatus) :
    Handling p handle s₀ (some (given.getD st)) (callEnd env handle st s) := by
  have hdone : ∀ {st' : CallStatus} {t : Server}, Handling p handle s₀ (some st') t →
      Handling p handle s₀ (some st')
        { t with call := t.call.map fun c => { c with alive := false } } := by
    intro st' t ht
    have hcall : t.call = none := ht.call
    exact ⟨ht.peer, by simp [hcall], ht.status, ht.acks⟩
  unfold Obus.callEnd
  cases given with
  | none =>
    have hwaits : s.callStatus = .invalid := h.status
    rw [if_pos hwaits]
    exact hdone (h.sendAck_accepted henv st).2
  | some st' =>
    -- a status `OBUS_CALL_INVALID` looks as if none had been given, but the pointer is cleared
    rw [h.sendAck_refused st (.inl rfl), ite_self]
    exact hdone h

end Handling

/-! ## Calls of peers -/

lemma peerCallRequest_eq (env : Env) (handler : Handler) (p : ℕ) (call : Call) (s : Server) :
    peerCallRequest env handler p call s = callEnd env call.handle (defaultStatus s.bus call)
      (if isEnabled s.bus call then (handler p call (s.taking p call.handle)).getD
        (s.taking p call.handle) else s.taking p call.handle) := by
  unfold peerCallRequest defaultStatus isEnabled
  change callEnd env call.handle _ _ = _
  have hbus : (s.taking p call.handle).bus = s.bus := rfl
  cases hobj : s.bus.object? call.obj.handle with
  | none => simp [Server.taking]
  | some obj =>
    cases hreg : obj.isRegistered with
    | false => simp [hreg, Server.taking]
    | true =>
      cases hstate : objectGetMethodState obj call.desc.uid <;> simp [hreg, hstate, Server.taking]

/-- A call is acknowledged once, with the first status that its handler gives or else with that of
the server. -/
lemma peerCallRequest_handling {env : Env} (henv : env.Reliable) (user : User) (depth : ℕ) {p : ℕ}
    (call : Call) {s : Server} (hpeer : (s.peer? p).isSome = true) :
    Handling p call.handle s
      (some ((firstStatus? call.handle (handlerCalls user p call s)).getD
        (defaultStatus s.bus call)))
      (peerCallRequest env (invoke user env depth) p call s) := by
  have htaken : Handling p call.handle s none (s.taking p call.handle) :=
    ⟨hpeer, rfl, rfl, by simp [Server.taking]⟩
  rw [peerCallRequest_eq]
  refine Handling.callEnd henv ?_ _
  unfold handlerCalls
  split
  · unfold invoke
    cases hcalls : user.onCall p call (s.taking p call.handle) with
    | none => exact htaken
    | some calls =>
      have hinvoked :=
        htaken.of_unheard (.log _ (a := .invoked p ((s.taking p call.handle).peerState p) call) rfl)
      exact hinvoked.foldl_runApi henv _ calls
  · exact htaken

/-- A connection request acknowledges nothing. -/
lemma peerConnectionRequest_unheard {env : Env} (henv : env.Reliable) (user : User) (depth p : ℕ)
    (req : Conreq) {s : Server} (hcall : s.call = none) :
    Unheard s (peerConnectionRequest env (callback user env depth) p req s).2 := by
  have hnamed : Unheard s (s.modifyPeer p fun q => { q with name := req.client }) :=
    ⟨rfl, rfl, rfl, Server.modifyPeer_ids fun _ => rfl⟩
  -- from the state in which the answer is sent on
  have hanswer : ∀ (t : Server) (status : ConrespStatus),
      ∃ t', peerSendConnectionResponse env p status t = (true, t') ∧ Unheard t t' := by
    intro t status
    obtain ⟨n, ⟨hrel, -⟩ | hsend⟩ := @peerSendConnectionResponse_cases env p status t
    · exact absurd henv hrel
    · have hlog : Unheard t (t.log (.sent p (t.peerState p) (reply status t))) := .log t rfl
      exact ⟨_, hsend, hlog.call, hlog.status, hlog.acks, hlog.ids⟩
  have hend : ∀ (t t' : Server) (status : ConrespStatus), t.call = none → Unheard t t' → Unheard t
      (if status = ConrespStatus.accepted then
        (true, callback user env depth .connected p
          { t'.setState p .connected with nPeersConnected := t'.nPeersConnected + 1 })
      else (true, t'.setState p .refused)).2 := by
    intro t t' status ht hsent
    split
    · have hconnected := (hsent.trans (.setState _ p .connected)).trans
        (.counted _ (t'.nPeersConnected + 1))
      exact hconnected.trans (.callback henv user depth .connected p (hconnected.call.trans ht))
    · exact hsent.trans (.setState _ p _)
  unfold peerConnectionRequest
  split
  · exact .refl s
  · split
    · exact ⟨rfl, rfl, rfl, rfl⟩
    · simp only
      split
      · exact ⟨hnamed.call, hnamed.status, hnamed.acks, hnamed.ids⟩
      · next status _ =>
        by_cases hstatus : status = .accepted
        · have hasking := hnamed.trans (.setState _ p .connecting)
          have hasked :=
            hasking.trans (.callback henv user depth .connecting p (hasking.call.trans hcall))
          simp only [hstatus, if_true]
          obtain ⟨t', hsend, hsent⟩ := hanswer _ _
          rw [hsend]
          exact hasked.trans (hend _ t' _ (hasked.call.trans hcall) hsent)
        · rw [if_neg hstatus, if_neg fun h => hstatus h.1]
          obtain ⟨t', hsend, hsent⟩ := hanswer _ status
          rw [hsend]
          exact hnamed.trans (hend _ t' status (hnamed.call.trans hcall) hsent)

/-- Outside of calls a peer that leaves gets no acknowledgement, and no one else does. -/
lemma peerDestroy_unheard {env : Env} (henv : env.Reliable) (user : User) (depth p : ℕ) {s : Server}
    (hcall : s.call = none) :
    (peerDestroy (callback user env depth) p s).call = none ∧
      acks (peerDestroy (callback user env depth) p s).trace = acks s.trace := by
  have hleaving := (Unheard.setState s p .disconnected).trans (.counted _ (s.nPeersConnected - 1))
  have hgone :=
    hleaving.trans (.callback henv user depth .disconnected p (hleaving.call.trans hcall))
  have hdestroyed : ∀ as : List Action, acks (as ++ [.destroyed p]) = acks as := fun as => by
    rw [acks_append]
    exact List.append_nil _
  unfold peerDestroy
  simp only
  split
  · exact ⟨hgone.call.trans hcall, (hdestroyed _).trans hgone.acks⟩
  · exact ⟨hcall, hdestroyed _⟩

/-! ## Runs -/

/-- The calls among the inputs of a server: by whom, and with which handle. -/
def callsOf (ops : List (ServerOp × Env)) : List (ℕ × UInt16) :=
  ops.filterMap fun
    | (.packet p (.call call), _) => some (p, call.handle)
    | _ => none

/-- Between packets no call is being handled, and each call so far was acknowledged once. -/
structure Acknowledged (past : List (ServerOp × Env)) (s : Server) : Prop where
  call : s.call = none
  acks : (acks s.trace).map (fun a => (a.1, a.2.handle)) = callsOf past

lemma Acknowledged.step {user : User} {depth : ℕ} {past : List (ServerOp × Env)} {s s' : Server}
    {a : ServerOp × Env} (h : Acknowledged past s) (henv : a.2.Reliable)
    (hstep : serverStep user depth s a = some s') : Acknowledged (past ++ [a]) s' := by
  have hpast : callsOf (past ++ [a]) = callsOf past ++ callsOf [a] := List.filterMap_append
  have hother : callsOf [a] = [] → s'.call = none → Obus.acks s'.trace = Obus.acks s.trace →
      Acknowledged (past ++ [a]) s' := by
    intro hnone hcall hacks
    exact ⟨hcall, by rw [hpast, hnone, List.append_nil, hacks, h.acks]⟩
  obtain ⟨op, env⟩ := a
  change env.Reliable at henv
  cases op with
  | accept =>
    obtain rfl := serverStep_accept hstep
    exact hother rfl h.call rfl
  | closed p =>
    obtain ⟨-, rfl⟩ := serverStep_closed hstep
    obtain ⟨hcall, hacks⟩ := peerDestroy_unheard henv user depth p h.call
    exact hother rfl hcall hacks
  | api a =>
    obtain rfl := serverStep_api hstep
    have hapi : Unheard s (runApi env (callback user env depth) a s) := .runApi henv (.inr h.call)
    exact hother rfl (hapi.call.trans h.call) hapi.acks
  | packet p info =>
    obtain ⟨-, hpeer, rfl⟩ := serverStep_packet hstep
    -- the peer is still there after the packet
    have hround : ∀ t : Server, (t.peer? p).isSome = true → ∀ again : Bool,
        (if again = true ∧ (t.peer? p).isNone = true then t.crash .freedPeer else t) = t := by
      intro t ht again
      apply if_neg
      rintro ⟨-, hnone⟩
      rw [Option.isNone_iff_eq_none] at hnone
      simp [hnone] at ht
    cases info with
    | call call =>
      have hhandled := peerCallRequest_handling henv user depth call hpeer
      rw [peerPacket, hround _ hhandled.peer true]
      refine ⟨hhandled.call, ?_⟩
      rw [hpast, hhandled.acks, List.map_append, h.acks]
      rfl
    | conreq req =>
      have hrequest := peerConnectionRequest_unheard henv user depth p req h.call
      have hdone : peerPacket user env depth p (.conreq req) s =
          (peerConnectionRequest env (callback user env depth) p req s).2 :=
        hround _ (hrequest.peer?_isSome hpeer) _
      exact hother rfl (hdone ▸ hrequest.call.trans h.call) (hdone ▸ hrequest.acks)
    | _ =>
      have hdone := hround s hpeer true
      exact hother rfl ((congrArg Server.call hdone).trans h.call)
        (congrArg (fun t => Obus.acks t.trace) hdone)

/-- Where buffers can be had and writes succeed, the acknowledgements of a run are those of its
calls, each once, for the peer that made the call and with its handle.  A call that is read next is
acknowledged before anything else is read, with the first status that its handler gives or else with
the one of the server, and every acknowledgement that the handler tries with another handle, or a
second time, is refused. -/
theorem calls_acknowledged_once (user : User) (depth : ℕ) (api : BusDesc)
    (ops : List (ServerOp × Env)) (henv : ∀ a ∈ ops, a.2.Reliable) (s : Server)
    (hrun : runs (serverStep user depth) ops (serverNew api) = some s) :
    (acks s.trace).map (fun a => (a.1, a.2.handle)) = callsOf ops ∧
      ∀ (env : Env) (p : ℕ) (call : Call) (s' : Server), env.Reliable →
        serverStep user depth s (.packet p (.call call), env) = some s' →
        acks s'.trace = acks s.trace ++ [(p, ⟨call.handle,
          ((firstStatus? call.handle (handlerCalls user p call s)).getD
            (defaultStatus s.bus call)).code⟩)] ∧
        ∀ (before after : List Api) (handle : UInt16) (status : CallStatus),
          handlerCalls user p call s = before ++ .sendAck handle status :: after →
          let t := before.foldl (fun t a => runApi env (callback user env depth) a t)
            ((s.taking p call.handle).log (.invoked p (s.peerState p) call))
          if handle = call.handle ∧ firstStatus? call.handle before = none then
            (serverSendAck env handle status t).1 = .ok ()
          else serverSendAck env handle status t = (.error .enoent, t) := by
  have hnew : Acknowledged [] (serverNew api) := ⟨rfl, rfl⟩
  have hack : Acknowledged ([] ++ ops) s :=
    runs_history (C := fun _ a => a.2.Reliable) (fun _ _ _ _ h hC hstep => h.step hC hstep) [] hnew
      (meetsAll_of_forall (fun a ha _ => henv a ha) _) hrun
  refine ⟨hack.acks, ?_⟩
  intro env p call s' hrel hstep
  obtain ⟨-, hpeer, rfl⟩ := serverStep_packet hstep
  constructor
  · have hhandled := peerCallRequest_handling hrel user depth call hpeer
    have hround := hhandled.peer
    rw [← Option.not_isNone, Bool.not_eq_true'] at hround
    simp only [peerPacket, hround, Bool.false_eq_true, and_false, if_false]
    exact hhandled.acks
  · intro before after handle status hcalls t
    have htaken : Handling p call.handle s none (s.taking p call.handle) :=
      ⟨hpeer, rfl, rfl, by simp [Server.taking]⟩
    have hinvoked := htaken.of_unheard (.log _ (a := .invoked p (s.peerState p) call) rfl)
    have hbefore : Handling p call.handle s (firstStatus? call.handle before) t :=
      hinvoked.foldl_runApi hrel _ before
    split
    · next hfirst =>
      rw [hfirst.2] at hbefore
      rw [hfirst.1]
      exact (hbefore.sendAck_accepted hrel status).1
    · next hlater =>
      refine hbefore.sendAck_refused status ?_
      rw [not_and_or] at hlater
      rcases hlater with hne | hgiven
      · exact .inr hne
      · exact .inl (Option.isSome_iff_ne_none.mpr hgiven)

/-- A user whose handler acknowledges a call with another handle first, then with no status, then
once more. -/
def hastyHandler : User :=
  ⟨fun _ _ _ => [], fun _ call _ =>
    some [.sendAck (call.handle + 1) .acked, .sendAck call.handle .invalid,
    .sendAck call.handle .acked]⟩

theorem calls_acknowledged_once_hasty :
    ∃ s s', runs (serverStep hastyHandler 0)
      (offering ++ [(.packet 0 (.conreq methodRequest), fairEnv)])
        (serverNew methodApi) = some s ∧
      serverStep hastyHandler 0 s (.packet 0 (.call methodCall), fairEnv) = some s' ∧
      acks s'.trace = [(0, ⟨5, 0⟩)] := by
  set ops := offering ++ [(.packet 0 (.conreq methodRequest), fairEnv)]
  obtain ⟨s, hrun⟩ : ∃ s, runs (serverStep hastyHandler 0) ops (serverNew methodApi) =
    some s := ⟨_, rfl⟩
  have henv : ∀ a ∈ ops, a.2.Reliable := by
    intro a ha
    have hfair : a.2 = fairEnv := by
      simp only [ops, offering, List.cons_append, List.nil_append, List.mem_cons, List.not_mem_nil,
        or_false] at ha
      rcases ha with rfl | rfl | rfl | rfl <;> rfl
    rw [hfair]
    exact fairEnv_reliable
  obtain ⟨hacks, hnext⟩ := calls_acknowledged_once hastyHandler 0 methodApi ops henv s hrun
  obtain ⟨s', hstep⟩ : ∃ s', serverStep hastyHandler 0 s (.packet 0 (.call methodCall), fairEnv) =
    some s' := by
    cases hrun
    exact ⟨_, rfl⟩
  refine ⟨s, s', hrun, hstep, ?_⟩
  rw [(hnext fairEnv 0 methodCall s' fairEnv_reliable hstep).1]
  cases hrun
  decide

end Obus
