import Obus.Handshake

/-!
# Who may act on the bus

A peer is admitted by the answer to its connection request.  Broadcasts look at the state of a peer
before they write to it, but a call does not: `obus_peer_call_request` handles the call of any peer,
and its acknowledgement goes to whoever made the call, also after a failed write has disconnected it
meanwhile.

`CallAdmitted` leaves these calls out.  In every run without them, packets other than connection
responses go only to connected peers, and handlers are invoked only for their calls
(`only_connected_peers_act`).
-/

namespace Obus

open Relation

/-- An action that only a connected peer may be part of happens to one. -/
def Action.Admitted : Action → Prop
  | .sent _ state info => info.type = .conresp ∨ state = .connected
  | .invoked _ state _ => state = .connected
  | _ => True

/-- No write to a peer fails but that of a connection response. -/
def Env.Reaches (env : Env) (p : ℕ) : Prop := ∀ t type, type ≠ .conresp → env.write t p type = true

/-- A call comes from a connected peer, and no write to the peer fails while its call is handled. -/
def CallAdmitted (s : Server) : ServerOp × Env → Prop
  | (.packet p (.call _), env) => s.peerState p = .connected ∧ env.Reaches p
  | _ => True

/-- Between elementary changes: everything that happened was admitted, connected peers were
accepted, and the call that is being handled is that of a peer that stays connected. -/
structure Guarded (env : Env) (s : Server) : Prop where
  trace : ∀ a ∈ s.trace, a.Admitted
  accepted : ∀ p, s.peerState p = .connected →
    ∃ st objects, Action.sent p st (.conresp .accepted objects) ∈ s.trace
  call : ∀ call, s.call = some call → call.alive = true →
    s.peerState call.peer = .connected ∧ env.Reaches call.peer

namespace Guarded

variable {env : Env} {s s' : Server}

/-- A change after which no other peers are connected than before. -/
lemma of_connected (h : Guarded env s)
    (hconn : ∀ p, s'.peerState p = .connected → s.peerState p = .connected)
    (htrace : s.trace <+: s'.trace) (hadmitted : ∀ a ∈ s'.trace, a ∈ s.trace ∨ a.Admitted)
    (hcall : ∀ call, s'.call = some call → call.alive = true →
      s'.peerState call.peer = .connected ∧ env.Reaches call.peer) : Guarded env s' := by
  refine ⟨fun a ha => ?_, fun p hp => ?_, hcall⟩
  · rcases hadmitted a ha with hold | hnew
    · exact h.trace a hold
    · exact hnew
  · obtain ⟨st, objects, hmem⟩ := h.accepted p (hconn p hp)
    exact ⟨st, objects, htrace.subset hmem⟩

/-- A change of the peers as an elementary change makes it keeps the peer of the call connected. -/
lemma of_cases (h : Guarded env s)
    (hstate : ∀ p, s'.peerState p = s.peerState p ∨
      (s.peerState p = .connected ∧ s'.peerState p = .disconnected ∧
        ∃ t type, PacketType.IsNews type ∧ env.write t p type = false) ∨
      (s.peerState p = .connecting ∧ s'.peerState p = .refused))
    (htrace : s.trace <+: s'.trace) (hadmitted : ∀ a ∈ s'.trace, a ∈ s.trace ∨ a.Admitted)
    (hcall : s'.call = s.call ∨ s'.call = none) : Guarded env s' := by
  refine h.of_connected (fun p hp => ?_) htrace hadmitted fun call hc halive => ?_
  · rcases hstate p with heq | ⟨-, hdis, -⟩ | ⟨-, href⟩
    · exact heq ▸ hp
    · rw [hp] at hdis
      cases hdis
    · rw [hp] at href
      cases href
  · rcases hcall with hsame | hnone
    · obtain ⟨hconn, hreach⟩ := h.call call (hsame ▸ hc) halive
      refine ⟨?_, hreach⟩
      rcases hstate call.peer with heq | ⟨-, -, t, type, htype, hwrite⟩ | ⟨hcon, -⟩
      · rw [heq, hconn]
      · rw [hreach t type htype.1] at hwrite
        cases hwrite
      · rw [hconn] at hcon
        cases hcon
    · rw [hnone] at hc
      cases hc

lemma log (h : Guarded env s) {a : Action} (ha : a.Admitted) : Guarded env (s.log a) := by
  refine h.of_cases (fun _ => .inl rfl) (List.prefix_append _ _) (fun b hb => ?_) (.inl rfl)
  rcases List.mem_append.mp hb with hb | hb
  · exact .inl hb
  · exact .inr (List.mem_singleton.mp hb ▸ ha)

lemma micro (h : Guarded env s) (hm : Micro env s s') : Guarded env s' := by
  have hstate := hm.peerState_cases
  cases hm with
  | committed info => exact h.log trivial
  | notified event p => exact h.log trivial
  | sent hs hinfo => exact h.log (.inr rfl)
  | acked ack hcall halive hhandle => exact h.log (.inr (h.call _ hcall halive).1)
  | callDone st => exact h.of_cases hstate List.prefix_rfl (fun a ha => .inl ha) (.inr rfl)
  | removed hs =>
    refine h.of_cases hstate (List.prefix_append _ _) (fun a ha => ?_) (.inl rfl)
    rcases List.mem_append.mp ha with ha | ha
    · exact .inl ha
    · exact .inr (List.mem_singleton.mp ha ▸ trivial)
  | _ => exact h.of_cases hstate List.prefix_rfl (fun a ha => .inl ha) (.inl rfl)

lemma micros (h : Guarded env s) (hm : Micros env s s') : Guarded env s' :=
  hm.invariant (fun hm h => h.micro hm) h

end Guarded

/-- No call is being handled. -/
def Server.NoCall (s : Server) : Prop := ∀ call, s.call = some call → call.alive = false

lemma Micro.noCall {env : Env} {s s' : Server} (h : Micro env s s') (hs : s.NoCall) :
    s'.NoCall := by
  cases h with
  | callDone st => exact nofun
  | _ => exact hs

/-- Between the steps of the server: everything that happened was admitted, connected peers were
accepted, and no call is being handled. -/
structure Admitted (s : Server) : Prop where
  guarded : ∀ env, Guarded env s
  noCall : s.NoCall

namespace Admitted

variable {s s' : Server}

lemma new (api : BusDesc) : Admitted (serverNew api) := by
  have hcall : ∀ call, (serverNew api).call ≠ some call := nofun
  exact ⟨fun env => ⟨nofun, nofun, fun call hc => absurd hc (hcall call)⟩,
    fun call hc => absurd hc (hcall call)⟩

lemma of_guarded (env : Env) (h : Guarded env s) (hcall : s.NoCall) : Admitted s :=
  ⟨fun _ => ⟨h.trace, h.accepted, fun call hc halive => absurd (hcall call hc) (by simp [halive])⟩,
    hcall⟩

lemma micros {env : Env} (h : Admitted s) (hm : Micros env s s') : Admitted s' :=
  of_guarded env ((h.guarded env).micros hm) (hm.invariant Micro.noCall h.noCall)

/-- A change after which no other peers are connected than before, without a call. -/
lemma of_connected (h : Admitted s)
    (hconn : ∀ p, s'.peerState p = .connected → s.peerState p = .connected)
    (htrace : s.trace <+: s'.trace) (hadmitted : ∀ a ∈ s'.trace, a ∈ s.trace ∨ a.Admitted)
    (hcall : s'.call = s.call) : Admitted s' := by
  have hno : s'.NoCall := fun call hc => h.noCall call (hcall ▸ hc)
  refine of_guarded fairEnv ((h.guarded fairEnv).of_connected hconn htrace hadmitted
    fun call hc halive => ?_) hno
  exact absurd (hno call hc) (by simp [halive])

lemma log (h : Admitted s) {a : Action} (ha : a.Admitted) : Admitted (s.log a) := by
  refine h.of_connected (fun _ hp => hp) (List.prefix_append _ _) (fun b hb => ?_) rfl
  rcases List.mem_append.mp hb with hb | hb
  · exact .inl hb
  · exact .inr (List.mem_singleton.mp hb ▸ ha)

lemma setState (h : Admitted s) {p : ℕ} {st : PeerState} (hst : st ≠ .connected) :
    Admitted (s.setState p st) := by
  refine h.of_connected (fun q hq => ?_) List.prefix_rfl (fun a ha => .inl ha) rfl
  by_cases hqp : q = p
  · subst hqp
    have hsome := Server.peer?_isSome_of_ne_disconnected (s := s.setState q st) (p := q)
      (by rw [hq]; decide)
    rw [Server.peer?_setState, Option.isSome_map] at hsome
    exact absurd ((Server.peerState_setState_self hsome).symm.trans hq) hst
  · exact (Server.peerState_setState_of_ne hqp).symm.trans hq

lemma removed (h : Admitted s) (p : ℕ) :
    Admitted ({ s with peers := s.peers.filter (·.id ≠ p) }.log (.destroyed p)) := by
  suffices hgone : Admitted { s with peers := s.peers.filter (·.id ≠ p) } from hgone.log trivial
  refine h.of_connected (fun q hq => ?_) List.prefix_rfl (fun a ha => .inl ha) rfl
  rw [Server.peerState_filter] at hq
  split at hq
  · cases hq
  · exact hq

lemma peerDestroy (h : Admitted s) (user : User) (env : Env) (depth p : ℕ) :
    Admitted (Obus.peerDestroy (callback user env depth) p s) := by
  unfold Obus.peerDestroy
  simp only
  split
  · have hset : Admitted (s.setState p .disconnected) := h.setState (by decide)
    have hdis : Admitted { s.setState p .disconnected with
        nPeersConnected := s.nPeersConnected - 1 } :=
      hset.of_connected (fun _ hq => hq) List.prefix_rfl (fun a ha => .inl ha) rfl
    exact (hdis.micros (callback_micros user env depth .disconnected p _)).removed p
  · exact h.removed p

/-- A peer becomes connected after it was sent an accepting response. -/
lemma connect (h : Admitted s) {p : ℕ} {st : PeerState} {objects : List Object}
    (hsent : Action.sent p st (.conresp .accepted objects) ∈ s.trace) (n : ℕ) :
    Admitted { s.setState p .connected with nPeersConnected := n } := by
  refine of_guarded fairEnv
    ⟨(h.guarded fairEnv).trace, fun q hq => ?_, fun call hc halive => ?_⟩ h.noCall
  · by_cases hqp : q = p
    · subst hqp
      exact ⟨st, objects, hsent⟩
    · exact (h.guarded fairEnv).accepted q ((Server.peerState_setState_of_ne hqp).symm.trans hq)
  · exact absurd (h.noCall call hc) (by simp [halive])

lemma answering (h : Admitted s) (user : User) (env : Env) (depth p : ℕ) (req : Conreq) :
    Admitted (Obus.answering (callback user env depth) p req s) := by
  have hnamed : Admitted (s.modifyPeer p fun q => { q with name := req.client }) := by
    refine h.of_connected (fun q hq => ?_) List.prefix_rfl (fun a ha => .inl ha) rfl
    rwa [Server.peerState_modifyPeer (f := fun q => { q with name := req.client }) (fun _ => rfl)
      fun _ => rfl] at hq
  unfold Obus.answering
  simp only
  split
  · have hset : Admitted ((s.modifyPeer p fun q => { q with name := req.client }).setState p
        .connecting) :=
      hnamed.setState (by decide)
    exact hset.micros (callback_micros user env depth .connecting p _)
  · exact hnamed

/-- The end of a round of the loop of `obus_peer_io_read_event`. -/
lemma readRound (h : Admitted s) (p : ℕ) (again : Bool) :
    Admitted (if again = true ∧ (s.peer? p).isNone = true then s.crash .freedPeer else s) := by
  split
  · exact h.of_connected (fun _ hq => hq) List.prefix_rfl (fun a ha => .inl ha) rfl
  · exact h

/-- A connection request keeps what happens admitted. -/
lemma request (h : Admitted s) (user : User) (env : Env) (depth p : ℕ) (req : Conreq) :
    Admitted (peerConnectionRequest env (callback user env depth) p req s).2 := by
  by_cases hidle : s.peerState p = .idle
  · by_cases hnames : req.NamesPresent
    · rw [peerConnectionRequest_eq hidle hnames]
      have hans := h.answering user env depth p req
      set t := Obus.answering (callback user env depth) p req s
      set status := answer (callback user env depth) p req s with hstatus
      have hticks : ∀ n, Admitted { t with ticks := n } := fun n =>
        hans.of_connected (fun _ hq => hq) List.prefix_rfl (fun a ha => .inl ha) rfl
      obtain ⟨n, ⟨-, hsend⟩ | hsend⟩ := peerSendConnectionResponse_cases (p := p) status t
      · rw [hsend]
        exact (hticks n).peerDestroy user env depth p
      · rw [hsend, afterAnswer]
        have hlog : Admitted ({ t with ticks := n }.log
            (.sent p (t.peerState p) (reply status t))) :=
          (hticks n).log (.inl rfl)
        split
        · next hacc =>
          refine Admitted.micros ?_ (callback_micros user env depth .connected p _)
          have hsent : Action.sent p (t.peerState p) (.conresp .accepted t.bus.registered) ∈
              ({ t with ticks := n }.log (.sent p (t.peerState p) (reply status t))).trace := by
            rw [reply, hstatus.trans hacc, if_pos rfl]
            exact List.mem_append_right _ (List.mem_singleton_self _)
          exact hlog.connect hsent _
        · exact hlog.setState (by decide)
    · obtain ⟨f, hid, hstate, hreq⟩ :=
        peerConnectionRequest_absent env (callback user env depth) hidle hnames
      rw [hreq]
      refine h.of_connected (fun q hq => ?_) List.prefix_rfl (fun a ha => .inl ha) rfl
      exact (Server.peerState_modifyPeer hid hstate).symm.trans hq
  · rw [peerConnectionRequest, if_pos hidle]
    exact h

/-- The end of a call leaves none that is being handled. -/
lemma callEnd {env : Env} (h : Guarded env s) (handle : UInt16) (status : CallStatus) :
    Admitted (Obus.callEnd env handle status s) := by
  have hdead : (Obus.callEnd env handle status s).NoCall := by
    intro c hc
    obtain ⟨c', -, rfl⟩ := Option.map_eq_some_iff.mp hc
    rfl
  refine of_guarded env (Guarded.of_connected (s := if s.callStatus = .invalid then
    (serverSendAck env handle status s).2 else s) ?_ (fun _ hq => hq) List.prefix_rfl
      (fun a ha => .inl ha) fun c hc halive => absurd (hdead c hc) (by simp [halive])) hdead
  split
  · exact h.micros (serverSendAck_micros handle status s)
  · exact h

/-- A call of a connected peer keeps what happens admitted. -/
lemma callRequest (h : Admitted s) {user : User} {env : Env} {depth p : ℕ} {call : Call}
    (hconn : s.peerState p = .connected) (hreach : env.Reaches p) :
    Admitted (peerCallRequest env (invoke user env depth) p call s) := by
  obtain ⟨status, u, heq, hu⟩ := peerCallRequest_cases env (invoke user env depth) p call s
  rw [heq]
  set t : Server := { s with call := some ⟨p, call.handle, true⟩, callStatus := .invalid }
  have htaken : Guarded env t := by
    refine (h.guarded env).of_connected (fun _ hq => hq) List.prefix_rfl
      (fun a ha => .inl ha) fun c hc _ => ?_
    obtain rfl : PendingCall.mk p call.handle true = c := Option.some.inj hc
    exact ⟨hconn, hreach⟩
  rcases hu with rfl | hinvoke
  · exact callEnd htaken _ status
  · obtain ⟨calls, -, rfl⟩ := Option.map_eq_some_iff.mp hinvoke
    have hinvoked : Action.Admitted (.invoked p (t.peerState p) call) := hconn
    exact callEnd ((htaken.log hinvoked).micros
      (foldl_runApi_micros (callback_micros user env depth) calls _)) _ status

lemma accept (h : Admitted s) :
    Admitted
      { s with peers := s.peers ++ [⟨s.nextPeer, .idle, none⟩], nextPeer := s.nextPeer + 1 } := by
  refine h.of_connected (fun p hp => ?_) List.prefix_rfl (fun a ha => .inl ha) rfl
  simp only [Server.peerState, Server.peer?, List.find?_append] at hp ⊢
  cases hold : s.peers.find? (·.id = p) with
  | some peer => simpa [hold] using hp
  | none =>
    rw [hold, Option.none_or, List.find?_singleton] at hp
    split at hp <;> cases hp

/-- Every step whose call is admitted keeps what happens admitted. -/
lemma step {user : User} {depth : ℕ} {a : ServerOp × Env} (h : Admitted s)
    (hcall : CallAdmitted s a) (hstep : serverStep user depth s a = some s') : Admitted s' := by
  obtain ⟨op, env⟩ := a
  cases op with
  | packet p info =>
    obtain ⟨-, -, rfl⟩ := serverStep_packet hstep
    cases info with
    | conreq req => exact (h.request user env depth p req).readRound p _
    | call call => exact (h.callRequest hcall.1 hcall.2).readRound p true
    | _ => exact h.readRound p true
  | accept =>
    obtain rfl := serverStep_accept hstep
    exact h.accept
  | closed p =>
    obtain ⟨-, rfl⟩ := serverStep_closed hstep
    exact h.peerDestroy user env depth p
  | api a =>
    obtain rfl := serverStep_api hstep
    exact h.micros (runApi_micros (callback_micros user env depth) a s)

end Admitted

/-- An object with one method, whose state is a field of the object. -/
def methodDesc : ObjectDesc := ⟨100, [⟨2, .method, .value .enum, some ⟨2, true⟩⟩], [], [⟨2, none⟩]⟩

/-- A bus with such objects. -/
def methodApi : BusDesc := ⟨CString.ofBytes [98, 117, 115], [methodDesc], [], 77⟩

/-- The method of a new object is enabled. -/
def enabledInfo : Struct := [⟨⟨2, .method, .value .enum, some ⟨2, true⟩⟩, true, (1 : UInt32)⟩]

/-- A user whose handler does nothing. -/
def idleHandler : User := ⟨fun _ _ _ => [], fun _ _ _ => some []⟩

/-- A call of the method. -/
def methodCall : Call := ⟨⟨methodDesc, 7⟩, ⟨2, none⟩, 5, none⟩

/-- The server has an object with the method, and a peer has connected its socket. -/
def offering : List (ServerOp × Env) :=
  [(.api (.newObject methodDesc (some enabledInfo) [7]), fairEnv),
    (.api (.registerObject 7), fairEnv),
    (.accept, fairEnv)]

/-- The request of a client for the bus with the method. -/
def methodRequest : Conreq :=
  { sampleRequest with bus := some methodApi.name, crc := methodApi.crc }

end Obus
