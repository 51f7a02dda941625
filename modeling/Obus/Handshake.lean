import Obus.RoundTrip
import Obus.ServerSteps
import Obus.Lib.Run

/-!
# The connection handshake

A peer is answered once, when its first connection request arrives.  `answering` is the server as it
is when the answer is sent, after the user was asked, and `answer` is the status that is sent.

The names in a request are decoded from sized strings, and a size of 0 stands for an absent name.
The server duplicates the name of the client before it looks whether there is one, and compares the
name of the bus without looking.  `NamesPresent` leaves those requests out, and
`connection_handshake` says what happens in every run without them; the last part says that a
request is handled without reading absent memory exactly when it is not one of them.
-/

namespace Obus

open Relation

/-! ## Answers in a record -/

/-- The action answers a connection request of a peer. -/
def Action.isReply (p : ℕ) : Action → Bool
  | .sent q _ (.conresp _ _) => q = p
  | _ => false

/-- How many connection responses were sent to a peer. -/
def replies (p : ℕ) (trace : List Action) : ℕ := trace.countP (Action.isReply p)

lemma replies_append (p : ℕ) (as bs : List Action) :
    replies p (as ++ bs) = replies p as + replies p bs :=
  List.countP_append

lemma replies_log_of_not {s : Server} {a : Action} (p : ℕ) (h : a.isReply p = false) :
    replies p (s.log a).trace = replies p s.trace := by
  simp [Server.log, replies, h]

lemma isReply_of_type {p q : ℕ} {st : PeerState} {info : PacketInfo} (h : info.type ≠ .conresp) :
    (Action.sent q st info).isReply p = false := by
  cases info with
  | conresp status objects => exact absurd rfl h
  | _ => rfl

/-- The operation is a connection request of a peer. -/
def ServerOp.isRequest (p : ℕ) : ServerOp → Bool
  | .packet q (.conreq _) => q = p
  | _ => false

/-- A peer has sent a connection request. -/
def requested (p : ℕ) (past : List (ServerOp × Env)) : Bool := past.any fun a => a.1.isRequest p

/-! ## Changes that answer nobody -/

/-- A change that answers no connection request: no peer is new or idle again, no absent string is
read, and only the peer `c`, whose request is being handled, stops being idle while it is there. -/
structure Calm (c : Option ℕ) (s s' : Server) : Prop where
  api : s'.bus.api = s.bus.api
  nextPeer : s'.nextPeer = s.nextPeer
  ids : (s'.peers.map Peer.id).Sublist (s.peers.map Peer.id)
  idle : ∀ p, s'.peerState p = .idle → s.peerState p = .idle
  stays : ∀ p, c ≠ some p → s.peerState p = .idle → s'.peerState p = .idle ∨ s'.peer? p = none
  trace : s.trace <+: s'.trace
  replies : ∀ p, replies p s'.trace = replies p s.trace
  fault : s.fault ≠ some .absentString → s'.fault ≠ some .absentString

namespace Calm

variable {c : Option ℕ} {s s' s'' : Server}

/-- A change that leaves the peers alone. -/
lemma of_peers (hapi : s'.bus.api = s.bus.api) (hnext : s'.nextPeer = s.nextPeer)
    (hpeers : s'.peers = s.peers) (htrace : s.trace <+: s'.trace)
    (hreplies : ∀ p, Obus.replies p s'.trace = Obus.replies p s.trace)
    (hfault : s.fault ≠ some .absentString → s'.fault ≠ some .absentString) : Calm c s s' := by
  have hpeer : ∀ p, s'.peer? p = s.peer? p := fun p => by rw [Server.peer?, hpeers, Server.peer?]
  have hstate : ∀ p, s'.peerState p = s.peerState p := fun p => by
    rw [Server.peerState, hpeer, Server.peerState]
  exact ⟨hapi, hnext, by rw [hpeers], fun p hp => hstate p ▸ hp, fun p _ hp =>
    .inl (hstate p ▸ hp), htrace,
    hreplies, hfault⟩

lemma refl (s : Server) : Calm c s s := of_peers rfl rfl rfl List.prefix_rfl (fun _ => rfl) id

lemma trans (h : Calm c s s') (h' : Calm c s' s'') : Calm c s s'' where
  api := h'.api.trans h.api
  nextPeer := h'.nextPeer.trans h.nextPeer
  ids := h'.ids.trans h.ids
  idle p hp := h.idle p (h'.idle p hp)
  stays p hc hp := by
    rcases h.stays p hc hp with hidle | hgone
    · exact h'.stays p hc hidle
    · rw [Server.peer?_eq_none_iff] at hgone ⊢
      exact .inr fun hmem => hgone (h'.ids.subset hmem)
  trace := h.trace.trans h'.trace
  replies p := (h'.replies p).trans (h.replies p)
  fault hf := h'.fault (h.fault hf)

lemma log (s : Server) {a : Action} (h : ∀ p, a.isReply p = false) : Calm c s (s.log a) :=
  of_peers rfl rfl rfl (List.prefix_append _ _) (fun p => replies_log_of_not p (h p)) id

lemma call (s : Server) (call : Option PendingCall) (st : CallStatus) :
    Calm c s { s with call := call, callStatus := st } :=
  of_peers rfl rfl rfl List.prefix_rfl (fun _ => rfl) id

lemma ticks (s : Server) (n : ℕ) : Calm c s { s with ticks := n } :=
  of_peers rfl rfl rfl List.prefix_rfl (fun _ => rfl) id

lemma counted (s : Server) (n : ℕ) : Calm c s { s with nPeersConnected := n } :=
  of_peers rfl rfl rfl List.prefix_rfl (fun _ => rfl) id

lemma crash (s : Server) {f : Fault} (hf : f ≠ .absentString) : Calm c s (s.crash f) :=
  of_peers rfl rfl rfl List.prefix_rfl (fun _ => rfl) fun _ h => hf (Option.some.inj h)

lemma setState (s : Server) (p : ℕ) {st : PeerState} (hst : st ≠ .idle)
    (hc : s.peerState p = .idle → c = some p) : Calm c s (s.setState p st) := by
  refine ⟨rfl, rfl, by rw [Server.setState_ids], fun q hq => ?_,
    fun q hq hidle => .inl ?_, List.prefix_rfl, fun _ => rfl, id⟩
  · by_cases hqp : q = p
    · exact absurd (hqp ▸ hq) (Server.peerState_setState_ne_idle hst)
    · exact (Server.peerState_setState_of_ne hqp).symm.trans hq
  · by_cases hqp : q = p
    · exact absurd (hqp ▸ hc (hqp ▸ hidle)) hq
    · exact (Server.peerState_setState_of_ne hqp).trans hidle

lemma named (s : Server) (p : ℕ) (name : Option CString) :
    Calm c s (s.modifyPeer p fun q => { q with name := name }) := by
  have hstate : ∀ q, (s.modifyPeer p fun q => { q with name := name }).peerState q =
      s.peerState q :=
    fun q => Server.peerState_modifyPeer (f := fun q => { q with name := name })
      (fun _ => rfl) fun _ => rfl
  have hids := Server.modifyPeer_ids (s := s) (p := p)
    (f := fun q => { q with name := name }) fun _ => rfl
  exact ⟨rfl, rfl, by rw [hids], fun q hq => (hstate q).symm.trans hq,
    fun q _ hq => .inl ((hstate q).trans hq), List.prefix_rfl, fun _ => rfl, id⟩

lemma removed (s : Server) (p : ℕ) :
    Calm c s ({ s with peers := s.peers.filter (·.id ≠ p) }.log (.destroyed p)) := by
  refine ⟨rfl, rfl, List.filter_sublist.map _, fun q hq => ?_, fun q _ hq => ?_,
    List.prefix_append _ _,
    fun q => replies_log_of_not q rfl, id⟩
  · replace hq := (Server.peerState_filter (s := s)).symm.trans hq
    split at hq
    · cases hq
    · exact hq
  · by_cases hqp : q = p
    · exact .inr (hqp ▸ Server.peer?_filter_self)
    · exact .inl ((Server.peerState_filter (s := s)).trans ((if_neg hqp).trans hq))

end Calm

variable {c : Option ℕ}

lemma Micro.calm {env : Env} {s s' : Server} (h : Micro env s s') : Calm c s s' := by
  cases h with
  | bus b hapi => exact .of_peers hapi rfl rfl List.prefix_rfl (fun _ => rfl) id
  | committed info => exact .log s fun _ => rfl
  | tick => exact .ticks s _
  | sent hstate hinfo => exact .log s fun _ => isReply_of_type hinfo.1
  | acked ack hcall halive hhandle => exact .log s fun _ => rfl
  | callDone st => exact .call s none st
  | @disconnected p hstate hwrite =>
    exact (Calm.setState s p (by decide) fun hidle => by simp [hstate] at hidle).trans
      (.counted _ _)
  | notified event p => exact .log s fun _ => rfl
  | @removed p hstate => exact .removed s p
  | walking n => exact .of_peers rfl rfl rfl List.prefix_rfl (fun _ => rfl) id
  | @refused p hstate => exact .setState s p (by decide) fun hidle => by simp [hstate] at hidle
  | crashed f hf =>
    refine .crash s ?_
    rintro rfl
    exact hf

lemma Micros.calm {env : Env} {s s' : Server} (h : Micros env s s') : Calm c s s' :=
  h.invariant (I := fun t => Calm c s t) (fun hm hi => hi.trans hm.calm) (.refl s)

lemma callback_calm (user : User) (env : Env) (depth : ℕ) (event : PeerEvent) (p : ℕ) (s : Server) :
    Calm c s (callback user env depth event p s) :=
  (callback_micros user env depth event p s).calm

lemma peerDestroy_calm (user : User) (env : Env) (depth p : ℕ) (s : Server) :
    Calm c s (peerDestroy (callback user env depth) p s) := by
  unfold peerDestroy
  simp only
  split
  · next hstate =>
    exact (((Calm.setState s p (by decide) fun hidle => by simp [hstate] at hidle).trans
      (.counted _ _)).trans
      (callback_calm user env depth _ p _)).trans (.removed _ p)
  · exact .removed s p

lemma invoke_calm {user : User} {env : Env} {depth p : ℕ} {call : Call} {s s' : Server}
    (h : invoke user env depth p call s = some s') : Calm c s s' := by
  obtain ⟨calls, -, rfl⟩ := Option.map_eq_some_iff.mp h
  exact (Calm.log s fun _ => rfl).trans
    (foldl_runApi_micros (callback_micros user env depth) calls _).calm

lemma callEnd_calm (env : Env) (handle : UInt16) (status : CallStatus) (s : Server) :
    Calm c s (callEnd env handle status s) := by
  unfold callEnd
  split
  · exact (serverSendAck_micros handle status s).calm.trans (.call _ _ _)
  · exact .call _ _ _

lemma peerCallRequest_calm (user : User) (env : Env) (depth p : ℕ) (call : Call) (s : Server) :
    Calm c s (peerCallRequest env (invoke user env depth) p call s) := by
  obtain ⟨status, u, heq, hu⟩ := peerCallRequest_cases env (invoke user env depth) p call s
  have htaken := Calm.call (c := c) s (some ⟨p, call.handle, true⟩) .invalid
  rw [heq]
  rcases hu with rfl | hinvoke
  · exact htaken.trans (callEnd_calm env _ status _)
  · exact (htaken.trans (invoke_calm hinvoke)).trans (callEnd_calm env _ status u)

/-! ## The answer to a connection request -/

/-- Every buffer can be had and every write succeeds. -/
structure Env.Reliable (env : Env) : Prop where
  buffer : ∀ t type, env.buffer t type = true
  write : ∀ t p type, env.write t p type = true

/-- The names that the server reads are there: that of the client, and that of the bus unless the
version alone refuses the request. -/
def Conreq.NamesPresent (req : Conreq) : Prop :=
  req.client.isSome = true ∧ (req.version = protocolVersion → req.bus.isSome = true)

instance (req : Conreq) : Decidable req.NamesPresent := inferInstanceAs (Decidable (_ ∧ _))

/-- The request that a peer may make of the bus of the server. -/
structure Conreq.Matches (req : Conreq) (api : BusDesc) : Prop where
  version : req.version = protocolVersion
  bus : req.bus = some api.name
  crc : req.crc = api.crc
  client : ∃ c, req.client = some c ∧ c.val ≠ []

lemma checkConreq_isSome {req : Conreq} {api : BusDesc} :
    (checkConreq req api).isSome = true ↔
    (req.version = protocolVersion → req.bus.isSome = true) := by
  unfold checkConreq
  cases req.bus <;> grind

lemma checkConreq_accepted {req : Conreq} {api : BusDesc} :
    checkConreq req api = some .accepted ↔ req.Matches api := by
  constructor
  · intro h
    unfold checkConreq at h
    split at h
    · cases h
    · next hversion =>
      split at h
      · cases h
      · next bus hbus =>
        split at h
        · cases h
        · next hname =>
          split at h
          · cases h
          · next hcrc =>
            split at h
            · cases h
            · next hclient =>
              refine ⟨not_not.mp hversion, hbus.trans (congrArg some (not_not.mp hname)),
                not_not.mp hcrc, ?_⟩
              cases hc : req.client with
              | none => simp [hc] at hclient
              | some c => exact ⟨c, rfl, by simpa [hc] using hclient⟩
  · rintro ⟨hversion, hbus, hcrc, c, hclient, hc⟩
    simp [checkConreq, hversion, hbus, hcrc, hclient, hc]

lemma checkConreq_cases {req : Conreq} {api : BusDesc} {status : ConrespStatus}
    (h : checkConreq req api = some status) : status = .accepted ∨ status = .refused := by
  unfold checkConreq at h
  grind

section Answer

variable (env : Env) (notify : Notify) (p : ℕ) (req : Conreq) (s : Server)

/-- The server when it answers the request of an idle peer: the name of the peer is set, and if
nothing speaks against the request, the user was asked. -/
def answering : Server :=
  let s := s.modifyPeer p fun q => { q with name := req.client }
  if checkConreq req s.bus.api = some .accepted then notify .connecting p
    (s.setState p .connecting) else s

/-- The status that the server answers. -/
def answer : ConrespStatus :=
  if checkConreq req s.bus.api = some .accepted ∧ (answering notify p req s).peerState p ≠
    .refused then
    .accepted
  else .refused

/-- The answer in the state in which it is sent: it carries the registered objects if it accepts. -/
def reply (status : ConrespStatus) (t : Server) : PacketInfo :=
  .conresp status (if status = .accepted then t.bus.registered else [])

/-- What becomes of the peer after the answer. -/
def afterAnswer : Bool × Server → Bool × Server
  | (false, t) => (false, peerDestroy notify p t)
  | (true, t) =>
    if answer notify p req s = .accepted then
      (true, notify .connected p
        { t.setState p .connected with nPeersConnected := t.nPeersConnected + 1 })
    else (true, t.setState p .refused)

variable {env notify p req s}

/-- A request of an idle peer that has its names is answered, and nothing more. -/
lemma peerConnectionRequest_eq (hidle : s.peerState p = .idle) (hnames : req.NamesPresent) :
    peerConnectionRequest env notify p req s =
      afterAnswer notify p req s (peerSendConnectionResponse env p (answer notify p req s)
        (answering notify p req s)) := by
  have hsome : (checkConreq req s.bus.api).isSome = true := checkConreq_isSome.mpr hnames.2
  obtain ⟨status, hcheck⟩ := Option.isSome_iff_exists.mp hsome
  have hclient : req.client.isNone = false := by simp [hnames.1]
  have hapi : (s.modifyPeer p fun q => { q with name := req.client }).bus.api = s.bus.api := rfl
  unfold peerConnectionRequest afterAnswer
  rw [if_neg (not_not.mpr hidle), hclient, if_neg (by decide)]
  simp only [hapi, hcheck]
  rcases checkConreq_cases hcheck with rfl | rfl
  · simp only [answer, answering, hapi, hcheck, if_true, true_and]
    by_cases href : (notify .connecting p (Server.setState
        (s.modifyPeer p fun q => { q with name := req.client }) p .connecting)).peerState
          p = .refused
    · simp only [href, if_true]
      rfl
    · cases hsend : peerSendConnectionResponse env p .accepted
        (notify .connecting p (Server.setState
        (s.modifyPeer p fun q => { q with name := req.client }) p .connecting)) with
      | mk sent s' =>
        cases sent <;> simp only [href, if_false, ne_eq, not_false_eq_true, if_true, hsend]
  · cases hsend : peerSendConnectionResponse env p .refused
      (s.modifyPeer p fun q => { q with name := req.client }) with
    | mk sent s' =>
      cases sent <;> simp only [answer, answering, hapi, hcheck, reduceCtorEq,
        Option.some.injEq, if_false,
        false_and, hsend]

/-- A request of an idle peer without its names changes the name of the peer at most. -/
lemma peerConnectionRequest_absent (env : Env) (notify : Notify) (hidle : s.peerState p = .idle)
    (hnames : ¬req.NamesPresent) :
    ∃ f : Peer → Peer, (∀ q, (f q).id = q.id) ∧ (∀ q, (f q).state = q.state) ∧
      peerConnectionRequest env notify p req s =
        (true, (s.modifyPeer p f).crash .absentString) := by
  unfold peerConnectionRequest
  rw [if_neg (not_not.mpr hidle)]
  cases hclient : req.client with
  | none =>
    refine ⟨id, fun _ => rfl, fun _ => rfl, ?_⟩
    simp [Server.modifyPeer]
  | some c =>
    have hcheck : checkConreq req s.bus.api = none := by
      rw [← Option.not_isSome_iff_eq_none, checkConreq_isSome]
      exact fun hbus => hnames ⟨by simp [hclient], hbus⟩
    have hapi : (s.modifyPeer p fun q => { q with name := some c }).bus.api = s.bus.api := rfl
    refine ⟨fun q => { q with name := some c }, fun _ => rfl, fun _ => rfl, ?_⟩
    simp only [Option.isNone_some, Bool.false_eq_true, if_false, hapi, hcheck]

/-- Sending the answer either fails, or records it. -/
lemma peerSendConnectionResponse_cases (status : ConrespStatus) (t : Server) :
    ∃ n, (¬env.Reliable ∧ peerSendConnectionResponse env p status t =
      (false, { t with ticks := n })) ∨
      peerSendConnectionResponse env p status t =
        (true, { t with ticks := n }.log (.sent p (t.peerState p) (reply status t))) := by
  unfold peerSendConnectionResponse getBuffer ioWrite
  cases hbuf : env.buffer t.ticks .conresp with
  | false => exact ⟨_, .inl ⟨fun h => by simp [h.buffer] at hbuf, rfl⟩⟩
  | true =>
    cases hwrite : env.write (t.ticks + 1) p .conresp with
    | false =>
      refine ⟨t.ticks + 2, .inl ⟨fun h => by simp [h.write] at hwrite, ?_⟩⟩
      simp [PacketInfo.type, hwrite]
    | true =>
      refine ⟨t.ticks + 2, .inr ?_⟩
      simp only [PacketInfo.type, hwrite, if_true]
      rfl

end Answer

section Step

variable {user : User} {env : Env} {depth p : ℕ} {req : Conreq} {s s' : Server}

lemma answering_calm : Calm (some p) s (answering (callback user env depth) p req s) := by
  unfold answering
  simp only
  split
  · exact ((Calm.named s p _).trans (.setState _ p (by decide) fun _ => rfl)).trans
      (callback_calm user env depth _ p _)
  · exact .named s p _

lemma peerDestroy_peerState (notify : Notify) :
    (peerDestroy notify p s).peerState p = .disconnected := by
  unfold peerDestroy
  exact Server.peerState_filter.trans (if_pos rfl)

lemma afterAnswer_calm (r : Bool × Server) :
    Calm (some p) r.2 (afterAnswer (callback user env depth) p req s r).2 ∧
      (afterAnswer (callback user env depth) p req s r).2.peerState p ≠ .idle := by
  rcases r with ⟨_ | _, t⟩
  · refine ⟨peerDestroy_calm user env depth p t, ?_⟩
    rw [afterAnswer, peerDestroy_peerState]
    decide
  · simp only [afterAnswer]
    split
    · have hcalm := callback_calm (c := some p) user env depth .connected p
        { t.setState p .connected with nPeersConnected := t.nPeersConnected + 1 }
      refine ⟨((Calm.setState t p (by decide) fun _ => rfl).trans (.counted _ _)).trans hcalm,
        fun hidle => ?_⟩
      exact Server.peerState_setState_ne_idle (s := t) (by decide) (hcalm.idle p hidle)
    · exact ⟨.setState t p (by decide) fun _ => rfl, Server.peerState_setState_ne_idle (by decide)⟩

/-- The end of a round of the loop of `obus_peer_io_read_event`. -/
lemma readRound_calm (again : Bool) (t : Server) :
    Calm c t (if again = true ∧ (t.peer? p).isNone = true then t.crash .freedPeer else t) := by
  split
  · exact .crash t (by decide)
  · exact .refl t

/-- A request of a peer that is not idle is ignored. -/
lemma serverStep_conreq_ignored
    (h : serverStep user depth s (.packet p (.conreq req), env) = some s')
    (hidle : s.peerState p ≠ .idle) : s' = s := by
  obtain ⟨-, hpeer, rfl⟩ := serverStep_packet h
  simp only [peerPacket, peerConnectionRequest, if_pos hidle]
  rw [if_neg fun hc => Option.isSome_iff_ne_none.mp hpeer (Option.isNone_iff_eq_none.mp hc.2)]

/-- A request of an idle peer without its names makes the server read absent memory. -/
lemma serverStep_conreq_absent
    (h : serverStep user depth s (.packet p (.conreq req), env) = some s')
    (hidle : s.peerState p = .idle) (hnames : ¬req.NamesPresent) :
    s'.fault = some .absentString := by
  obtain ⟨-, hpeer, rfl⟩ := serverStep_packet h
  obtain ⟨f, hid, -, hreq⟩ :=
    peerConnectionRequest_absent env (callback user env depth) hidle hnames
  have hpeer' : (((s.modifyPeer p f).crash .absentString).peer? p).isSome = true := by
    change ((s.modifyPeer p f).peer? p).isSome = true
    rw [Server.peer?_modifyPeer hid, Option.isSome_map]
    exact hpeer
  simp only [peerPacket, hreq]
  rw [if_neg fun hc => Option.isSome_iff_ne_none.mp hpeer' (Option.isNone_iff_eq_none.mp hc.2)]
  rfl

/-- A request of an idle peer that has its names is answered, unless a buffer or a write fails. -/
lemma serverStep_conreq (h : serverStep user depth s (.packet p (.conreq req), env) = some s')
    (hidle : s.peerState p = .idle) (hnames : req.NamesPresent) :
    ∃ u, (¬env.Reliable ∧ u = answering (callback user env depth) p req s ∨
        u = (answering (callback user env depth) p req s).log
          (.sent p ((answering (callback user env depth) p req s).peerState p)
            (reply (answer (callback user env depth) p req s)
              (answering (callback user env depth) p req s)))) ∧
      Calm (some p) u s' ∧ s'.peerState p ≠ .idle := by
  obtain ⟨-, hpeer, rfl⟩ := serverStep_packet h
  simp only [peerPacket, peerConnectionRequest_eq hidle hnames]
  set t := answering (callback user env depth) p req s
  -- whatever sending gives, the rest of the round answers nobody
  have hrest : ∀ r : Bool × Server,
      let after := afterAnswer (callback user env depth) p req s r
      let last := if after.1 = true ∧ (after.2.peer? p).isNone = true then after.2.crash .freedPeer
        else after.2
      Calm (some p) r.2 last ∧ last.peerState p ≠ .idle := by
    intro r after last
    obtain ⟨hcalm, hstate⟩ : Calm (some p) r.2 after.2 ∧ after.2.peerState p ≠ .idle :=
      afterAnswer_calm r
    have hround : Calm (some p) after.2 last := readRound_calm _ _
    exact ⟨hcalm.trans hround, fun hc => hstate (hround.idle p hc)⟩
  obtain ⟨n, ⟨hrel, hsend⟩ | hsend⟩ :=
    peerSendConnectionResponse_cases (p := p) (answer (callback user env depth) p req s) t
  · rw [hsend]
    obtain ⟨hcalm, hstate⟩ := hrest (false, { t with ticks := n })
    exact ⟨t, .inl ⟨hrel, rfl⟩, (Calm.ticks t n).trans hcalm, hstate⟩
  · rw [hsend]
    obtain ⟨hcalm, hstate⟩ := hrest (true, _)
    exact ⟨_, .inr rfl, (Calm.ticks _ n).trans hcalm, hstate⟩

/-- A step that neither brings a peer nor a connection request answers nobody. -/
lemma serverStep_calm {a : ServerOp × Env} (h : serverStep user depth s a = some s')
    (haccept : a.1 ≠ .accept) (hreq : ∀ p, a.1.isRequest p = false) : Calm none s s' := by
  obtain ⟨op, env⟩ := a
  cases op with
  | accept => exact absurd rfl haccept
  | packet p info =>
    obtain ⟨-, hpeer, rfl⟩ := serverStep_packet h
    cases info with
    | conreq req => simp [ServerOp.isRequest] at hreq
    | call call =>
      exact (peerCallRequest_calm user env depth p call s).trans (readRound_calm true _)
    | _ => exact readRound_calm true s
  | closed p =>
    obtain ⟨-, rfl⟩ := serverStep_closed h
    exact peerDestroy_calm user env depth p s
  | api a =>
    obtain rfl := serverStep_api h
    exact (runApi_micros (callback_micros user env depth) a s).calm

end Step

/-! ## Runs -/

/-- The names that the server reads of the first request of a peer are there. -/
def NamesPresent (s : Server) : ServerOp × Env → Prop
  | (.packet p (.conreq req), _) => s.peerState p = .idle → req.NamesPresent
  | _ => True

/-- The handshakes of a server after a run. -/
structure Handshaken (api : BusDesc) (past : List (ServerOp × Env)) (s : Server) : Prop where
  api : s.bus.api = api
  fault : s.fault ≠ some .absentString
  ids : ∀ p ∈ s.peers.map Peer.id, p < s.nextPeer
  /-- A peer that has sent a request is not idle any more. -/
  done : ∀ p, requested p past = true → p < s.nextPeer ∧ s.peerState p ≠ .idle
  /-- A peer that is there and not idle has sent a request. -/
  started : ∀ p, s.peer? p ≠ none → s.peerState p ≠ .idle → requested p past = true
  atMost : ∀ p, replies p s.trace ≤ (requested p past).toNat
  replies : (∀ a ∈ past, a.2.Reliable) → ∀ p, replies p s.trace = (requested p past).toNat

lemma requested_append (p : ℕ) (past : List (ServerOp × Env)) (a : ServerOp × Env) :
    requested p (past ++ [a]) = (requested p past || a.1.isRequest p) := by
  simp [requested]

namespace Handshaken

variable {api : BusDesc} {past : List (ServerOp × Env)} {s s' : Server} {a : ServerOp × Env}

lemma new (api : BusDesc) : Handshaken api [] (serverNew api) where
  api := rfl
  fault := nofun
  ids := nofun
  done := nofun
  started _ hp := absurd rfl hp
  atMost _ := le_rfl
  replies _ _ := rfl

lemma peer?_of_calm {c : Option ℕ} (hcalm : Calm c s s') {p : ℕ} (hp : s'.peer? p ≠ none) :
    s.peer? p ≠ none := by
  rw [ne_eq, Server.peer?_eq_none_iff, not_not] at hp ⊢
  exact hcalm.ids.subset hp

/-- A step that answers nobody keeps the handshakes. -/
lemma calm (h : Handshaken api past s) (hcalm : Calm none s s')
    (hrequested : ∀ p, requested p (past ++ [a]) = requested p past) :
    Handshaken api (past ++ [a]) s' := by
  refine ⟨hcalm.api.trans h.api, hcalm.fault h.fault, fun p hp => ?_, fun p hp => ?_,
    fun p hp hstate => ?_,
    fun p => ?_, fun hrel p => ?_⟩
  · rw [hcalm.nextPeer]
    exact h.ids p (hcalm.ids.subset hp)
  · rw [hrequested] at hp
    rw [hcalm.nextPeer]
    exact ⟨(h.done p hp).1, fun hidle => (h.done p hp).2 (hcalm.idle p hidle)⟩
  · rw [hrequested]
    refine h.started p (peer?_of_calm hcalm hp) fun hidle => ?_
    rcases hcalm.stays p nofun hidle with hidle' | hgone
    · exact hstate hidle'
    · exact hp hgone
  · rw [hcalm.replies, hrequested]
    exact h.atMost p
  · rw [hcalm.replies, hrequested]
    exact h.replies (fun b hb => hrel b (List.mem_append_left _ hb)) p

/-- A new peer is idle, and the others are as they were. -/
lemma accept (h : Handshaken api past s) (ha : a.1 = .accept)
    (hs' : s' =
      { s with peers := s.peers ++ [⟨s.nextPeer, .idle, none⟩], nextPeer := s.nextPeer + 1 }) :
    Handshaken api (past ++ [a]) s' := by
  subst hs'
  set s' : Server :=
    { s with peers := s.peers ++ [⟨s.nextPeer, .idle, none⟩], nextPeer := s.nextPeer + 1 }
  have hrequested : ∀ p, requested p (past ++ [a]) = requested p past := fun p => by
    rw [requested_append, ha]
    exact Bool.or_false _
  have hold : ∀ p, p ≠ s.nextPeer → s'.peer? p = s.peer? p := by
    intro p hp
    simp [s', Server.peer?, List.find?_append, Ne.symm hp]
  have hnew : s'.peerState s.nextPeer = .idle := by
    have hnone : s.peer? s.nextPeer = none :=
      Server.peer?_eq_none_iff.mpr fun hmem => lt_irrefl _ (h.ids _ hmem)
    rw [Server.peer?] at hnone
    simp [s', Server.peerState, Server.peer?, List.find?_append, hnone]
  refine ⟨h.api, h.fault, fun p hp => ?_, fun p hp => ?_, fun p hp hstate => ?_, fun p => ?_,
    fun hrel p => ?_⟩
  · rw [List.map_append, List.mem_append, List.map_singleton, List.mem_singleton] at hp
    rcases hp with hp | rfl
    · exact Nat.lt_succ_of_lt (h.ids p hp)
    · exact Nat.lt_succ_self _
  · rw [hrequested] at hp
    obtain ⟨hlt, hstate⟩ := h.done p hp
    refine ⟨Nat.lt_succ_of_lt hlt, ?_⟩
    rwa [Server.peerState, hold p hlt.ne]
  · by_cases hpn : p = s.nextPeer
    · exact absurd (hpn ▸ hnew) hstate
    · rw [hrequested]
      rw [Server.peerState, hold p hpn] at hstate
      exact h.started p (hold p hpn ▸ hp) hstate
  · rw [hrequested]
    exact h.atMost p
  · rw [hrequested]
    exact h.replies (fun b hb => hrel b (List.mem_append_left _ hb)) p

/-- The first request of a peer is answered once. -/
lemma request (h : Handshaken api past s) {user : User} {env : Env} {depth p : ℕ} {req : Conreq}
    (hstep : serverStep user depth s (.packet p (.conreq req), env) = some s')
    (hidle : s.peerState p = .idle) (hnames : req.NamesPresent) :
    Handshaken api (past ++ [(.packet p (.conreq req), env)]) s' := by
  have hfirst : requested p past = false := by
    rw [Bool.eq_false_iff]
    exact fun hp => (h.done p hp).2 hidle
  have hother : ∀ q, q ≠ p → requested q (past ++ [(.packet p (.conreq req), env)]) =
      requested q past := by
    intro q hq
    rw [requested_append]
    simp [ServerOp.isRequest, Ne.symm hq]
  have hself : requested p (past ++ [(.packet p (.conreq req), env)]) = true := by
    rw [requested_append]
    simp [ServerOp.isRequest]
  obtain ⟨-, hpeer, -⟩ := serverStep_packet hstep
  have hasked : Calm (some p) s (answering (callback user env depth) p req s) := answering_calm
  obtain ⟨u, hu, hcalm, hstate⟩ := serverStep_conreq hstep hidle hnames
  set t := answering (callback user env depth) p req s
  -- the answer itself changes the record only
  have hsent : u.bus = t.bus ∧ u.nextPeer = t.nextPeer ∧ u.peers = t.peers ∧ u.fault = t.fault := by
    rcases hu with ⟨-, rfl⟩ | rfl <;> exact ⟨rfl, rfl, rfl, rfl⟩
  obtain ⟨hbus, hnext, hpeers, hfault⟩ := hsent
  have hpeerState : ∀ q, u.peerState q = t.peerState q := fun q => by
    simp only [Server.peerState, Server.peer?, hpeers]
  have hids : ∀ q ∈ s'.peers.map Peer.id, q ∈ s.peers.map Peer.id := fun q hq =>
    hasked.ids.subset (hpeers ▸ hcalm.ids.subset hq)
  have hnextPeer : s'.nextPeer = s.nextPeer := (hcalm.nextPeer.trans hnext).trans hasked.nextPeer
  -- the answer is one more response, and the peer has then sent a request
  have hreplies : ∀ q, Obus.replies q (t.log (.sent p (t.peerState p)
      (reply (answer (callback user env depth) p req s) t))).trace + (requested q past).toNat =
        Obus.replies q s.trace + (requested q
          (past ++ [(.packet p (.conreq req), env)])).toNat := by
    intro q
    by_cases hqp : q = p
    · subst hqp
      rw [hself, hfirst, Server.log, replies_append, hasked.replies]
      simp [Obus.replies, reply, Action.isReply]
    · rw [hother q hqp, replies_log_of_not q (by simp [reply, Action.isReply, Ne.symm hqp]),
        hasked.replies]
  have hwas : ∀ q, s'.peerState q = .idle → s.peerState q = .idle := fun q hq =>
    hasked.idle q (hpeerState q ▸ hcalm.idle q hq)
  refine ⟨?_, ?_, fun q hq => ?_, fun q hq => ?_, fun q hq hq' => ?_, fun q => ?_,
    fun hrel q => ?_⟩
  · rw [hcalm.api, hbus, hasked.api, h.api]
  · exact hcalm.fault (hfault ▸ hasked.fault h.fault)
  · exact hnextPeer ▸ h.ids q (hids q hq)
  · rw [hnextPeer]
    by_cases hqp : q = p
    · subst hqp
      refine ⟨h.ids q ?_, hstate⟩
      rwa [← not_not (a := q ∈ _), ← Server.peer?_eq_none_iff, ← ne_eq, ← Option.isSome_iff_ne_none]
    · rw [hother q hqp] at hq
      exact ⟨(h.done q hq).1, fun hc => (h.done q hq).2 (hwas q hc)⟩
  · by_cases hqp : q = p
    · exact hqp ▸ hself
    · rw [hother q hqp]
      have hc : some p ≠ some q := fun hc => hqp (Option.some.inj hc).symm
      have hmem : q ∈ s'.peers.map Peer.id := by
        rwa [ne_eq, Server.peer?_eq_none_iff, not_not] at hq
      refine h.started q ?_ fun hq'' => ?_
      · rw [ne_eq, Server.peer?_eq_none_iff, not_not]
        exact hids q hmem
      · rcases hasked.stays q hc hq'' with hidle' | hgone
        · rcases hcalm.stays q hc (hpeerState q ▸ hidle') with hidle'' | hgone
          · exact hq' hidle''
          · exact hq hgone
        · rw [Server.peer?_eq_none_iff] at hgone
          exact hgone (hpeers ▸ hcalm.ids.subset hmem)
  · have hle := h.atMost q
    rcases hu with ⟨-, rfl⟩ | rfl
    · rw [hcalm.replies, hasked.replies, requested_append]
      exact hle.trans (Bool.toNat_le_toNat (Bool.le_iff_imp.mpr fun hr => by rw [hr, Bool.true_or]))
    · have hone := hreplies q
      rw [hcalm.replies]
      omega
  · have henv : env.Reliable := hrel _ (List.mem_append_right _ List.mem_cons_self)
    have hpast := h.replies (fun b hb => hrel b (List.mem_append_left _ hb)) q
    rcases hu with ⟨hn, -⟩ | rfl
    · exact absurd henv hn
    · have hone := hreplies q
      rw [hcalm.replies]
      omega

/-- Every step without absent names keeps the handshakes. -/
lemma step {user : User} {depth : ℕ} (h : Handshaken api past s) (hnames : NamesPresent s a)
    (hstep : serverStep user depth s a = some s') : Handshaken api (past ++ [a]) s' := by
  obtain ⟨op, env⟩ := a
  cases hreq : op with
  | accept =>
    subst hreq
    exact h.accept rfl (serverStep_accept hstep)
  | packet p info =>
    subst hreq
    cases info with
    | conreq req =>
      by_cases hidle : s.peerState p = .idle
      · exact h.request hstep hidle (hnames hidle)
      · obtain ⟨-, hpeer, -⟩ := serverStep_packet hstep
        rw [serverStep_conreq_ignored hstep hidle]
        refine h.calm (.refl s) fun q => ?_
        rw [requested_append]
        by_cases hq : p = q
        · subst hq
          rw [h.started p (Option.isSome_iff_ne_none.mp hpeer) hidle, Bool.true_or]
        · simp [ServerOp.isRequest, hq]
    | _ =>
      exact h.calm (serverStep_calm hstep nofun fun _ => rfl) fun q => by
        simp [requested_append, ServerOp.isRequest]
  | closed p =>
    subst hreq
    exact h.calm (serverStep_calm hstep nofun fun _ => rfl) fun q => by
      simp [requested_append, ServerOp.isRequest]
  | api a =>
    subst hreq
    exact h.calm (serverStep_calm hstep nofun fun _ => rfl) fun q => by
      simp [requested_append, ServerOp.isRequest]

end Handshaken

/-- The status that is sent accepts exactly a matching request of a peer that the user did not
refuse. -/
lemma answer_accepted {notify : Notify} {p : ℕ} {req : Conreq} {s : Server} :
    answer notify p req s = .accepted ↔
      req.Matches s.bus.api ∧ (answering notify p req s).peerState p ≠ .refused := by
  rw [answer, ← checkConreq_accepted]
  split
  · next h => exact iff_of_true rfl h
  · next h => exact iff_of_false nofun h

lemma answer_cases (notify : Notify) (p : ℕ) (req : Conreq) (s : Server) :
    answer notify p req s = .accepted ∨ answer notify p req s = .refused := by
  rw [answer]
  split
  · exact .inl rfl
  · exact .inr rfl

/-- In every run in which the first request of each peer has its names, no absent string is read,
and if all buffers and writes succeed every peer gets one connection response if it has sent a
request and none otherwise.  In the states of such a run, a request that comes next is ignored
unless the peer is idle; the request of an idle peer reads absent memory exactly if it lacks its
names, and is otherwise answered, in the state after the user was asked, by the one response that
accepts it if and only if it matches the bus and was not refused by the user, with exactly the
registered objects. -/
theorem connection_handshake (user : User) (depth : ℕ) (api : BusDesc) (ops : List (ServerOp × Env))
    (s : Server) (hnames : MeetsAll (serverStep user depth) NamesPresent ops (serverNew api))
    (hrun : runs (serverStep user depth) ops (serverNew api) = some s) :
    s.fault ≠ some .absentString ∧
      (∀ p, replies p s.trace ≤ (requested p ops).toNat) ∧
      ((∀ a ∈ ops, a.2.Reliable) → ∀ p, replies p s.trace = (requested p ops).toNat) ∧
      ∀ p req env s', serverStep user depth s (.packet p (.conreq req), env) = some s' →
        (s'.fault = some .absentString ↔ ¬NamesPresent s (.packet p (.conreq req), env)) ∧
        (s.peerState p ≠ .idle → s' = s) ∧
        (s.peerState p = .idle → req.NamesPresent → env.Reliable →
          let t := answering (callback user env depth) p req s
          ∃ status later,
            s'.trace = t.trace ++
              .sent p (t.peerState p) (.conresp status
                (if status = .accepted then t.bus.registered else [])) :: later ∧
            s.trace <+: t.trace ∧ replies p s.trace = 0 ∧ replies p t.trace = 0 ∧
            replies p later = 0 ∧
            (status = .accepted ∨ status = .refused) ∧
            (status = .accepted ↔ req.version = protocolVersion ∧ req.bus = some api.name ∧
              req.crc = api.crc ∧ (∃ c, req.client = some c ∧ c.val ≠ []) ∧
                t.peerState p ≠ .refused)) := by
  have hinv := runs_history (I := Handshaken api) (fun past s a s' h hC hstep => h.step hC hstep) []
    (Handshaken.new api) hnames hrun
  rw [List.nil_append] at hinv
  refine ⟨hinv.fault, hinv.atMost, hinv.replies, fun p req env s' hstep =>
    ⟨?_, ?_, fun hidle hreq henv => ?_⟩⟩
  · constructor
    · intro hfault hC
      exact (hinv.step hC hstep).fault hfault
    · intro hC
      obtain ⟨hidle, hreq⟩ := Classical.not_imp.mp hC
      exact serverStep_conreq_absent hstep hidle hreq
  · exact serverStep_conreq_ignored hstep
  · have hasked : Calm (some p) s (answering (callback user env depth) p req s) := answering_calm
    have hnone : replies p s.trace = 0 := by
      have hle := hinv.atMost p
      rwa [Bool.eq_false_iff.mpr fun hr => (hinv.done p hr).2 hidle, Bool.toNat_false,
        Nat.le_zero] at hle
    obtain ⟨u, ⟨hn, -⟩ | rfl, hcalm, -⟩ := serverStep_conreq hstep hidle hreq
    · exact absurd henv hn
    · intro t
      obtain ⟨later, hlater⟩ := hcalm.trace
      refine ⟨answer (callback user env depth) p req s, later, ?_, hasked.trace, hnone, ?_, ?_,
        answer_cases _ p req s, ?_⟩
      · rw [← hlater, Server.log, List.append_assoc]
        rfl
      · rw [hasked.replies, hnone]
      · have hsame := hcalm.replies p
        rw [← hlater, replies_append] at hsame
        omega
      · rw [answer_accepted, hinv.api]
        constructor
        · rintro ⟨⟨hversion, hbus, hcrc, hclient⟩, hstate⟩
          exact ⟨hversion, hbus, hcrc, hclient, hstate⟩
        · rintro ⟨hversion, hbus, hcrc, hclient, hstate⟩
          exact ⟨⟨hversion, hbus, hcrc, hclient⟩, hstate⟩

/-- An environment in which everything succeeds. -/
def fairEnv : Env := ⟨fun _ _ => true, fun _ _ _ => true⟩

/-- A user who never calls the server. -/
def silentUser : User := ⟨fun _ _ _ => [], fun _ _ _ => none⟩

lemma fairEnv_reliable : fairEnv.Reliable := ⟨fun _ _ => rfl, fun _ _ _ => rfl⟩

/-- The request of a client for the sample bus. -/
def sampleRequest : Conreq :=
  ⟨protocolVersion, some sampleApi.name, sampleApi.crc, some (CString.ofBytes [99])⟩

theorem connection_handshake_sampleRequest :
    ∃ s, runs (serverStep silentUser 0)
      [(.accept, fairEnv), (.packet 0 (.conreq sampleRequest), fairEnv)]
        (serverNew sampleApi) = some s ∧
      s.fault ≠ some .absentString ∧ replies 0 s.trace = 1 ∧ s.peerState 0 = .connected := by
  set ops : List (ServerOp × Env) :=
    [(.accept, fairEnv), (.packet 0 (.conreq sampleRequest), fairEnv)]
  obtain ⟨s, hrun⟩ : ∃ s, runs (serverStep silentUser 0) ops (serverNew sampleApi) =
    some s := ⟨_, rfl⟩
  have hnames : MeetsAll (serverStep silentUser 0) NamesPresent ops (serverNew sampleApi) := by
    refine meetsAll_of_forall (fun a ha s => ?_) _
    rcases List.mem_cons.mp ha with rfl | ha
    · trivial
    · rw [List.mem_singleton.mp ha]
      exact fun _ => by decide
  obtain ⟨hfault, -, hreplies, -⟩ := connection_handshake silentUser 0 sampleApi ops s hnames hrun
  refine ⟨s, hrun, hfault, hreplies (fun a ha => ?_) 0, ?_⟩
  · rcases List.mem_cons.mp ha with rfl | ha
    · exact fairEnv_reliable
    · rw [List.mem_singleton.mp ha]
      exact fairEnv_reliable
  · cases hrun
    rfl

/-- The same request without the name of the client. -/
def namelessRequest : Conreq := { sampleRequest with client := none }

/-- The decoder gives the request without a name, and the server reads the absent name. -/
theorem absent_client_read :
    (∃ d', packetDecoderRead zeroMem (serverNew sampleApi).bus 1
        ⟨⟨0, 0, 0⟩, false, ⟨(PacketInfo.conreq namelessRequest).bytes, 26, 0⟩⟩ [] =
          some (.ok (.conreq namelessRequest), d', [])) ∧
      (runs (serverStep silentUser 0)
        [(.accept, fairEnv), (.packet 0 (.conreq namelessRequest), fairEnv)]
        (serverNew sampleApi)).map Server.fault = some (some .absentString) := by
  exact ⟨⟨_, rfl⟩, rfl⟩

end Obus
