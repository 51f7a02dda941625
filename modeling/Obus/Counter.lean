import Obus.Admission
import Obus.Broadcast

/-!
# The number of connected peers

The server counts its connected peers in a field of its own, and the operations that broadcast do
nothing if it is zero.  `serverStepReads` and `serverDestroyReads` list the uses of the field in a
step, those inside of callbacks included: the questions whether it is zero, and the two places that
change it, right after the state of the peer was changed.  They are the uses that the step makes, in
their order (`serverStepReads_replays`).

Whatever the user does in callbacks, and whichever writes fail there, the field is right each time
it is asked for (`connected_peers_counted`).
-/

namespace Obus

/-! ## Where the number is used -/

/-- A use of the number of connected peers. -/
inductive CounterUse where
  /-- An operation asks whether there are connected peers. -/
  | check
  /-- A peer was made connected. -/
  | increment
  /-- A connected peer was made disconnected. -/
  | decrement

/-- A use of the number, and the state in which it is used. -/
abbrev CounterRead := CounterUse × Server

/-- The uses in a notification of the user. -/
abbrev NotifyReads := PeerEvent → ℕ → Server → List CounterRead

/-- The uses in `obus_peer_destroy`. -/
def peerDestroyReads (reads : NotifyReads) (p : ℕ) (s : Server) : List CounterRead :=
  if s.peerState p = .connected then
    (.decrement, s.setState p .disconnected) ::
      reads .disconnected p { s.setState p .disconnected with
        nPeersConnected := s.nPeersConnected - 1 }
  else []

/-- The uses in the body of the loop of `obus_server_send_peers`. -/
def sendPeerReads (env : Env) (reads : NotifyReads) (info : PacketInfo) (p : ℕ) (s : Server) :
    List CounterRead :=
  if s.peerState p ≠ .connected then []
  else
    match ioWrite env p info s with
    | (true, _) => []
    | (false, s') => peerDestroyReads reads p s'

/-- The uses in a walk over the peers. -/
def walkReads (body : ℕ → Server → Server) (reads : ℕ → Server → List CounterRead) :
    ℕ → Option ℕ → Server → List CounterRead
  | 0, _, _ => []
  | _ + 1, none, _ => []
  | n + 1, some p, s =>
    match nextEntry p s.peers with
    | none => []
    | some next => reads p s ++ walkReads body reads n next (body p s)

/-- The uses in a broadcast. -/
def broadcastReads (env : Env) (notify : Notify) (reads : NotifyReads) (info : PacketInfo)
    (s : Server) : List CounterRead :=
  (.check, s) ::
    if s.nPeersConnected = 0 then []
    else
      match getBuffer env info.type s with
      | (false, _) => []
      | (true, s') =>
        walkReads (sendPeer env notify info) (sendPeerReads env reads info) s'.peers.length
          (s'.peers.head?.map Peer.id) { s' with walking := s'.walking + 1 }

/-- The packet that a call of the interface broadcasts, and the state in which it does. -/
def Api.news : Api → Server → Option (PacketInfo × Server)
  | .registerObject handle, s =>
    match s.bus.object? handle with
    | none => none
    | some obj =>
      if obj.isRegistered then none
      else some (.add obj, { s with bus := busRegisterObject handle s.bus }.log
        (.committed (.add obj)))
  | .unregisterObject handle, s =>
    match s.bus.object? handle with
    | none => none
    | some obj =>
      if !obj.isRegistered then none
      else
        some (.remove (some obj.ref),
          { s with bus := busUnregisterObject handle s.bus }.log
            (.committed (.remove (some obj.ref))))
  | .sendEvent v, s =>
    match v.event.obj.object? s.bus with
    | none => none
    | some obj => if !obj.isRegistered then none else some (.event v.sanitize.event, s)
  | .sendBusEvent e, s =>
    match serverCheckBusEvent e s.bus with
    | (.error _, _) => none
    | (.ok (), e') =>
      some (.busEvent (e'.packet s.bus),
        { s with bus := e'.addObjs.foldl (fun bus h => busRegisterObject h bus) s.bus })
  | .newObject _ _ _, _ | .destroyObject _, _ | .sendAck _ _, _ | .refuseConnection _, _ => none

/-- The uses in a call of the interface. -/
def runApiReads (env : Env) (notify : Notify) (reads : NotifyReads) (a : Api) (s : Server) :
    List CounterRead :=
  match a.news s with
  | none => []
  | some (info, s') => broadcastReads env notify reads info s'

/-- The uses in several calls of the interface. -/
def runApisReads (env : Env) (notify : Notify) (reads : NotifyReads) :
    List Api → Server → List CounterRead
  | [], _ => []
  | a :: calls, s =>
    runApiReads env notify reads a s ++ runApisReads env notify reads calls (runApi env notify a s)

/-- The uses in `obus_peer_notify_user`. -/
def callbackReads (user : User) (env : Env) : ℕ → NotifyReads
  | 0, _, _, _ => []
  | depth + 1, event, p, s =>
    runApisReads env (callback user env depth) (callbackReads user env depth)
      (user.onPeer event p s) (s.log (.notified event p))

/-- The uses in the invocation of the handler of a method. -/
def invokeReads (user : User) (env : Env) (depth : ℕ) (p : ℕ) (call : Call) (s : Server) :
    List CounterRead :=
  match user.onCall p call s with
  | none => []
  | some calls =>
    runApisReads env (callback user env depth) (callbackReads user env depth) calls
      (s.log (.invoked p (s.peerState p) call))

/-- The uses in `obus_peer_call_request`. -/
def peerCallRequestReads (user : User) (env : Env) (depth : ℕ) (p : ℕ) (call : Call) (s : Server) :
    List CounterRead :=
  match s.bus.object? call.obj.handle with
  | none => []
  | some obj =>
    if obj.isRegistered ∧ objectGetMethodState obj call.desc.uid = .enabled then
      invokeReads user env depth p call
        { s with call := some ⟨p, call.handle, true⟩, callStatus := .invalid }
    else []

/-- The uses in `obus_peer_connection_request`. -/
def peerConnectionRequestReads (env : Env) (notify : Notify) (reads : NotifyReads) (p : ℕ)
    (req : Conreq) (s : Server) : List CounterRead :=
  if s.peerState p ≠ .idle then []
  else if req.client.isNone then []
  else
    match checkConreq req s.bus.api with
    | none => []
    | some status =>
      (if status = .accepted then
          reads .connecting p ((s.modifyPeer p fun q => { q with name := req.client }).setState p
            .connecting)
        else []) ++
        match peerSendConnectionResponse env p (answer notify p req s)
          (answering notify p req s) with
        | (false, s') => peerDestroyReads reads p s'
        | (true, s') =>
          if answer notify p req s = .accepted then
            (.increment, s'.setState p .connected) ::
              reads .connected p { s'.setState p .connected with
                nPeersConnected := s'.nPeersConnected + 1 }
          else []

/-- The uses in a step of the server. -/
def serverStepReads (user : User) (depth : ℕ) (s : Server) : ServerOp × Env → List CounterRead
  | (.accept, _) => []
  | (.packet p (.conreq req), env) =>
    peerConnectionRequestReads env (callback user env depth) (callbackReads user env depth) p req s
  | (.packet p (.call call), env) => peerCallRequestReads user env depth p call s
  | (.packet _ _, _) => []
  | (.closed p, env) => peerDestroyReads (callbackReads user env depth) p s
  | (.api a, env) => runApiReads env (callback user env depth) (callbackReads user env depth) a s

/-- The uses in `obus_server_destroy`, which destroys the peers in a walk. -/
def serverDestroyReads (user : User) (env : Env) (depth : ℕ) (s : Server) : List CounterRead :=
  walkReads (peerDestroy (callback user env depth))
    (peerDestroyReads (callbackReads user env depth)) s.peers.length
    (s.peers.head?.map Peer.id) s

/-- The number is right when it is asked for, and then it is zero only without connected peers; it
is one too small where it is incremented, and one too large where it is decremented. -/
def CounterRead.Exact : CounterRead → Prop
  | (.check, s) =>
    s.nPeersConnected = s.peers.countP (fun q => q.state = .connected) ∧
      (s.nPeersConnected = 0 → ∀ p, s.peerState p ≠ .connected)
  | (.increment, s) => s.nPeersConnected + 1 = s.peers.countP fun q => q.state = .connected
  | (.decrement, s) => s.nPeersConnected = s.peers.countP (fun q => q.state = .connected) + 1

/-! ## The uses and the steps -/

/-- What a use makes of the number. -/
def CounterUse.apply : CounterUse → ℕ → ℕ
  | .check, n => n
  | .increment, n => n + 1
  | .decrement, n => n - 1

/-- The uses, one after the other, lead from one number to another, and each of them finds in its
state the number that those before it left there. -/
def Replays : List CounterRead → ℕ → ℕ → Prop
  | [], n, m => m = n
  | (use, t) :: rs, n, m => t.nPeersConnected = n ∧ Replays rs (use.apply n) m

section Replay

variable {user : User} {env : Env} {notify : Notify} {reads : NotifyReads} {depth p : ℕ}
  {s s' : Server}

lemma Replays.append {rs rs' : List CounterRead} {n m k : ℕ} (h : Replays rs n m)
    (h' : Replays rs' m k) : Replays (rs ++ rs') n k := by
  induction rs generalizing n with
  | nil =>
    obtain rfl : m = n := h
    exact h'
  | cons r rs ih => exact ⟨h.1, ih h.2⟩

/-- The uses in every notification replay what it does to the number. -/
def NotifyReads.Replay (reads : NotifyReads) (notify : Notify) : Prop :=
  ∀ event p s, Replays (reads event p s) s.nPeersConnected (notify event p s).nPeersConnected

lemma peerDestroyReads_replays (h : reads.Replay notify) (p : ℕ) (s : Server) :
    Replays (peerDestroyReads reads p s) s.nPeersConnected
      (peerDestroy notify p s).nPeersConnected := by
  unfold peerDestroyReads peerDestroy
  split
  · exact ⟨rfl, h .disconnected p _⟩
  · rfl

lemma sendPeerReads_replays (h : reads.Replay notify) (info : PacketInfo) (p : ℕ) (s : Server) :
    Replays (sendPeerReads env reads info p s) s.nPeersConnected
      (sendPeer env notify info p s).nPeersConnected := by
  unfold sendPeerReads sendPeer ioWrite
  split
  · rfl
  · cases env.write s.ticks p info.type with
    | true => rfl
    | false => exact peerDestroyReads_replays h p _

lemma walkReads_replays {body : ℕ → Server → Server} {bodyReads : ℕ → Server → List CounterRead}
    (h : ∀ p s, Replays (bodyReads p s) s.nPeersConnected (body p s).nPeersConnected)
    (n : ℕ) (cursor : Option ℕ) (s : Server) :
    Replays (walkReads body bodyReads n cursor s) s.nPeersConnected
      (walkPeers body n cursor s).nPeersConnected := by
  induction n generalizing cursor s with
  | zero => rfl
  | succ n ih =>
    cases cursor with
    | none => rfl
    | some p =>
      rw [walkReads, walkPeers]
      cases nextEntry p s.peers with
      | none => rfl
      | some next => exact (h p s).append (ih next (body p s))

lemma broadcastReads_replays (h : reads.Replay notify) (info : PacketInfo) (s : Server) :
    Replays (broadcastReads env notify reads info s) s.nPeersConnected
      (broadcast env notify info s).2.nPeersConnected := by
  refine ⟨rfl, ?_⟩
  unfold broadcast getBuffer
  split
  · rfl
  · cases env.buffer s.ticks info.type with
    | false => rfl
    | true => exact walkReads_replays (sendPeerReads_replays h info) _ _ _

lemma serverSendAck_nPeersConnected (handle : UInt16) (status : CallStatus) (s : Server) :
    (serverSendAck env handle status s).2.nPeersConnected = s.nPeersConnected := by
  rcases serverSendAck_cases env handle status s with ⟨-, heq⟩ | ⟨call, -, hcases⟩
  · rw [heq]
  · rcases hcases with ⟨-, heq⟩ | ⟨-, -, heq⟩ | ⟨-, -, -, heq⟩ | ⟨-, -, -, -, heq⟩ |
      ⟨-, -, -, -, heq⟩
    · rw [heq]; rfl
    · rw [heq]
    · rw [heq]
    · rw [heq]; rfl
    · rw [heq]
      unfold ioWrite
      split <;> rfl

/-- A call of the interface that broadcasts nothing leaves the number alone; after another one it is
as the broadcast leaves it. -/
lemma runApi_nPeersConnected (a : Api) (s : Server) :
    a.news s = none ∧ (runApi env notify a s).nPeersConnected = s.nPeersConnected ∨
      ∃ info t, a.news s = some (info, t) ∧ t.nPeersConnected = s.nPeersConnected ∧
        (runApi env notify a s).nPeersConnected =
          (broadcast env notify info t).2.nPeersConnected := by
  cases a with
  | newObject desc info draws =>
    refine .inl ⟨rfl, ?_⟩
    simp only [runApi, serverNewObject]
    split
    · rfl
    · split <;> rfl
  | registerObject handle =>
    simp only [Api.news, runApi, serverRegisterObject]
    cases s.bus.object? handle with
    | none => exact .inl ⟨rfl, rfl⟩
    | some obj =>
      simp only
      split
      · exact .inl ⟨rfl, rfl⟩
      · exact .inr ⟨_, _, rfl, rfl, rfl⟩
  | unregisterObject handle =>
    simp only [Api.news, runApi, serverUnregisterObject]
    cases s.bus.object? handle with
    | none => exact .inl ⟨rfl, rfl⟩
    | some obj =>
      simp only
      split
      · exact .inl ⟨rfl, rfl⟩
      · exact .inr ⟨_, _, rfl, rfl, rfl⟩
  | destroyObject handle =>
    refine .inl ⟨rfl, ?_⟩
    simp only [runApi]
    split <;> rfl
  | sendEvent v =>
    simp only [Api.news, runApi, serverSendEvent]
    cases v.event.obj.object? s.bus with
    | none => exact .inl ⟨rfl, rfl⟩
    | some obj =>
      simp only
      split
      · exact .inl ⟨rfl, rfl⟩
      · refine .inr ⟨_, _, rfl, rfl, ?_⟩
        split
        · next heq => rw [heq]
        · next heq =>
          rw [heq]
          rfl
  | sendBusEvent e =>
    simp only [Api.news, runApi, serverSendBusEvent]
    obtain ⟨checked, e'⟩ := serverCheckBusEvent e s.bus
    cases checked with
    | error err =>
      refine .inl ⟨rfl, ?_⟩
      cases err <;> rfl
    | ok =>
      refine .inr ⟨_, _, rfl, rfl, ?_⟩
      simp only
      split
      · next heq => rw [heq]
      · next heq =>
        rw [heq]
        rfl
  | sendAck handle status => exact .inl ⟨rfl, serverSendAck_nPeersConnected handle status s⟩
  | refuseConnection p =>
    refine .inl ⟨rfl, ?_⟩
    simp only [runApi, peerRefuseConnection]
    split <;> rfl

lemma runApiReads_replays (h : reads.Replay notify) (a : Api) (s : Server) :
    Replays (runApiReads env notify reads a s) s.nPeersConnected
      (runApi env notify a s).nPeersConnected := by
  unfold runApiReads
  obtain ⟨hnews, hrun⟩ | ⟨info, t, hnews, ht, hrun⟩ := @runApi_nPeersConnected env notify a s
  · rw [hnews, hrun]
    rfl
  · rw [hnews, hrun, ← ht]
    exact broadcastReads_replays h info t

lemma runApisReads_replays (h : reads.Replay notify) (calls : List Api) (s : Server) :
    Replays (runApisReads env notify reads calls s) s.nPeersConnected
      (calls.foldl (fun s a => runApi env notify a s) s).nPeersConnected := by
  induction calls generalizing s with
  | nil => rfl
  | cons a calls ih => exact (runApiReads_replays h a s).append (ih _)

lemma callbackReads_replay (user : User) (env : Env) (depth : ℕ) :
    (callbackReads user env depth).Replay (callback user env depth) := by
  induction depth with
  | zero => exact fun _ _ _ => rfl
  | succ depth ih =>
    exact fun event p s => runApisReads_replays ih (user.onPeer event p s)
      (s.log (.notified event p))

lemma invokeReads_replays (p : ℕ) (call : Call) (s : Server) :
    Replays (invokeReads user env depth p call s) s.nPeersConnected
      ((invoke user env depth p call s).getD s).nPeersConnected := by
  unfold invokeReads invoke
  cases user.onCall p call s with
  | none => rfl
  | some calls =>
    exact runApisReads_replays (callbackReads_replay user env depth) calls
      (s.log (.invoked p (s.peerState p) call))

lemma callEnd_nPeersConnected (handle : UInt16) (status : CallStatus) (s : Server) :
    (callEnd env handle status s).nPeersConnected = s.nPeersConnected := by
  unfold callEnd
  split
  · exact serverSendAck_nPeersConnected handle status s
  · rfl

lemma peerCallRequestReads_replays (p : ℕ) (call : Call) (s : Server) :
    Replays (peerCallRequestReads user env depth p call s) s.nPeersConnected
      (peerCallRequest env (invoke user env depth) p call s).nPeersConnected := by
  unfold peerCallRequestReads peerCallRequest
  change Replays _ _ (callEnd env call.handle _ _).nPeersConnected
  rw [callEnd_nPeersConnected]
  cases s.bus.object? call.obj.handle with
  | none => rfl
  | some obj =>
    cases hreg : obj.isRegistered with
    | false =>
      simp only [hreg, Bool.false_eq_true, false_and, if_false]
      rfl
    | true =>
      cases hstate : objectGetMethodState obj call.desc.uid with
      | enabled =>
        simp only [hreg, hstate, and_self, if_true]
        exact invokeReads_replays p call
          { s with call := some ⟨p, call.handle, true⟩, callStatus := .invalid }
      | _ =>
        simp only [hreg, hstate, reduceCtorEq, and_false, if_false]
        rfl

lemma peerConnectionRequestReads_replays (h : reads.Replay notify) (p : ℕ) (req : Conreq)
    (s : Server) : Replays (peerConnectionRequestReads env notify reads p req s) s.nPeersConnected
      (peerConnectionRequest env notify p req s).2.nPeersConnected := by
  unfold peerConnectionRequestReads
  split
  · next hidle =>
    rw [peerConnectionRequest, if_pos hidle]
    rfl
  · next hidle =>
    rw [not_not] at hidle
    have habsent : ¬req.NamesPresent →
        Replays [] s.nPeersConnected
          (peerConnectionRequest env notify p req s).2.nPeersConnected := by
      intro hnames
      obtain ⟨f, -, -, heq⟩ := peerConnectionRequest_absent env notify hidle hnames
      rw [heq]
      rfl
    split
    · next hclient => 
      exact habsent fun hnames =>
        Option.not_isSome_iff_eq_none.mpr (Option.isNone_iff_eq_none.mp hclient) hnames.1
    · next hclient =>
      split
      · next hcheck =>
        refine habsent fun hnames => ?_
        have hsome : (checkConreq req s.bus.api).isSome = true := checkConreq_isSome.mpr hnames.2
        rw [hcheck] at hsome
        cases hsome
      · next status hcheck =>
        have hnames : req.NamesPresent :=
          ⟨Option.isSome_iff_ne_none.mpr fun h => hclient (Option.isNone_iff_eq_none.mpr h),
            checkConreq_isSome.mp (by rw [hcheck]; rfl)⟩
        rw [peerConnectionRequest_eq hidle hnames]
        refine Replays.append (m := (answering notify p req s).nPeersConnected) ?_ ?_
        · unfold answering
          simp only
          have hapi : (s.modifyPeer p fun q => { q with name := req.client }).bus.api = s.bus.api :=
            rfl
          rw [hapi, hcheck]
          by_cases hacc : status = .accepted
          · rw [if_pos hacc, if_pos (by rw [hacc])]
            exact h .connecting p _
          · rw [if_neg hacc, if_neg fun h => hacc (Option.some.inj h)]
            rfl
        · obtain ⟨n, ⟨-, hsend⟩ | hsend⟩ :=
            @peerSendConnectionResponse_cases env p (answer notify p req s)
              (answering notify p req s)
          · rw [hsend]
            exact peerDestroyReads_replays h p _
          · rw [hsend, afterAnswer]
            simp only
            split
            · exact ⟨rfl, h .connected p _⟩
            · rfl

/-- The uses that are listed for a step are those that it makes: each finds the number as those
before it left it, and together they make of it what the step makes of it. -/
theorem serverStepReads_replays {a : ServerOp × Env} (hstep : serverStep user depth s a = some s') :
    Replays (serverStepReads user depth s a) s.nPeersConnected s'.nPeersConnected := by
  obtain ⟨op, env⟩ := a
  cases op with
  | accept =>
    obtain rfl := serverStep_accept hstep
    rfl
  | packet p info =>
    obtain ⟨-, -, rfl⟩ := serverStep_packet hstep
    have hround : ∀ (again : Bool) (t : Server),
        (if again = true ∧ (t.peer? p).isNone = true then t.crash .freedPeer
          else t).nPeersConnected = t.nPeersConnected := by
      intro again t
      split <;> rfl
    unfold peerPacket serverStepReads
    rw [hround]
    cases info with
    | conreq req =>
      exact peerConnectionRequestReads_replays (callbackReads_replay user env depth) p req s
    | call call => exact peerCallRequestReads_replays p call s
    | _ => rfl
  | closed p =>
    obtain ⟨-, rfl⟩ := serverStep_closed hstep
    exact peerDestroyReads_replays (callbackReads_replay user env depth) p s
  | api a =>
    obtain rfl := serverStep_api hstep
    exact runApiReads_replays (callbackReads_replay user env depth) a s

/-- So it is with the walk over the peers of a server that is destroyed. -/
theorem serverDestroyReads_replays (user : User) (env : Env) (depth : ℕ) (s : Server) :
    Replays (serverDestroyReads user env depth s) s.nPeersConnected
      (walkPeers (peerDestroy (callback user env depth)) s.peers.length (s.peers.head?.map Peer.id)
        s).nPeersConnected :=
  walkReads_replays (peerDestroyReads_replays (callbackReads_replay user env depth)) _ _ s

end Replay

/-! ## What keeps the number right -/

/-- The number of connected peers is right, and the numbers of the peers are different and were
given out. -/
structure Server.Census (s : Server) : Prop where
  counted : s.Counted
  fresh : ∀ q ∈ s.peers, q.id < s.nextPeer

namespace Server.Census

variable {env : Env} {s s' : Server} {p : ℕ}

lemma of_peers (h : s.Census) (hpeers : s'.peers = s.peers)
    (hcount : s'.nPeersConnected = s.nPeersConnected)
    (hnext : s'.nextPeer = s.nextPeer) : s'.Census :=
  ⟨⟨by rw [hcount, hpeers]; exact h.counted.count, by rw [hpeers]; exact h.counted.ids⟩,
    by rw [hpeers, hnext]; exact h.fresh⟩

/-- A peer that is not connected may get another state, except that it is made connected. -/
lemma setState (h : s.Census) {st : PeerState} (hp : s.peerState p ≠ .connected)
    (hst : st ≠ .connected) : (s.setState p st).Census := by
  refine ⟨⟨?_, by rw [setState_ids]; exact h.counted.ids⟩, fun q hq => ?_⟩
  · cases hpeer : s.peer? p with
    | none =>
      have hsame : (s.setState p st).peers = s.peers := by
        refine (List.map_congr_left fun q hq => if_neg fun hid => ?_).trans (List.map_id _)
        exact peer?_eq_none_iff.mp hpeer (List.mem_map.mpr ⟨q, hq, hid⟩)
      rw [hsame]
      exact h.counted.count
    | some peer =>
      have hcount := countP_setState h.counted.ids hpeer st
      rw [peerState_of_peer? hpeer] at hp
      rw [if_neg hp, if_neg hst, Nat.add_zero, Nat.add_zero] at hcount
      rw [hcount]
      exact h.counted.count
  · obtain ⟨q', hq', rfl⟩ := List.mem_map.mp hq
    have hid := h.fresh q' hq'
    split <;> exact hid

/-- The number of connected peers where a peer was made connected. -/
lemma setState_connected (h : s.Census) (hpeer : (s.peer? p).isSome = true)
    (hp : s.peerState p ≠ .connected) :
    s.nPeersConnected + 1 = (s.setState p .connected).peers.countP fun q =>
      q.state = .connected := by
  obtain ⟨peer, hpeer⟩ := Option.isSome_iff_exists.mp hpeer
  have hcount := countP_setState h.counted.ids hpeer .connected
  rw [peerState_of_peer? hpeer] at hp
  rw [if_neg hp, if_pos rfl, Nat.add_zero] at hcount
  rw [hcount, h.counted.count]

/-- The number of connected peers where one of them was made disconnected. -/
lemma setState_disconnected (h : s.Census) (hp : s.peerState p = .connected) :
    s.nPeersConnected = (s.setState p .disconnected).peers.countP
      (fun q => q.state = .connected) + 1 := by
  obtain ⟨peer, hpeer⟩ := Option.isSome_iff_exists.mp
    (peer?_isSome_of_ne_disconnected (s := s) (p := p) (by rw [hp]; decide))
  have hcount := countP_setState h.counted.ids hpeer .disconnected
  rw [peerState_of_peer? hpeer] at hp
  rw [if_pos hp, if_neg (by decide)] at hcount
  rw [hcount, h.counted.count, Nat.add_zero]

lemma connect (h : s.Census) (hpeer : (s.peer? p).isSome = true) (hp : s.peerState p ≠ .connected) :
    ({ s.setState p .connected with nPeersConnected := s.nPeersConnected + 1 }
      : Server).Census := by
  refine ⟨⟨h.setState_connected hpeer hp, ?_⟩, fun q hq => ?_⟩
  · exact (setState_ids (s := s)).symm ▸ h.counted.ids
  · obtain ⟨q', hq', rfl⟩ := List.mem_map.mp hq
    have hid := h.fresh q' hq'
    split <;> exact hid

lemma disconnect (h : s.Census) (hp : s.peerState p = .connected) :
    ({ s.setState p .disconnected with nPeersConnected := s.nPeersConnected - 1 }
      : Server).Census := by
  refine ⟨⟨?_, ?_⟩, fun q hq => ?_⟩
  · have hcount := h.setState_disconnected hp
    exact Nat.sub_eq_of_eq_add hcount
  · exact (setState_ids (s := s)).symm ▸ h.counted.ids
  · obtain ⟨q', hq', rfl⟩ := List.mem_map.mp hq
    have hid := h.fresh q' hq'
    split <;> exact hid

/-- A peer that is not connected can go. -/
lemma removed (h : s.Census) (hp : s.peerState p ≠ .connected) :
    ({ s with peers := s.peers.filter (·.id ≠ p) } : Server).Census := by
  refine ⟨⟨?_, h.counted.ids.sublist (List.filter_sublist.map _)⟩,
    fun q hq => h.fresh q (List.mem_filter.mp hq).1⟩
  change s.nPeersConnected = _
  cases hpeer : s.peer? p with
  | none =>
    have hsame : s.peers.filter (·.id ≠ p) = s.peers := by
      refine List.filter_eq_self.mpr fun q hq => decide_eq_true fun hid => ?_
      exact peer?_eq_none_iff.mp hpeer (List.mem_map.mpr ⟨q, hq, hid⟩)
    rw [h.counted.count, hsame]
  | some peer =>
    rw [peerState_of_peer? hpeer] at hp
    rw [h.counted.count, countP_connected h.counted.ids hpeer, if_neg hp, Nat.add_zero]

lemma micro (h : s.Census) (hm : Micro env s s') : s'.Census := by
  cases hm with
  | disconnected hstate hwrite => exact h.disconnect hstate
  | removed hstate => exact (h.removed (by rw [hstate]; decide)).of_peers rfl rfl rfl
  | refused hstate => exact h.setState (by rw [hstate]; decide) (by decide)
  | _ => exact h.of_peers rfl rfl rfl

lemma micros (h : s.Census) (hm : Micros env s s') : s'.Census :=
  hm.invariant (fun hm hs => hs.micro hm) h

end Server.Census

/-! ## Callbacks -/

section Reads

variable {env : Env} {notify : Notify} {reads : NotifyReads} {s : Server} {p : ℕ}

/-- The uses in a notification are right, whenever it is made. -/
def NotifyReads.Exact (reads : NotifyReads) : Prop :=
  ∀ event p s, s.Census → ∀ r ∈ reads event p s, r.Exact

lemma Server.Census.check (h : s.Census) : CounterRead.Exact (.check, s) :=
  ⟨h.counted.count, fun hzero p => h.counted.not_connected hzero p⟩

lemma peerDestroyReads_exact (hreads : reads.Exact) (h : s.Census) :
    ∀ r ∈ peerDestroyReads reads p s, r.Exact := by
  intro r hr
  unfold peerDestroyReads at hr
  split at hr
  · next hp =>
    rcases List.mem_cons.mp hr with rfl | hr
    · exact h.setState_disconnected hp
    · exact hreads _ _ _ (h.disconnect hp) r hr
  · cases hr

lemma peerDestroy_census (hnotify : notify.Steps env) (h : s.Census) :
    (peerDestroy notify p s).Census := by
  unfold peerDestroy
  split
  · next hp =>
    have hsome := Server.peer?_isSome_of_ne_disconnected (p := p) (s := s) (by rw [hp]; decide)
    have hgone : ({ s.setState p .disconnected with nPeersConnected := s.nPeersConnected - 1 } :
        Server).peerState p = .disconnected := Server.peerState_setState_self hsome
    have hmicros := hnotify .disconnected p
      { s.setState p .disconnected with nPeersConnected := s.nPeersConnected - 1 }
    refine Server.Census.of_peers (Server.Census.removed ((h.disconnect hp).micros hmicros) ?_)
      rfl rfl rfl
    rw [hmicros.disconnected hgone]
    decide
  · next hp => exact (h.removed hp).of_peers rfl rfl rfl

lemma sendPeerReads_exact (hreads : reads.Exact) (info : PacketInfo) (h : s.Census) :
    ∀ r ∈ sendPeerReads env reads info p s, r.Exact := by
  intro r hr
  unfold sendPeerReads ioWrite at hr
  split at hr
  · cases hr
  · split at hr
    · cases hr
    · next heq =>
      refine peerDestroyReads_exact hreads ?_ r hr
      split at heq
      · cases heq
      · cases heq
        exact h.of_peers rfl rfl rfl

/-- The uses in a walk are right if those of the body are, and the body keeps the number right. -/
lemma walkReads_exact {body : ℕ → Server → Server} {bodyReads : ℕ → Server → List CounterRead}
    (hbody : ∀ p s, s.Census → (body p s).Census)
    (hreads : ∀ p s, s.Census → ∀ r ∈ bodyReads p s, r.Exact)
    (n : ℕ) (cursor : Option ℕ) (h : s.Census) :
    ∀ r ∈ walkReads body bodyReads n cursor s, r.Exact := by
  intro r hr
  induction n generalizing cursor s with
  | zero => cases hr
  | succ n ih =>
    cases cursor with
    | none => cases hr
    | some p =>
      rw [walkReads] at hr
      split at hr
      · cases hr
      · rcases List.mem_append.mp hr with hr | hr
        · exact hreads p s h r hr
        · exact ih _ (hbody p s h) hr

lemma broadcastReads_exact (hnotify : notify.Steps env) (hreads : reads.Exact) {info : PacketInfo}
    (hinfo : info.type.IsNews) (h : s.Census) : ∀ r ∈ broadcastReads env notify reads info s,
    r.Exact := by
  intro r hr
  rcases List.mem_cons.mp hr with rfl | hr
  · exact h.check
  · split at hr
    · cases hr
    · split at hr
      · cases hr
      · next heq =>
        obtain ⟨-, rfl⟩ := Prod.mk.inj heq
        exact walkReads_exact (fun p s h => h.micros (sendPeer_micros hnotify hinfo p s))
          (fun p s h => sendPeerReads_exact hreads info h) _ _
            (by exact h.of_peers rfl rfl rfl) r hr

/-- What a call of the interface broadcasts is news, and up to then the peers are as they were. -/
lemma Api.news_spec {a : Api} {info : PacketInfo} {t : Server} (ha : a.news s = some (info, t))
    (h : s.Census) : info.type.IsNews ∧ t.Census := by
  have hnews : ∀ b as, ({ s with bus := b, trace := as } : Server).Census :=
    fun _ _ => h.of_peers rfl rfl rfl
  cases a with
  | registerObject handle =>
    simp only [Api.news] at ha
    split at ha
    · cases ha
    · split at ha
      · cases ha
      · cases ha
        exact ⟨⟨nofun, nofun⟩, hnews _ _⟩
  | unregisterObject handle =>
    simp only [Api.news] at ha
    split at ha
    · cases ha
    · split at ha
      · cases ha
      · cases ha
        exact ⟨⟨nofun, nofun⟩, hnews _ _⟩
  | sendEvent v =>
    simp only [Api.news] at ha
    split at ha
    · cases ha
    · split at ha
      · cases ha
      · cases ha
        exact ⟨⟨nofun, nofun⟩, h⟩
  | sendBusEvent e =>
    simp only [Api.news] at ha
    split at ha
    · cases ha
    · cases ha
      exact ⟨⟨nofun, nofun⟩, hnews _ _⟩
  | _ => cases ha

lemma runApiReads_exact (hnotify : notify.Steps env) (hreads : reads.Exact) (a : Api)
    (h : s.Census) : ∀ r ∈ runApiReads env notify reads a s, r.Exact := by
  intro r hr
  unfold runApiReads at hr
  split at hr
  · cases hr
  · next ha =>
    obtain ⟨hinfo, ht⟩ := Api.news_spec ha h
    exact broadcastReads_exact hnotify hreads hinfo ht r hr

lemma runApisReads_exact (hnotify : notify.Steps env) (hreads : reads.Exact) (calls : List Api)
    (h : s.Census) : ∀ r ∈ runApisReads env notify reads calls s, r.Exact := by
  intro r hr
  induction calls generalizing s with
  | nil => cases hr
  | cons a calls ih =>
    rcases List.mem_append.mp hr with hr | hr
    · exact runApiReads_exact hnotify hreads a h r hr
    · exact ih (h.micros (runApi_micros hnotify a s)) hr

/-- However deep callbacks nest, the uses in them are right. -/
lemma callbackReads_exact (user : User) (env : Env) (depth : ℕ) :
    (callbackReads user env depth).Exact := by
  induction depth with
  | zero =>
    intro event p s _ r hr
    cases hr
  | succ depth ih =>
    exact fun event p s h => runApisReads_exact (callback_micros user env depth) ih _
      (h.of_peers rfl rfl rfl)

end Reads

/-! ## Steps -/

section Steps

variable {user : User} {env : Env} {depth p : ℕ} {s s' : Server}

lemma peerCallRequestReads_exact (call : Call) (h : s.Census) :
    ∀ r ∈ peerCallRequestReads user env depth p call s, r.Exact := by
  intro r hr
  unfold peerCallRequestReads at hr
  split at hr
  · cases hr
  · split at hr
    · unfold invokeReads at hr
      split at hr
      · cases hr
      · exact runApisReads_exact (callback_micros user env depth)
          (callbackReads_exact user env depth) _
          (by exact h.of_peers rfl rfl rfl) r hr
    · cases hr

namespace Server.Census

/-- The name of a peer does not matter. -/
lemma named (h : s.Census) {f : Peer → Peer} (hid : ∀ q, (f q).id = q.id)
    (hstate : ∀ q, (f q).state = q.state) : (s.modifyPeer p f).Census := by
  refine ⟨⟨?_, by rw [modifyPeer_ids hid]; exact h.counted.ids⟩, fun q hq => ?_⟩
  · refine h.counted.count.trans ?_
    rw [modifyPeer, List.countP_map]
    refine List.countP_congr fun q _ => ?_
    simp only [Function.comp_apply]
    split
    · rw [hstate]
    · rfl
  · obtain ⟨q', hq', rfl⟩ := List.mem_map.mp hq
    have hlt := h.fresh q' hq'
    split
    · rw [hid]
      exact hlt
    · exact hlt

/-- While a request is answered, its peer is there and not connected. -/
lemma answering (h : s.Census) (user : User) (env : Env) (depth : ℕ) (req : Conreq)
    (hidle : s.peerState p = .idle) : (answering (callback user env depth) p req s).Census ∧
      (Obus.answering (callback user env depth) p req s).peerState p ≠ .connected ∧
      ((Obus.answering (callback user env depth) p req s).peer? p).isSome = true := by
  have hnamed : (s.modifyPeer p fun q => { q with name := req.client }).Census :=
    h.named (fun _ => rfl) fun _ => rfl
  have hidle' : (s.modifyPeer p fun q => { q with name := req.client }).peerState p = .idle := by
    rwa [peerState_modifyPeer (f := fun q => { q with name := req.client })
      (fun _ => rfl) fun _ => rfl]
  have hsome := peer?_isSome_of_ne_disconnected (p := p) (by rw [hidle']; decide)
  unfold Obus.answering
  simp only
  split
  · have hmicros := callback_micros user env depth .connecting p
      ((s.modifyPeer p fun q => { q with name := req.client }).setState p .connecting)
    have hset : ((s.modifyPeer p fun q => { q with name := req.client }).setState p
        .connecting).Census :=
      hnamed.setState (by rw [hidle']; decide) (by decide)
    set t := callback user env depth .connecting p
      ((s.modifyPeer p fun q => { q with name := req.client }).setState p .connecting)
    have hasked : t.peerState p = .connecting ∨ t.peerState p = .refused := by
      refine hmicros.invariant (I := fun t => t.peerState p = .connecting ∨
        t.peerState p = .refused)
        (fun hm hi => ?_) (.inl (peerState_setState_self hsome))
      rcases hm.peerState_cases p with heq | ⟨hc, -⟩ | ⟨-, hr⟩
      · rwa [heq]
      · rw [hc] at hi
        simp at hi
      · exact .inr hr
    refine ⟨hset.micros hmicros, ?_, peer?_isSome_of_ne_disconnected ?_⟩
    · rcases hasked with hp | hp <;> rw [hp] <;> decide
    · rcases hasked with hp | hp <;> rw [hp] <;> decide
  · exact ⟨hnamed, by rw [hidle']; decide, hsome⟩

end Server.Census

lemma peerConnectionRequestReads_exact (req : Conreq) (h : s.Census) :
    ∀ r ∈ peerConnectionRequestReads env (callback user env depth) (callbackReads user env depth) p
      req s, r.Exact := by
  intro r hr
  unfold peerConnectionRequestReads at hr
  split at hr
  · cases hr
  · next hidle =>
    rw [not_not] at hidle
    obtain ⟨hans, hstate, hsome⟩ := h.answering user env depth req hidle
    split at hr
    · cases hr
    · split at hr
      · cases hr
      · rcases List.mem_append.mp hr with hr | hr
        · split at hr
          · have hnamed : (s.modifyPeer p fun q => { q with name := req.client }).Census :=
              h.named (fun _ => rfl) fun _ => rfl
            have hidle' : (s.modifyPeer p fun q => { q with name := req.client }).peerState p =
                .idle := by
              rwa [Server.peerState_modifyPeer (f := fun q => { q with name := req.client })
                (fun _ => rfl) fun _ => rfl]
            exact callbackReads_exact user env depth _ _ _
              (hnamed.setState (by rw [hidle']; decide) (by decide)) r hr
          · cases hr
        · obtain ⟨n, ⟨-, hsend⟩ | hsend⟩ := @peerSendConnectionResponse_cases env p
            (answer (callback user env depth) p req s) (answering (callback user env depth) p req s)
          · rw [hsend] at hr
            exact peerDestroyReads_exact (callbackReads_exact user env depth)
              (by exact hans.of_peers rfl rfl rfl) r hr
          · rw [hsend] at hr
            simp only at hr
            have hsent :
                ({ answering (callback user env depth) p req s with ticks := n }.log (.sent p
                ((answering (callback user env depth) p req s).peerState p)
                (reply (answer (callback user env depth) p req s)
                  (answering (callback user env depth) p req s)))).Census :=
              hans.of_peers rfl rfl rfl
            split at hr
            · rcases List.mem_cons.mp hr with rfl | hr
              · exact hsent.setState_connected hsome hstate
              · exact callbackReads_exact user env depth _ _ _ (hsent.connect hsome hstate) r hr
            · cases hr

namespace Server.Census

lemma request (h : s.Census) (req : Conreq) :
    (peerConnectionRequest env (callback user env depth) p req s).2.Census := by
  by_cases hidle : s.peerState p = .idle
  · by_cases hnames : req.NamesPresent
    · rw [peerConnectionRequest_eq hidle hnames]
      obtain ⟨hans, hstate, hsome⟩ := h.answering user env depth req hidle
      obtain ⟨n, ⟨-, hsend⟩ | hsend⟩ := @peerSendConnectionResponse_cases env p
        (answer (callback user env depth) p req s)
          (Obus.answering (callback user env depth) p req s)
      · rw [hsend]
        exact peerDestroy_census (callback_micros user env depth)
          (by exact hans.of_peers rfl rfl rfl)
      · rw [hsend, afterAnswer]
        have hsent :
            ({ Obus.answering (callback user env depth) p req s with ticks := n }.log (.sent p
            ((Obus.answering (callback user env depth) p req s).peerState p)
            (reply (answer (callback user env depth) p req s)
              (Obus.answering (callback user env depth) p req s)))).Census :=
          hans.of_peers rfl rfl rfl
        split
        · exact (hsent.connect hsome hstate).micros (callback_micros user env depth .connected p _)
        · exact hsent.setState hstate (by decide)
    · obtain ⟨f, hid, hstate, hreq⟩ :=
        peerConnectionRequest_absent env (callback user env depth) hidle hnames
      rw [hreq]
      exact (h.named hid hstate).of_peers rfl rfl rfl
  · rw [peerConnectionRequest, if_pos hidle]
    exact h

lemma callRequest (h : s.Census) (call : Call) :
    (peerCallRequest env (invoke user env depth) p call s).Census := by
  obtain ⟨status, u, heq, hu⟩ := peerCallRequest_cases env (invoke user env depth) p call s
  have hcensus : u.Census := by
    rcases hu with rfl | hu
    · exact h.of_peers rfl rfl rfl
    · obtain ⟨calls, -, rfl⟩ := Option.map_eq_some_iff.mp hu
      refine micros (s := Server.log _ _) ?_
        (foldl_runApi_micros (callback_micros user env depth) calls _)
      exact h.of_peers rfl rfl rfl
  rw [heq, callEnd]
  split
  · exact (hcensus.micros (serverSendAck_micros call.handle status u)).of_peers rfl rfl rfl
  · exact hcensus.of_peers rfl rfl rfl

/-- Every step keeps the number right. -/
lemma step {a : ServerOp × Env} (h : s.Census) (hstep : serverStep user depth s a = some s') :
    s'.Census := by
  obtain ⟨op, env⟩ := a
  cases op with
  | accept =>
    obtain rfl := serverStep_accept hstep
    refine ⟨⟨?_, ?_⟩, fun q hq => ?_⟩
    · simp only [List.countP_append, h.counted.count]
      rfl
    · rw [List.map_append, List.nodup_append]
      refine ⟨h.counted.ids, List.nodup_singleton _, fun a ha b hb => ?_⟩
      obtain ⟨q, hq, rfl⟩ := List.mem_map.mp ha
      rw [List.mem_singleton.mp hb]
      exact (h.fresh q hq).ne
    · change q.id < s.nextPeer + 1
      rcases List.mem_append.mp hq with hq | hq
      · have := h.fresh q hq
        omega
      · rw [List.mem_singleton.mp hq]
        exact Nat.lt_succ_self _
  | packet p info =>
    obtain ⟨-, -, rfl⟩ := serverStep_packet hstep
    have hround : ∀ (again : Bool) (t : Server), t.Census →
        (if again = true ∧ (t.peer? p).isNone = true then t.crash .freedPeer else t).Census := by
      intro again t ht
      split
      · exact ht.of_peers rfl rfl rfl
      · exact ht
    unfold peerPacket
    refine hround _ _ ?_
    cases info with
    | conreq req => exact h.request req
    | call call => exact h.callRequest call
    | _ => exact h
  | closed p =>
    obtain ⟨-, rfl⟩ := serverStep_closed hstep
    exact peerDestroy_census (callback_micros user env depth) h
  | api a =>
    obtain rfl := serverStep_api hstep
    exact h.micros (runApi_micros (callback_micros user env depth) a s)

lemma new (api : BusDesc) : (serverNew api).Census := ⟨⟨rfl, List.nodup_nil⟩, nofun⟩

end Server.Census

lemma serverStepReads_exact (h : s.Census) (a : ServerOp × Env) :
    ∀ r ∈ serverStepReads user depth s a, r.Exact := by
  obtain ⟨op, env⟩ := a
  cases op with
  | accept => exact fun _ hr => absurd hr List.not_mem_nil
  | packet p info =>
    cases info with
    | conreq req => exact peerConnectionRequestReads_exact req h
    | call call => exact peerCallRequestReads_exact call h
    | _ => exact fun _ hr => absurd hr List.not_mem_nil
  | closed p => exact peerDestroyReads_exact (callbackReads_exact user env depth) h
  | api a =>
    exact runApiReads_exact (callback_micros user env depth)
      (callbackReads_exact user env depth) a h

end Steps

/-- In every state that a server reaches, the number of connected peers is right wherever a step, or
the destruction of the server, asks for it, and neither change of it leaves the range. -/
theorem connected_peers_counted (user : User) (depth : ℕ) (api : BusDesc)
    (ops : List (ServerOp × Env)) (s : Server)
    (hrun : runs (serverStep user depth) ops (serverNew api) = some s) :
    (∀ a, ∀ r ∈ serverStepReads user depth s a, r.Exact) ∧
    ∀ env, ∀ r ∈ serverDestroyReads user env depth s, r.Exact := by
  have hcensus : s.Census := by
    refine runs_invariant (C := fun _ _ => True) (fun _ _ _ h _ hstep => h.step hstep)
      (Server.Census.new api)
      (meetsAll_of_forall (fun _ _ _ => trivial) _) hrun
  refine ⟨fun a => serverStepReads_exact hcensus a, fun env => ?_⟩
  exact walkReads_exact (fun p s h => peerDestroy_census (callback_micros user env depth) h)
    (fun p s h => peerDestroyReads_exact (callbackReads_exact user env depth) h) _ _ hcensus

theorem connected_peers_counted_methodRequest :
    ∃ s, runs (serverStep idleHandler 0)
      (offering ++ [(.packet 0 (.conreq methodRequest), fairEnv)])
        (serverNew methodApi) = some s ∧ s.nPeersConnected = 1 ∧
      (serverStepReads idleHandler 0 s (.api (.unregisterObject 7), fairEnv)).length = 1 ∧
      ∀ r ∈ serverStepReads idleHandler 0 s (.api (.unregisterObject 7), fairEnv), r.Exact := by
  obtain ⟨s, hrun⟩ : ∃ s, runs (serverStep idleHandler 0)
      (offering ++ [(.packet 0 (.conreq methodRequest), fairEnv)]) (serverNew methodApi) =
        some s := ⟨_, rfl⟩
  have hexact := (connected_peers_counted idleHandler 0 methodApi _ s hrun).1
    (.api (.unregisterObject 7), fairEnv)
  refine ⟨s, hrun, ?_, ?_, hexact⟩
  · cases hrun
    rfl
  · cases hrun
    rfl

end Obus
