import Obus.Acks

/-!
# The call and the peer in use

While a packet of a peer is handled, the peer and the call stay in use although a broadcast may
destroy the one and the end of the packet destroys the other.  If no broadcast fails to reach the
peer, it is not destroyed; if the buffer for the acknowledgement can be had, nothing points to the
call when it is destroyed.

A peer is destroyed after its callback has run, so that in between it is in the list but
disconnected (`Leaving`).  Between packets there is no such peer.
-/

namespace Obus

/-- No packet that is broadcast to the peer fails. -/
def Env.Keeps (env : Env) (p : ℕ) : Prop :=
  ∀ t type, PacketType.IsNews type → env.write t p type = true

/-- No broadcast to a peer fails while a packet of it is handled, and if that is a call, the buffers
for acknowledgements can be had. -/
def Sheltered : ServerOp × Env → Prop
  | (.packet p (.call _), env) => env.Keeps p ∧ ∀ t, env.buffer t .ack = true
  | (.packet p _, env) => env.Keeps p
  | _ => True

/-! ## Peers that leave -/

/-- The peers that are disconnected and not yet destroyed are of a given kind. -/
def Leaving (D : ℕ → Prop) (s : Server) : Prop := ∀ q ∈ s.peers, q.state = .disconnected → D q.id

namespace Leaving

variable {D : ℕ → Prop} {s : Server} {env : Env} {notify : Notify}

lemma of_peers {s' : Server} (h : Leaving D s) (hpeers : s'.peers = s.peers) : Leaving D s' := by
  intro q hq
  exact h q (hpeers ▸ hq)

/-- A peer goes to another state than the last one. -/
lemma setState (h : Leaving D s) (p : ℕ) {st : PeerState} (hst : st ≠ .disconnected) :
    Leaving D (s.setState p st) := by
  intro q hq hstate
  obtain ⟨q', hq', rfl⟩ := List.mem_map.mp hq
  split at hstate
  · exact absurd hstate hst
  · next hne =>
    rw [if_neg hne]
    exact h q' hq' hstate

/-- A peer leaves, and is gone in the end. -/
lemma peerDestroy (h : Leaving D s)
    (hnotify : ∀ {D' : ℕ → Prop} {t : Server} (event p), Leaving D' t →
      Leaving D' (notify event p t)) (p : ℕ) :
    Leaving D (peerDestroy notify p s) := by
  have hgone : ∀ t : Server, Leaving (fun q => D q ∨ q = p) t →
      Leaving D ({ t with peers := t.peers.filter (·.id ≠ p) }.log (.destroyed p)) := by
    intro t ht q hq hstate
    obtain ⟨hmem, hne⟩ := List.mem_filter.mp hq
    exact (ht q hmem hstate).resolve_right (by simpa using hne)
  have hleaving : Leaving (fun q => D q ∨ q = p) (s.setState p .disconnected) := by
    intro q hq hstate
    obtain ⟨q', hq', rfl⟩ := List.mem_map.mp hq
    split at hstate
    · next heq =>
      rw [if_pos heq]
      exact .inr heq
    · next hne =>
      rw [if_neg hne]
      exact .inl (h q' hq' hstate)
  unfold Obus.peerDestroy
  simp only
  split
  · refine hgone _ (hnotify _ _ ?_)
    exact hleaving.of_peers rfl
  · exact hgone s fun q hq hstate => .inl (h q hq hstate)

lemma broadcast (h : Leaving D s)
    (hnotify : ∀ {D' : ℕ → Prop} {t : Server} (event p), Leaving D' t →
      Leaving D' (notify event p t))
    (info : PacketInfo) : Leaving D (broadcast env notify info s).2 := by
  have hsend : ∀ {t : Server} (p), Leaving D t → Leaving D (sendPeer env notify info p t) := by
    intro t p ht
    have htick : Leaving D { t with ticks := t.ticks + 1 } := ht.of_peers rfl
    rcases sendPeer_cases env notify info p t with ⟨-, heq⟩ | ⟨-, -, heq⟩ | ⟨-, -, heq⟩
    · rwa [heq]
    · rw [heq]
      exact ht.of_peers rfl
    · rw [heq]
      exact htick.peerDestroy hnotify p
  rcases broadcast_cases env notify info s with ⟨-, heq⟩ | ⟨-, -, heq⟩ | ⟨-, -, heq⟩
  · rwa [heq]
  · rw [heq]
    exact h.of_peers rfl
  · rw [heq]
    have hwalking : Leaving D { s with ticks := s.ticks + 1, walking := s.walking + 1 } :=
      h.of_peers rfl
    have hwalk := walkPeers_rule (I := Leaving D) (fun p t ht => hsend p ht)
      (fun t ht => ht.of_peers rfl)
      s.peers.length (s.peers.head?.map Peer.id) hwalking
    exact hwalk.of_peers rfl

lemma runApi (h : Leaving D s)
    (hnotify : ∀ {D' : ℕ → Prop} {t : Server} (event p), Leaving D' t →
      Leaving D' (notify event p t)) (a : Api) :
    Leaving D (runApi env notify a s) := by
  have hrule : ApiRule env notify (Leaving D) :=
    { bus := fun _ h => h.of_peers rfl
      committed := fun _ h => h.of_peers rfl
      broadcast := fun _ h => h.broadcast hnotify _
      crashed := fun _ h => h.of_peers rfl }
  apply hrule.runApi h
  · intro handle status _
    refine h.of_peers ?_
    rcases serverSendAck_cases env handle status s with ⟨-, heq⟩ | ⟨call, -, hcases⟩
    · rw [heq]
    · rcases hcases with ⟨-, heq⟩ | ⟨-, -, heq⟩ | ⟨-, -, -, heq⟩ | ⟨-, -, -, -, heq⟩ |
        ⟨-, -, -, -, heq⟩
      · rw [heq]
        rfl
      · rw [heq]
      · rw [heq]
      · rw [heq]
        rfl
      · rw [heq, ioWrite]
        split <;> rfl
  · intro p _
    unfold peerRefuseConnection
    split
    · exact h.setState p (by decide)
    · exact h

lemma foldl_runApi_of (h : Leaving D s)
    (hnotify : ∀ {D' : ℕ → Prop} {t : Server} (event p), Leaving D' t →
      Leaving D' (notify event p t))
    (calls : List Api) : Leaving D (calls.foldl (fun t a => Obus.runApi env notify a t) s) := by
  induction calls generalizing s with
  | nil => exact h
  | cons a calls ih => exact ih (h.runApi hnotify a)

lemma callback (user : User) (env : Env) (depth : ℕ) (event : PeerEvent) (p : ℕ) (h : Leaving D s) :
    Leaving D (callback user env depth event p s) := by
  induction depth generalizing D s event p with
  | zero => exact h.of_peers rfl
  | succ depth ih =>
    have hlog : Leaving D (s.log (.notified event p)) := h.of_peers rfl
    exact hlog.foldl_runApi_of (fun event p h' => ih event p h') _

lemma foldl_runApi (user : User) (env : Env) (depth : ℕ) (calls : List Api) (h : Leaving D s) :
    Leaving D (calls.foldl (fun t a => Obus.runApi env (Obus.callback user env depth) a t) s) :=
  h.foldl_runApi_of (fun event p h' => h'.callback user env depth event p) calls

end Leaving

/-! ## What stays alive -/

/-- A peer that no broadcast fails to reach is not disconnected. -/
lemma Micros.keeps {env : Env} {s s' : Server} {p : ℕ} (hkeeps : env.Keeps p) (h : Micros env s s')
    (hp : s.peerState p ≠ .disconnected) : s'.peerState p ≠ .disconnected := by
  refine h.invariant (I := fun t => t.peerState p ≠ .disconnected) ?_ hp
  intro t t' hm ht
  rcases hm.peerState_cases p with heq | ⟨-, -, n, type, htype, hwrite⟩ | ⟨-, href⟩
  · rwa [heq]
  · rw [hkeeps n type htype] at hwrite
    cases hwrite
  · rw [href]
    decide

/-- No call that was destroyed and no peer of such a call was used. -/
def Server.Sound (s : Server) : Prop := s.fault ≠ some .freedCall ∧ s.fault ≠ some .freedPeer

/-- Outside of calls nothing points to a call, and none is used. -/
lemma Micros.sound {env : Env} {s s' : Server} (h : Micros env s s') (hcall : s.call = none)
    (hs : s.Sound) : s'.call = none ∧ s'.Sound := by
  refine h.invariant (I := fun t => t.call = none ∧ t.Sound) ?_ ⟨hcall, hs⟩
  rintro t t' hm ⟨ht, hsound⟩
  cases hm with
  | callDone st => exact ⟨rfl, hsound⟩
  | crashed f hf =>
    refine ⟨ht, ?_, ?_⟩
    · rintro ⟨⟩
      obtain ⟨call, hsome, -⟩ := hf
      simp [ht] at hsome
    · rintro ⟨⟩
      obtain ⟨call, hsome, -⟩ := hf
      simp [ht] at hsome
  | _ => exact ⟨ht, hsound⟩

/-- What `srv->call` points to while a call of a peer is handled, if to anything: that call, which
nobody has acknowledged, and the peer is there. -/
structure Live (p : ℕ) (handle : UInt16) (s : Server) : Prop where
  peer : s.peerState p ≠ .disconnected
  call : ∀ call, s.call = some call → call = ⟨p, handle, true⟩ ∧ s.callStatus = .invalid
  sound : s.Sound

namespace Live

variable {p : ℕ} {handle : UInt16} {s s' : Server} {env : Env}

lemma peer?_isSome (h : Live p handle s) : (s.peer? p).isSome = true :=
  Server.peer?_isSome_of_ne_disconnected h.peer

lemma log (h : Live p handle s) (a : Action) : Live p handle (s.log a) := ⟨h.peer, h.call, h.sound⟩

lemma micro (hkeeps : env.Keeps p) (h : Live p handle s) (hm : Micro env s s') :
    Live p handle s' := by
  refine ⟨Micros.keeps hkeeps (.single hm) h.peer, ?_, ?_⟩
  · cases hm with
    | callDone st => simp
    | _ => exact h.call
  · cases hm with
    | crashed f hf =>
      constructor
      · rintro ⟨⟩
        obtain ⟨call, hsome, hdead⟩ := hf
        rw [(h.call call hsome).1] at hdead
        cases hdead
      · rintro ⟨⟩
        obtain ⟨call, hsome, hgone⟩ := hf
        rw [(h.call call hsome).1] at hgone
        have hpeer := h.peer?_isSome
        rw [hgone] at hpeer
        cases hpeer
    | _ => exact h.sound

lemma micros (hkeeps : env.Keeps p) (h : Live p handle s) (hm : Micros env s s') :
    Live p handle s' :=
  hm.invariant (I := Live p handle) (fun hmicro hi => hi.micro hkeeps hmicro) h

/-- With a buffer for the acknowledgement nothing points to the call when it is destroyed. -/
lemma callEnd (hbuf : ∀ t, env.buffer t .ack = true) (h : Live p handle s) (status : CallStatus) :
    (callEnd env handle status s).call = none ∧ (callEnd env handle status s).Sound ∧
      (callEnd env handle status s).peers = s.peers := by
  have hdone : ∀ t : Server, t.call = none → t.fault = s.fault → t.peers = s.peers →
      let t' : Server := { t with call := t.call.map fun c => { c with alive := false } }
      t'.call = none ∧ t'.Sound ∧ t'.peers = s.peers := by
    intro t hcall hfault hpeers
    refine ⟨by simp [hcall], ?_, hpeers⟩
    unfold Server.Sound
    rw [hfault]
    exact h.sound
  unfold Obus.callEnd
  rcases serverSendAck_cases env handle status s with ⟨hnone, heq⟩ | ⟨call, hcall, hcases⟩
  · rw [heq, ite_self]
    exact hdone s hnone rfl rfl
  · obtain ⟨rfl, hwaits⟩ := h.call call hcall
    rw [if_pos hwaits]
    rcases hcases with ⟨hdead, -⟩ | ⟨-, hne, -⟩ | ⟨-, -, hfail, -⟩ | ⟨-, -, -, hgone, -⟩ |
      ⟨-, -, -, -, heq⟩
    · cases hdead
    · exact absurd rfl hne
    · simp [hbuf] at hfail
    · have hpeer := h.peer?_isSome
      rw [hgone] at hpeer
      cases hpeer
    · rw [heq]
      apply hdone
      · rfl
      · simp only [ioWrite]
        split <;> rfl
      · simp only [ioWrite]
        split <;> rfl

end Live

/-! ## Steps -/

/-- Between packets no peer is about to be destroyed, nothing points to a call, and none was used
that was destroyed. -/
structure Settled (s : Server) : Prop where
  peers : Leaving (fun _ => False) s
  call : s.call = none
  sound : s.Sound

namespace Settled

variable {s s' : Server} {user : User} {env : Env} {depth p : ℕ}

lemma peerState_ne (h : Settled s) (hp : (s.peer? p).isSome = true) :
    s.peerState p ≠ .disconnected := by
  obtain ⟨peer, hpeer⟩ := Option.isSome_iff_exists.mp hp
  rw [Server.peerState_of_peer? hpeer]
  exact h.peers peer (List.mem_of_find?_eq_some hpeer)

lemma peerDestroy (h : Settled s) (user : User) (env : Env) (depth p : ℕ) :
    Settled (peerDestroy (callback user env depth) p s) := by
  have hleft : Leaving (fun _ => False) (Obus.peerDestroy (callback user env depth) p s) :=
    h.peers.peerDestroy (fun event p ht => ht.callback user env depth event p) p
  have hrest : (Obus.peerDestroy (callback user env depth) p s).call = none ∧
      (Obus.peerDestroy (callback user env depth) p s).Sound := by
    unfold Obus.peerDestroy
    simp only
    split
    · obtain ⟨hcall, hsound⟩ := (callback_micros user env depth .disconnected p
        { s.setState p .disconnected with nPeersConnected := s.nPeersConnected - 1 }).sound
          h.call h.sound
      exact ⟨hcall, hsound⟩
    · exact ⟨h.call, h.sound⟩
  exact ⟨hleft, hrest.1, hrest.2⟩

lemma of_fields (h : Settled s) (hpeers : s'.peers = s.peers) (hcall : s'.call = s.call)
    (hfault : s'.fault = s.fault) : Settled s' := by
  refine ⟨h.peers.of_peers hpeers, hcall.trans h.call, ?_⟩
  unfold Server.Sound
  rw [hfault]
  exact h.sound

lemma callback (h : Settled s) (user : User) (env : Env) (depth : ℕ) (event : PeerEvent) (p : ℕ) :
    Settled (callback user env depth event p s) := by
  obtain ⟨hcall, hsound⟩ := (callback_micros user env depth event p s).sound h.call h.sound
  exact ⟨h.peers.callback user env depth event p, hcall, hsound⟩

end Settled

/-- Between packets, with a peer that is there and not about to be destroyed. -/
structure Attended (p : ℕ) (s : Server) : Prop extends Settled s where
  peer : s.peerState p ≠ .disconnected

namespace Attended

variable {s s' : Server} {env : Env} {p : ℕ}

lemma of_fields (h : Attended p s) (hpeers : s'.peers = s.peers) (hcall : s'.call = s.call)
    (hfault : s'.fault = s.fault) : Attended p s' := by
  refine ⟨h.toSettled.of_fields hpeers hcall hfault, ?_⟩
  unfold Server.peerState Server.peer?
  rw [hpeers]
  exact h.peer

lemma setState (h : Attended p s) {st : PeerState} (hst : st ≠ .disconnected) :
    Attended p (s.setState p st) := by
  refine ⟨⟨h.peers.setState p hst, h.call, h.sound⟩, ?_⟩
  rw [Server.peerState_setState_self (Server.peer?_isSome_of_ne_disconnected h.peer)]
  exact hst

lemma connect (h : Attended p s) (n : ℕ) :
    Attended p { s.setState p .connected with nPeersConnected := n } := by
  have hstate : Attended p (s.setState p .connected) := h.setState (by decide)
  exact hstate.of_fields rfl rfl rfl

lemma named (h : Attended p s) {f : Peer → Peer} (hid : ∀ q, (f q).id = q.id)
    (hstate : ∀ q, (f q).state = q.state) : Attended p (s.modifyPeer p f) := by
  refine ⟨⟨?_, h.call, h.sound⟩, ?_⟩
  · intro q hq hq'
    obtain ⟨q', hmem, rfl⟩ := List.mem_map.mp hq
    refine h.peers q' hmem ?_
    split at hq'
    · rwa [hstate] at hq'
    · exact hq'
  · rw [Server.peerState_modifyPeer hid hstate]
    exact h.peer

lemma callback (hkeeps : env.Keeps p) (h : Attended p s) (user : User) (depth : ℕ)
    (event : PeerEvent) : Attended p (callback user env depth event p s) :=
  ⟨h.toSettled.callback user env depth event p,
    (callback_micros user env depth event p s).keeps hkeeps h.peer⟩

/-- After a connection request the peer is still there, unless it is said to be gone. -/
lemma request (hkeeps : env.Keeps p) (h : Attended p s) (user : User) (depth : ℕ) (req : Conreq) :
    let r := peerConnectionRequest env (Obus.callback user env depth) p req s
    Settled r.2 ∧ (r.1 = true → Attended p r.2) := by
  have hwhole : ∀ r : Bool × Server, Attended p r.2 → Settled r.2 ∧ (r.1 = true → Attended p r.2) :=
    fun r hr => ⟨hr.toSettled, fun _ => hr⟩
  intro r
  by_cases hidle : s.peerState p = .idle
  · by_cases hnames : req.NamesPresent
    · have hasked : Attended p (answering (Obus.callback user env depth) p req s) := by
        have hnamed := h.named (f := fun q => { q with name := req.client })
          (fun _ => rfl) fun _ => rfl
        unfold answering
        simp only
        split
        · exact (hnamed.setState (by decide)).callback hkeeps user depth .connecting
        · exact hnamed
      simp only [r, peerConnectionRequest_eq hidle hnames]
      obtain ⟨n, ⟨-, hsend⟩ | hsend⟩ := @peerSendConnectionResponse_cases env p
        (answer (Obus.callback user env depth) p req s)
          (answering (Obus.callback user env depth) p req s)
      · rw [hsend]
        have hticked : Settled { answering (Obus.callback user env depth) p req s with
            ticks := n } :=
          hasked.toSettled.of_fields rfl rfl rfl
        exact ⟨hticked.peerDestroy user env depth p, (by rintro ⟨⟩)⟩
      · rw [hsend]
        have hsent : Attended p ({ answering (Obus.callback user env depth) p req s with
            ticks := n }.log
            (.sent p ((answering (Obus.callback user env depth) p req s).peerState p)
              (reply (answer (Obus.callback user env depth) p req s)
                (answering (Obus.callback user env depth) p req s)))) :=
                  hasked.of_fields rfl rfl rfl
        simp only [afterAnswer]
        split
        · exact hwhole (_, _) ((hsent.connect _).callback hkeeps user depth .connected)
        · exact hwhole (_, _) (hsent.setState (by decide))
    · obtain ⟨f, hid, hstate, heq⟩ :=
        peerConnectionRequest_absent env (Obus.callback user env depth) hidle hnames
      simp only [r, heq]
      have hnamed := h.named hid hstate
      have hcrashed : Attended p ((s.modifyPeer p f).crash .absentString) :=
        ⟨⟨hnamed.peers.of_peers rfl, hnamed.call, (by rintro ⟨⟩), (by rintro ⟨⟩)⟩, hnamed.peer⟩
      exact ⟨hcrashed.toSettled, fun _ => hcrashed⟩
  · have heq : r = (true, s) := if_pos hidle
    rw [heq]
    exact hwhole (true, s) h

end Attended

/-- A step that is sheltered uses no peer and no call that was destroyed, and leaves none behind. -/
lemma Settled.step {user : User} {depth : ℕ} {s s' : Server} {a : ServerOp × Env} (h : Settled s)
    (hshelter : Sheltered a) (hstep : serverStep user depth s a = some s') : Settled s' := by
  obtain ⟨op, env⟩ := a
  cases op with
  | accept =>
    obtain rfl := serverStep_accept hstep
    refine ⟨?_, h.call, h.sound⟩
    intro q hq hstate
    rcases List.mem_append.mp hq with hold | hnew
    · exact h.peers q hold hstate
    · rw [List.mem_singleton.mp hnew] at hstate
      cases hstate
  | closed p =>
    obtain ⟨-, rfl⟩ := serverStep_closed hstep
    exact h.peerDestroy user env depth p
  | api a =>
    obtain rfl := serverStep_api hstep
    obtain ⟨hcall, hsound⟩ :=
      (runApi_micros (callback_micros user env depth) a s).sound h.call h.sound
    exact ⟨h.peers.runApi (fun event p ht => ht.callback user env depth event p) a, hcall, hsound⟩
  | packet p info =>
    obtain ⟨-, hpeer, rfl⟩ := serverStep_packet hstep
    have hhere : Attended p s := ⟨h, h.peerState_ne hpeer⟩
    have hround : ∀ (t : Server) (again : Bool), Settled t →
        (again = true → t.peerState p ≠ .disconnected) →
        Settled (if again = true ∧ (t.peer? p).isNone = true then t.crash .freedPeer else t) := by
      intro t again ht hthere
      rw [if_neg]
      · exact ht
      · rintro ⟨hagain, hnone⟩
        have hsome := Server.peer?_isSome_of_ne_disconnected (hthere hagain)
        rw [Option.isNone_iff_eq_none] at hnone
        simp [hnone] at hsome
    cases info with
    | conreq req =>
      obtain ⟨hsettled, hthere⟩ := hhere.request hshelter user depth req
      exact hround _ _ hsettled fun hagain => (hthere hagain).peer
    | call call =>
      obtain ⟨hkeeps, hbuf⟩ := hshelter
      obtain ⟨status, u, heq, hu⟩ := peerCallRequest_cases env (invoke user env depth) p call s
      have htaken : Live p call.handle
          { s with call := some ⟨p, call.handle, true⟩, callStatus := .invalid } := by
        refine ⟨hhere.peer, ?_, h.sound⟩
        rintro c ⟨⟩
        exact ⟨rfl, rfl⟩
      have hhandled : Live p call.handle u ∧ Leaving (fun _ => False) u := by
        rcases hu with rfl | hinvoke
        · exact ⟨htaken, h.peers.of_peers rfl⟩
        · obtain ⟨calls, -, rfl⟩ := Option.map_eq_some_iff.mp hinvoke
          refine ⟨(htaken.log _).micros hkeeps
            (foldl_runApi_micros (callback_micros user env depth) calls _), ?_⟩
          exact Leaving.foldl_runApi user env depth calls (h.peers.of_peers rfl)
      obtain ⟨hcall, hsound, hpeers⟩ := hhandled.1.callEnd hbuf status
      have hend : Settled (callEnd env call.handle status u) :=
        ⟨hhandled.2.of_peers hpeers, hcall, hsound⟩
      have hthere : (callEnd env call.handle status u).peerState p ≠ .disconnected := by
        unfold Server.peerState Server.peer?
        rw [hpeers]
        exact hhandled.1.peer
      have hlast := hround _ true hend fun _ => hthere
      rw [← heq] at hlast
      exact hlast
    | _ => exact hround s true h fun _ => hhere.peer

/-- In every run whose steps are sheltered, nothing points to a call between packets, and neither a
destroyed call nor a destroyed peer was used for a packet of that peer.  While a call is handled,
whatever is done until then, `srv->call` points to this call if to any, which is not destroyed, and
its peer is there. -/
theorem current_call_alive (user : User) (depth : ℕ) (api : BusDesc) (ops : List (ServerOp × Env))
    (s : Server)
    (hshelter : ∀ a ∈ ops, Sheltered a)
    (hrun : runs (serverStep user depth) ops (serverNew api) = some s) :
    s.call = none ∧ s.fault ≠ some .freedCall ∧ s.fault ≠ some .freedPeer ∧
      ∀ (env : Env) (p : ℕ) (call : Call) (t : Server), Sheltered (.packet p (.call call), env) →
        (s.peer? p).isSome = true → Micros env (s.taking p call.handle) t →
        (t.peer? p).isSome = true ∧ t.fault ≠ some .freedCall ∧ t.fault ≠ some .freedPeer ∧
          ∀ current, t.call = some current → current = ⟨p, call.handle, true⟩ := by
  have hnew : Settled (serverNew api) := ⟨nofun, rfl, nofun, nofun⟩
  have hsettled : Settled s :=
    runs_invariant (C := fun _ a => Sheltered a) (fun _ _ _ h hC hstep => h.step hC hstep) hnew
      (meetsAll_of_forall (fun a ha _ => hshelter a ha) _) hrun
  refine ⟨hsettled.call, hsettled.sound.1, hsettled.sound.2, ?_⟩
  rintro env p call t ⟨hkeeps, -⟩ hpeer hmicros
  have htaken : Live p call.handle (s.taking p call.handle) := by
    refine ⟨hsettled.peerState_ne hpeer, ?_, hsettled.sound⟩
    rintro c ⟨⟩
    exact ⟨rfl, rfl⟩
  have hlive := htaken.micros hkeeps hmicros
  exact ⟨hlive.peer?_isSome, hlive.sound.1, hlive.sound.2, fun current hcurrent =>
    (hlive.call current hcurrent).1⟩

theorem current_call_alive_hasty :
    ∃ s, runs (serverStep hastyHandler 0)
        (offering ++ [(.packet 0 (.conreq methodRequest), fairEnv),
          (.packet 0 (.call methodCall), fairEnv)])
        (serverNew methodApi) = some s ∧ s.call = none ∧ s.fault ≠ some .freedCall := by
  set ops := offering ++ [(.packet 0 (.conreq methodRequest), fairEnv),
    (.packet 0 (.call methodCall), fairEnv)]
  obtain ⟨s, hrun⟩ : ∃ s, runs (serverStep hastyHandler 0) ops (serverNew methodApi) =
    some s := ⟨_, rfl⟩
  have hkeeps : ∀ p, fairEnv.Keeps p := fun _ _ _ _ => rfl
  have hshelter : ∀ a ∈ ops, Sheltered a := by
    intro a ha
    simp only [ops, offering, List.cons_append, List.nil_append, List.mem_cons, List.not_mem_nil,
      or_false] at ha
    rcases ha with rfl | rfl | rfl | rfl | rfl
    · trivial
    · trivial
    · trivial
    · exact hkeeps 0
    · exact ⟨hkeeps 0, fun _ => rfl⟩
  obtain ⟨hcall, hfreed, -⟩ := current_call_alive hastyHandler 0 methodApi ops s hshelter hrun
  exact ⟨s, hrun, hcall, hfreed⟩

/-- No buffer can be had for an acknowledgement. -/
def noAckEnv : Env := ⟨fun _ type => decide (type ≠ .ack), fun _ _ _ => true⟩

/-- No addition of an object can be written. -/
def noAddEnv : Env := ⟨fun _ _ => true, fun _ _ type => decide (type ≠ .add)⟩

/-- A user whose handler offers a second object. -/
def offeringHandler : User :=
  ⟨fun _ _ _ => [], fun _ _ _ =>
    some [.newObject methodDesc (some enabledInfo) [8], .registerObject 8]⟩

/-- Without a buffer for its acknowledgement a call stays pointed to when it is destroyed, and the
next acknowledgement uses it.  A peer that cannot be told about an object that its own call has
registered is destroyed, and used afterwards. -/
theorem destroyed_call_used :
    (∃ s s', runs (serverStep idleHandler 0)
        (offering ++ [(.packet 0 (.conreq methodRequest), fairEnv),
          (.packet 0 (.call methodCall), noAckEnv)])
        (serverNew methodApi) = some s ∧ s.call = some ⟨0, 5, false⟩ ∧
      serverStep idleHandler 0 s (.api (.sendAck 5 .acked), fairEnv) = some s' ∧
      s'.fault = some .freedCall) ∧
    ∃ s, runs (serverStep offeringHandler 0)
        (offering ++ [(.packet 0 (.conreq methodRequest), fairEnv),
          (.packet 0 (.call methodCall), noAddEnv)])
        (serverNew methodApi) = some s ∧ s.fault = some .freedPeer := by
  exact ⟨⟨_, _, rfl, by decide, rfl, by decide⟩, _, rfl, by decide⟩

end Obus
