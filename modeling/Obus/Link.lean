import Obus.Agreement
import Obus.Alive
import Obus.Calls

/-!
# A client and its server

One client and one server, with the packets that are on the way between them in both directions
(`Link`).  The bytes are left out: a packet arrives as `PacketInfo.arrive` says, which is what the
decoder makes of its bytes if there are fewer than `2 ^ 32` of them.  Larger packets, whose size
does not fit into their header, are left out.

Every packet on the way is marked with the call that it makes, or in whose handling the server has
sent it, so that one can tell for which call an acknowledgement was sent.  The client can not: it
finds a call by the handle alone, and takes a handle again when the call is gone, although the
server may still owe an answer for it.
-/

namespace Obus

/-! ## The link -/

/-- A packet on the way, and the call that it makes or in whose handling it was sent. -/
structure Flying where
  info : PacketInfo
  call : Option ℕ

/-- A status that the client was told by an acknowledgement. -/
structure Answer where
  /-- The call whose status callback was invoked. -/
  call : ℕ
  status : UInt8
  /-- The call for which the acknowledgement was sent. -/
  sentFor : Option ℕ
  deriving DecidableEq

/-- A client and a server that are connected. -/
structure Link where
  client : Client
  server : Server
  /-- The packets on the way to the server. -/
  up : List Flying := []
  /-- The packets on the way to the client. -/
  down : List Flying := []
  /-- The statuses that the server has sent for each call. -/
  given : List (ℕ × UInt8) := []
  answered : List Answer := []

/-- What happens on a link. -/
inductive LinkOp where
  /-- The user of the client makes a call. -/
  | call (req : Client.CallReq)
  /-- The user of the server calls the interface. -/
  | api (a : Api) (env : Env)
  /-- The server handles the next packet. -/
  | handle (env : Env)
  /-- The client reads the next packet. -/
  | read

/-- The statuses that packets give to a call. -/
def statusesOf (call : Option ℕ) (infos : List PacketInfo) : List (ℕ × UInt8) :=
  infos.filterMap fun
    | .ack a => call.map fun id => (id, a.status)
    | _ => none

namespace Link

/-- The server has gone to a new state, perhaps in handling a call: what it has sent since is on the
way. -/
def told (l : Link) (call : Option ℕ) (s : Server) : Link :=
  let new := (inbox 0 s.trace).drop (inbox 0 l.server.trace).length
  { l with
    server := s
    down := l.down ++ new.map fun info => ⟨info, call⟩
    given := l.given ++ statusesOf call new }

/-- The client has made a call: what it has sent since is on the way. -/
def called (l : Link) (c : Client) : Link :=
  { l with
    client := c
    up := l.up ++ (c.sent.drop l.client.sent.length).map fun info =>
      ⟨info, some l.client.nextCall⟩ }

/-- The client has read a packet: if it was an acknowledgement, its status was told. -/
def heard (l : Link) (call : Option ℕ) (info : PacketInfo) (c : Client) : Link :=
  let told := if info.type = .ack then c.notified.drop l.client.notified.length else []
  { l with client := c, answered := l.answered ++ told.map fun n => ⟨n.1, n.2, call⟩ }

end Link

/-- A step of a link.  A packet that cannot be decoded is dropped. -/
def linkStep (user : User) (depth : ℕ) (l : Link) : LinkOp → Option Link
  | .call req => (clientStep l.client (.call req)).map l.called
  | .api a env => (serverStep user depth l.server (.api a, env)).map (l.told none)
  | .handle env =>
    match l.up with
    | [] => none
    | f :: up =>
      match f.info.arrive l.server.bus with
      | .error _ => some { l with up := up }
      | .ok info =>
        (serverStep user depth l.server (.packet 0 info, env)).map fun s =>
          { l.told f.call s with up := up }
  | .read =>
    match l.down with
    | [] => none
    | f :: down =>
      match f.info.arrive l.client.bus with
      | .error _ => some { l with down := down }
      | .ok info =>
        (clientStep l.client (.packet info)).map fun c =>
          { l.heard f.call info c with down := down }

/-- A client has connected its socket to a new server, and sent its request. -/
def linkNew (api : BusDesc) (req : Conreq) : Link where
  client := (clientNew api).start
  server := { serverNew api with peers := [⟨0, .idle, none⟩], nextPeer := 1 }
  up := [⟨.conreq req, none⟩]

/-! ## Whom the server answers -/

/-- Since a given state, acknowledgements were sent for one call at most, of a given peer and with a
given handle. -/
structure Answering (who : Option (ℕ × UInt16)) (s₀ s : Server) : Prop where
  trace : ∃ as, s.trace = s₀.trace ++ as ∧ ∀ r ∈ acks as, who = some (r.1, r.2.handle)
  call : ∀ call, s.call = some call → call.alive = true → who = some (call.peer, call.handle)

namespace Answering

variable {who : Option (ℕ × UInt16)} {s₀ s s' : Server} {env : Env}

lemma refl (h : s.NoCall) : Answering who s s := by
  refine ⟨⟨[], (List.append_nil _).symm, nofun⟩, fun call hcall halive => ?_⟩
  rw [h call hcall] at halive
  cases halive

/-- A change that sends nothing and takes no call. -/
lemma of_trace (h : Answering who s₀ s) (htrace : s'.trace = s.trace)
    (hcall : ∀ call, s'.call = some call → call.alive = true → s.call = some call) :
    Answering who s₀ s' := by
  obtain ⟨as, hs, has⟩ := h.trace
  exact ⟨⟨as, htrace.trans hs, has⟩, fun call hc halive => h.call call
    (hcall call hc halive) halive⟩

lemma log (h : Answering who s₀ s) {a : Action}
    (ha : ∀ r ∈ acks [a], who = some (r.1, r.2.handle)) : Answering who s₀ (s.log a) := by
  obtain ⟨as, hs, has⟩ := h.trace
  refine ⟨⟨as ++ [a], by rw [Server.log, hs, List.append_assoc], fun r hr => ?_⟩, h.call⟩
  rw [acks_append] at hr
  rcases List.mem_append.mp hr with hr | hr
  · exact has r hr
  · exact ha r hr

lemma micro (h : Answering who s₀ s) (hm : Micro env s s') : Answering who s₀ s' := by
  cases hm with
  | sent hstate hinfo =>
    refine h.log fun r hr => ?_
    obtain ⟨a, ha, hr⟩ := List.mem_filterMap.mp hr
    rw [List.mem_singleton] at ha
    subst ha
    split at hr
    · next heq =>
      cases heq
      exact absurd rfl hinfo.2
    · cases hr
  | @acked call ack hcall halive hhandle =>
    refine h.log fun r hr => ?_
    obtain rfl : r = (call.peer, ack) := List.mem_singleton.mp hr
    rw [hhandle]
    exact h.call call hcall halive
  | callDone st => exact h.of_trace rfl nofun
  | committed info => exact h.log nofun
  | notified event p => exact h.log nofun
  | removed hstate =>
    apply Answering.log
    · exact h.of_trace rfl fun _ hc _ => hc
    · exact nofun
  | _ => exact h.of_trace rfl fun _ hc _ => hc

lemma micros (h : Answering who s₀ s) (hm : Micros env s s') : Answering who s₀ s' :=
  hm.invariant (fun hm h => h.micro hm) h

lemma peerDestroy (h : Answering who s₀ s) (user : User) (env : Env) (depth p : ℕ) :
    Answering who s₀ (peerDestroy (callback user env depth) p s) := by
  unfold Obus.peerDestroy
  apply Answering.log
  · split
    · have hleaving : Answering who s₀
          { s.setState p .disconnected with nPeersConnected := s.nPeersConnected - 1 } :=
        h.of_trace rfl fun _ hc _ => hc
      exact (hleaving.micros (callback_micros user env depth .disconnected p _)).of_trace rfl
        fun _ hc _ => hc
    · exact h.of_trace rfl fun _ hc _ => hc
  · exact nofun

/-- A connection request acknowledges nothing. -/
lemma request (h : Answering who s₀ s) (user : User) (env : Env) (depth p : ℕ) (req : Conreq) :
    Answering who s₀ (peerConnectionRequest env (callback user env depth) p req s).2 := by
  by_cases hidle : s.peerState p = .idle
  · by_cases hnames : req.NamesPresent
    · rw [peerConnectionRequest_eq hidle hnames]
      have hasked : Answering who s₀ (answering (callback user env depth) p req s) := by
        unfold answering
        simp only
        split
        · have hset : Answering who s₀
              ((s.modifyPeer p fun q => { q with name := req.client }).setState p .connecting) :=
            h.of_trace rfl fun _ hc _ => hc
          exact hset.micros (callback_micros user env depth .connecting p _)
        · exact h.of_trace rfl fun _ hc _ => hc
      set t := answering (callback user env depth) p req s
      set status := answer (callback user env depth) p req s with hstatus
      have hticks : ∀ n, Answering who s₀ { t with ticks := n } := fun n =>
        hasked.of_trace rfl fun _ hc _ => hc
      obtain ⟨n, ⟨-, hsend⟩ | hsend⟩ := peerSendConnectionResponse_cases (p := p) status t
      · rw [hsend]
        exact (hticks n).peerDestroy user env depth p
      · have hsent : Answering who s₀
            ({ t with ticks := n }.log (.sent p (t.peerState p) (reply status t))) :=
          (hticks n).log nofun
        rw [hsend, afterAnswer]
        split
        · refine Answering.micros ?_ (callback_micros user env depth .connected p _)
          exact hsent.of_trace rfl fun _ hc _ => hc
        · exact hsent.of_trace rfl fun _ hc _ => hc
    · obtain ⟨f, -, -, hreq⟩ :=
        peerConnectionRequest_absent env (callback user env depth) hidle hnames
      rw [hreq]
      exact h.of_trace rfl fun _ hc _ => hc
  · rw [peerConnectionRequest, if_pos hidle]
    exact h

end Answering

/-- While a call is handled, acknowledgements are sent for it only, and none is being handled
afterwards. -/
lemma answering_call {user : User} {env : Env} {depth p : ℕ} {call : Call} {s : Server} :
    let s' := peerCallRequest env (invoke user env depth) p call s
    Answering (some (p, call.handle)) s s' ∧ s'.NoCall := by
  obtain ⟨status, u, heq, hu⟩ := peerCallRequest_cases env (invoke user env depth) p call s
  simp only [heq]
  set t : Server := { s with call := some ⟨p, call.handle, true⟩, callStatus := .invalid }
  have htaken : Answering (some (p, call.handle)) s t := by
    refine ⟨⟨[], (List.append_nil _).symm, nofun⟩, fun c hc _ => ?_⟩
    obtain rfl : PendingCall.mk p call.handle true = c := Option.some.inj hc
    rfl
  have hhandled : Answering (some (p, call.handle)) s u := by
    rcases hu with rfl | hinvoke
    · exact htaken
    · obtain ⟨calls, -, rfl⟩ := Option.map_eq_some_iff.mp hinvoke
      have hinvoked := htaken.log (a := .invoked p (t.peerState p) call) nofun
      exact hinvoked.micros (foldl_runApi_micros (callback_micros user env depth) calls _)
  have hend : Answering (some (p, call.handle)) s
      (if u.callStatus = .invalid then (serverSendAck env call.handle status u).2 else u) := by
    split
    · exact hhandled.micros (serverSendAck_micros call.handle status u)
    · exact hhandled
  have hdead : (callEnd env call.handle status u).NoCall := by
    intro c hc
    obtain ⟨c', -, rfl⟩ := Option.map_eq_some_iff.mp hc
    rfl
  refine ⟨hend.of_trace rfl fun c hc halive => ?_, hdead⟩
  rw [hdead c hc] at halive
  cases halive

/-- The call that a packet makes. -/
def ServerOp.whose : ServerOp → Option (ℕ × UInt16)
  | .packet p (.call call) => some (p, call.handle)
  | _ => none

lemma Answering.noCall {s₀ s : Server} (h : Answering none s₀ s) : s.NoCall := by
  intro call hcall
  by_contra halive
  have hnone := h.call call hcall (by simpa using halive)
  cases hnone

/-- Calls of the interface and packets acknowledge at most the call that the packet makes. -/
lemma answering_step {user : User} {env : Env} {depth : ℕ} {op : ServerOp} {s s' : Server}
    (hs : s.NoCall)
    (hop : (∃ a, op = .api a) ∨ ∃ p info, op = .packet p info)
    (hstep : serverStep user depth s (op, env) = some s') :
    Answering op.whose s s' ∧ s'.NoCall := by
  have hnone : ∀ {t : Server}, Answering none s t → Answering none s t ∧ t.NoCall :=
    fun h => ⟨h, h.noCall⟩
  rcases hop with ⟨a, rfl⟩ | ⟨p, info, rfl⟩
  · rw [serverStep_api hstep]
    exact hnone ((Answering.refl hs).micros (runApi_micros (callback_micros user env depth) a s))
  · obtain ⟨-, -, rfl⟩ := serverStep_packet hstep
    -- the peer may turn out to be gone
    have hround : ∀ {who : Option (ℕ × UInt16)} {t : Server} (again : Bool), Answering who s t ∧
        t.NoCall →
        Answering who s (if again = true ∧ (t.peer? p).isNone = true
          then t.crash .freedPeer else t) ∧
          (if again = true ∧ (t.peer? p).isNone = true then t.crash .freedPeer else t).NoCall := by
      intro who t again ht
      split
      · exact ⟨ht.1.of_trace rfl fun _ hc _ => hc, ht.2⟩
      · exact ht
    cases info with
    | call call => exact hround true answering_call
    | conreq req => exact hround _ (hnone ((Answering.refl hs).request user env depth p req))
    | _ => exact hround true (hnone (.refl hs))

/-! ## What the client keeps -/

namespace Client

variable {c : Client}

lemma unregisterCall_subset (call : ClientCall) (c : Client) :
    (c.unregisterCall call).callsHash ⊆ c.callsHash := by
  unfold unregisterCall
  split
  · exact List.filter_subset_self _
  · exact fun _ => id

lemma complete_subset (call : ClientCall) (status : UInt8) (c : Client) :
    (c.complete call status).callsHash ⊆ c.callsHash :=
  unregisterCall_subset call c

lemma foldl_subset {α : Type} {f : Client → α → Client}
    (hf : ∀ c a, (f c a).callsHash ⊆ c.callsHash) (l : List α)
    (c : Client) : (l.foldl f c).callsHash ⊆ c.callsHash := by
  induction l generalizing c with
  | nil => exact fun _ => id
  | cons a l ih => exact List.Subset.trans (ih (f c a)) (hf c a)

lemma addObject_subset (obj : Object) (c : Client) : (c.addObject obj).callsHash ⊆ c.callsHash := by
  unfold addObject
  split <;> exact fun _ => id

lemma removeObject_subset (obj : Option ObjectRef) (c : Client) :
    (c.removeObject obj).callsHash ⊆ c.callsHash := by
  have habort : (c.abortCall (obj.map ObjectRef.handle)).callsHash ⊆ c.callsHash :=
    foldl_subset (fun c call => complete_subset call _ c) _ c
  unfold removeObject
  cases obj with
  | none => exact habort
  | some o =>
    simp only
    split
    · exact habort
    · exact habort

/-- A packet brings no calls. -/
lemma packet_subset (info : PacketInfo) (c : Client) : (c.packet info).callsHash ⊆ c.callsHash := by
  cases info with
  | conresp status objects =>
    rw [packet, connectionResponse]
    split
    · exact fun _ => id
    · split
      · exact fun _ => id
      · exact foldl_subset (fun c o => addObject_subset o c) objects _
  | add obj => exact addObject_subset obj c
  | remove obj => exact removeObject_subset obj c
  | event e => exact fun _ => id
  | busEvent e =>
    have hadd := foldl_subset (fun c o => addObject_subset o c) e.addObjs c
    have hevent := foldl_subset (f := fun c v => c.event v) (fun _ _ _ => id) e.objEvents
      (e.addObjs.foldl (fun c o => c.addObject o) c)
    have hremove := foldl_subset (fun c o => removeObject_subset (some o) c) e.removeObjs
      (e.objEvents.foldl (fun c v => c.event v) (e.addObjs.foldl (fun c o => c.addObject o) c))
    exact List.Subset.trans hremove (List.Subset.trans hevent hadd)
  | ack a =>
    rw [packet, ack]
    split
    · exact fun _ => id
    · exact complete_subset _ _ c
  | conreq req => exact fun _ => id
  | call call => exact fun _ => id

/-- An acknowledgement is told to the call that is found under its handle, if there is one. -/
lemma ack_notified (a : Ack) (c : Client) :
    (c.ack a).notified = c.notified ∨
      ∃ call, (a.handle, call) ∈ c.callsHash ∧ (c.ack a).notified = c.notified ++
        [(call.id, a.status)] := by
  unfold ack
  cases hfound : c.call? a.handle with
  | none => exact .inl rfl
  | some call =>
    refine .inr ⟨call, ?_, ?_⟩
    · unfold call? at hfound
      split at hfound
      · cases hfound
      · obtain ⟨⟨key, call'⟩, hfind, rfl⟩ := Option.map_eq_some_iff.mp hfound
        have hkey : key = a.handle := by simpa using List.find?_some hfind
        exact hkey ▸ List.mem_of_find?_eq_some hfind
    · simp only [complete, callAckNotify, unregisterCall]
      split <;> rfl

/-- A call is made under the handle that was drawn, or nothing is sent and no call is kept. -/
lemma call_cases (req : CallReq) (c : Client) :
    ((c.call req).sent = c.sent ∧ (c.call req).callsHash ⊆ c.callsHash) ∨
      ∃ h obj, randHandle (fun h => c.callsHash.any (·.1 = h)) req.draws = some h ∧
        (c.call req).sent = c.sent ++ [.call ⟨obj, req.desc, h, req.args⟩] ∧
        (c.call req).callsHash = c.callsHash ++ [(h, ⟨c.nextCall, req.obj, h⟩)] := by
  have hfail : (c.giveBack false).sent = c.sent ∧ (c.giveBack false).callsHash ⊆ c.callsHash :=
    ⟨rfl, fun _ => id⟩
  unfold call
  split
  · exact .inl hfail
  · split
    · exact .inl hfail
    · next obj hobj =>
      split
      · exact .inl hfail
      · split
        · exact .inl hfail
        · split
          · exact .inl hfail
          · unfold registerCall
            cases hdraw : randHandle (fun h => c.callsHash.any (·.1 = h)) req.draws with
            | none => exact .inl hfail
            | some h =>
              simp only
              split
              · exact .inr ⟨h, obj.ref, rfl, rfl, rfl⟩
              · -- the new entry is the only one that is taken out again
                refine .inl ⟨?_, ?_⟩
                · simp only [giveBack, unregisterCall]
                  split <;> rfl
                · have hany : (c.callsHash ++ [(h, (⟨c.nextCall, req.obj, h⟩ : ClientCall))]).any
                      (·.1 = h) = true := by
                    simp
                  simp only [giveBack, unregisterCall, hany, if_true]
                  intro e he
                  obtain ⟨hin, hne⟩ := List.mem_filter.mp he
                  rcases List.mem_append.mp hin with hin | hin
                  · exact hin
                  · rw [List.mem_singleton.mp hin] at hne
                    simp at hne

end Client

/-! ## Handles on the way -/

/-- The pending call with a given handle, if there is one, is a given call. -/
def Client.Knows (c : Client) (handle : UInt16) (call : Option ℕ) : Prop :=
  ∀ e ∈ c.callsHash, e.1 = handle → call = some e.2.id

lemma Client.Knows.of_subset {c c' : Client} {handle : UInt16} {call : Option ℕ}
    (h : c.Knows handle call)
    (hsub : c'.callsHash ⊆ c.callsHash) : c'.Knows handle call := fun e he => h e (hsub he)

/-- What the handles on the way stand for: a pending call with the handle of a call or an
acknowledgement that is on the way is the call that the packet is marked with. -/
structure Link.Matched (l : Link) : Prop where
  calls : ∀ f ∈ l.up, ∀ c, f.info = .call c → l.client.Knows c.handle f.call
  acks : ∀ f ∈ l.down, ∀ a, f.info = .ack a →
    l.client.Knows a.handle f.call ∧ ∀ id, f.call = some id → (id, a.status) ∈ l.given
  idle : l.server.NoCall
  answered : ∀ r ∈ l.answered, r.sentFor = some r.call ∧ (r.call, r.status) ∈ l.given

/-- The handle by which a packet on the way refers to a call. -/
def Flying.handle? (f : Flying) : Option UInt16 :=
  match f.info with
  | .call c => some c.handle
  | .ack a => some a.handle
  | _ => none

/-- The handle that is drawn for a call is not that of a call or an acknowledgement that is on the
way. -/
def Link.FreshDraw (l : Link) : LinkOp → Prop
  | .call req => ∀ f ∈ l.up ++ l.down, f.handle?.isSome = true →
      f.handle? ≠ randHandle (fun h => l.client.callsHash.any (·.1 = h)) req.draws
  | _ => True

instance (l : Link) : ∀ op, Decidable (l.FreshDraw op)
  | .call _ => inferInstanceAs (Decidable (∀ f ∈ l.up ++ l.down, _ → _))
  | .api _ _ | .handle _ | .read => inferInstanceAs (Decidable True)

/-- Every status that the client was told by an acknowledgement is one that the server has sent for
the very call that was told. -/
def Link.OwnAnswers (l : Link) : Prop :=
  ∀ r ∈ l.answered, r.sentFor = some r.call ∧ (r.call, r.status) ∈ l.given

lemma arrive_ack {info : PacketInfo} {bus : Bus} {a : Ack} (h : info.arrive bus = .ok (.ack a)) :
    info = .ack a := by
  cases info with
  | ack b => simpa [PacketInfo.arrive] using h
  | conreq req => cases h
  | conresp status objects => cases h
  | remove obj => cases h
  | add obj =>
    simp only [PacketInfo.arrive, orNoent] at h
    split at h <;> cases h
  | busEvent e =>
    simp only [PacketInfo.arrive, orNoent] at h
    split at h <;> cases h
  | event e =>
    simp only [PacketInfo.arrive, orNoent] at h
    split at h <;> cases h
  | call c =>
    simp only [PacketInfo.arrive, orNoent] at h
    split at h <;> cases h

/-- A call arrives under its handle. -/
lemma arrive_call {info : PacketInfo} {bus : Bus} {c : Call} (h : info.arrive bus = .ok (.call c)) :
    ∃ c₀, info = .call c₀ ∧ c₀.handle = c.handle := by
  cases info with
  | call c₀ =>
    refine ⟨c₀, rfl, ?_⟩
    simp only [PacketInfo.arrive, orNoent] at h
    split at h
    · next c' harrive =>
      cases h
      obtain ⟨x, -, rfl⟩ := Option.map_eq_some_iff.mp harrive
      rfl
    · cases h
  | ack a => cases h
  | conreq req => cases h
  | conresp status objects => cases h
  | remove obj => cases h
  | add obj =>
    simp only [PacketInfo.arrive, orNoent] at h
    split at h <;> cases h
  | busEvent e =>
    simp only [PacketInfo.arrive, orNoent] at h
    split at h <;> cases h
  | event e =>
    simp only [PacketInfo.arrive, orNoent] at h
    split at h <;> cases h

namespace Link.Matched

variable {l : Link} {user : User} {depth : ℕ}

/-- What the server has sent in handling a call is marked with the call. -/
lemma told (h : l.Matched) {op : ServerOp} {s : Server} (call : Option ℕ)
    (hs : Answering op.whose l.server s ∧ s.NoCall)
    (hwhose : ∀ who, op.whose = some who → l.client.Knows who.2 call) :
    (l.told call s).Matched := by
  obtain ⟨as, htrace, has⟩ := hs.1.trace
  have hnew : (inbox 0 s.trace).drop (inbox 0 l.server.trace).length = inbox 0 as := by
    rw [htrace, inbox_append, List.drop_left]
  refine ⟨h.calls, ?_, hs.2,
    fun r hr => ⟨(h.answered r hr).1, List.mem_append_left _ (h.answered r hr).2⟩⟩
  intro f hf a ha
  simp only [Link.told, hnew] at hf ⊢
  rcases List.mem_append.mp hf with hf | hf
  · exact ⟨(h.acks f hf a ha).1, fun id hid => List.mem_append_left _ ((h.acks f hf a ha).2 id hid)⟩
  · obtain ⟨info, hinfo, rfl⟩ := List.mem_map.mp hf
    obtain rfl : info = .ack a := ha
    -- the acknowledgement is one of those that were sent since
    have hack : (0, a) ∈ Obus.acks as := by
      obtain ⟨act, hact, heq⟩ := List.mem_filterMap.mp hinfo
      refine List.mem_filterMap.mpr ⟨act, hact, ?_⟩
      cases act with
      | sent q st info =>
        simp only at heq
        split at heq
        · next hq =>
          cases heq
          rw [hq]
        · cases heq
      | _ => cases heq
    refine ⟨hwhose _ (has _ hack), fun id hid => List.mem_append_right _ ?_⟩
    refine List.mem_filterMap.mpr ⟨_, hinfo, ?_⟩
    simp only at hid ⊢
    rw [hid]
    rfl

/-- A packet on the way to the server is handled or dropped. -/
lemma of_up (h : l.Matched) {up : List Flying} (hup : up ⊆ l.up) :
    ({ l with up := up } : Link).Matched :=
  ⟨fun f hf => h.calls f (hup hf), h.acks, h.idle, h.answered⟩

lemma of_down (h : l.Matched) {down : List Flying} (hdown : down ⊆ l.down) :
    ({ l with down := down } : Link).Matched :=
  ⟨h.calls, fun f hf => h.acks f (hdown hf), h.idle, h.answered⟩

/-- The client makes a call under a handle that is not on the way. -/
lemma called (h : l.Matched) {req : Client.CallReq} (hfresh : l.FreshDraw (.call req)) :
    (l.called (l.client.call req)).Matched := by
  rcases Client.call_cases req l.client with ⟨hsent, hsub⟩ | ⟨handle, obj, hdraw, hsent, hhash⟩
  · refine ⟨fun f hf c hc => ?_, fun f hf a ha => ?_, h.idle, h.answered⟩
    · simp only [Link.called, hsent, List.drop_length, List.map_nil, List.append_nil] at hf
      exact (h.calls f hf c hc).of_subset hsub
    · exact ⟨(h.acks f hf a ha).1.of_subset hsub, (h.acks f hf a ha).2⟩
  · have hcalls : ∀ f ∈ l.up, ∀ c, f.info = .call c → c.handle ≠ handle := by
      rintro ⟨-, call⟩ hf c rfl rfl
      exact hfresh _ (List.mem_append_left _ hf) rfl hdraw.symm
    have hacks : ∀ f ∈ l.down, ∀ a, f.info = .ack a → a.handle ≠ handle := by
      rintro ⟨-, call⟩ hf a rfl rfl
      exact hfresh _ (List.mem_append_right _ hf) rfl hdraw.symm
    -- a handle that is on the way is not that of the new call
    have hkeep : ∀ {handle' : UInt16} {call : Option ℕ}, handle' ≠ handle →
        l.client.Knows handle' call →
        (l.client.call req).Knows handle' call := by
      intro handle' call hne hknows e he heq
      rw [hhash] at he
      rcases List.mem_append.mp he with he | he
      · exact hknows e he heq
      · rw [List.mem_singleton.mp he] at heq
        exact absurd heq.symm hne
    refine ⟨fun f hf c hc => ?_, fun f hf a ha => ?_, h.idle, h.answered⟩
    · simp only [Link.called, hsent, List.drop_left, List.map_cons, List.map_nil] at hf
      rcases List.mem_append.mp hf with hf | hf
      · exact hkeep (hcalls f hf c hc) (h.calls f hf c hc)
      · obtain rfl := List.mem_singleton.mp hf
        cases hc
        intro e he heq
        rw [Link.called, hhash] at he
        rcases List.mem_append.mp he with he | he
        · -- the handle that was drawn is not used by a pending call
          have hfree := (randHandle_spec hdraw).2
          rw [List.any_eq_false] at hfree
          exact absurd (by simpa using heq) (hfree e he)
        · rw [List.mem_singleton.mp he]
    · exact ⟨hkeep (hacks f hf a ha) (h.acks f hf a ha).1, (h.acks f hf a ha).2⟩

/-- The client reads a packet; a status that it is told is that of the call that the packet is
marked with. -/
lemma heard (h : l.Matched) {f : Flying} (hf : f ∈ l.down) {info : PacketInfo}
    (harrive : f.info.arrive l.client.bus = .ok info) :
    (l.heard f.call info (l.client.packet info)).Matched := by
  have hsub := Client.packet_subset info l.client
  refine ⟨fun g hg c hc => (h.calls g hg c hc).of_subset hsub,
    fun g hg a ha => ⟨(h.acks g hg a ha).1.of_subset hsub, (h.acks g hg a ha).2⟩, h.idle,
      fun r hr => ?_⟩
  rcases List.mem_append.mp hr with hr | hr
  · exact h.answered r hr
  · obtain ⟨n, hn, rfl⟩ := List.mem_map.mp hr
    cases info with
    | ack a =>
      rw [if_pos (show (PacketInfo.ack a).type = .ack from rfl)] at hn
      obtain ⟨hknows, hgiven⟩ := h.acks f hf a (arrive_ack harrive)
      rcases l.client.ack_notified a with hsame | ⟨call, hcall, hnew⟩
      · rw [Client.packet, hsame, List.drop_length] at hn
        cases hn
      · rw [Client.packet, hnew, List.drop_left] at hn
        obtain rfl := List.mem_singleton.mp hn
        have hmark := hknows _ hcall rfl
        exact ⟨hmark, hgiven _ hmark⟩
    | _ => cases hn

lemma step {l' : Link} {op : LinkOp} (h : l.Matched) (hfresh : l.FreshDraw op)
    (hstep : linkStep user depth l op = some l') : l'.Matched := by
  have hclient : ∀ {c' : Client} {cop : ClientOp}, clientStep l.client cop = some c' →
      l.client.fault = false := by
    intro c' cop hc
    unfold clientStep at hc
    split at hc
    · cases hc
    · next hfault => simpa using hfault
  cases op with
  | call req =>
    obtain ⟨c, hc, rfl⟩ := Option.map_eq_some_iff.mp hstep
    have hfault := hclient hc
    simp only [clientStep, hfault, Bool.false_eq_true, if_false, Option.some.injEq] at hc
    rw [← hc]
    exact h.called hfresh
  | api a env =>
    obtain ⟨s, hs, rfl⟩ := Option.map_eq_some_iff.mp hstep
    exact h.told none (answering_step h.idle (.inl ⟨a, rfl⟩) hs) (by rintro _ ⟨⟩)
  | handle env =>
    simp only [linkStep] at hstep
    split at hstep
    · cases hstep
    · next f up hup =>
      have hrest : up ⊆ l.up := hup ▸ List.subset_cons_self f up
      split at hstep
      · cases hstep
        exact h.of_up hrest
      · next info harrive =>
        obtain ⟨s, hs, rfl⟩ := Option.map_eq_some_iff.mp hstep
        have htold :=
          h.told f.call (answering_step h.idle (.inr ⟨0, info, rfl⟩) hs) fun who hwho => by
          cases info with
          | call c =>
            cases hwho
            obtain ⟨c₀, hc₀, hhandle⟩ := arrive_call harrive
            exact hhandle ▸ h.calls f (hup ▸ List.mem_cons_self) c₀ hc₀
          | _ => cases hwho
        exact htold.of_up hrest
  | read =>
    simp only [linkStep] at hstep
    split at hstep
    · cases hstep
    · next f down hdown =>
      have hrest : down ⊆ l.down := hdown ▸ List.subset_cons_self f down
      split at hstep
      · cases hstep
        exact h.of_down hrest
      · next info harrive =>
        obtain ⟨c, hc, rfl⟩ := Option.map_eq_some_iff.mp hstep
        have hfault := hclient hc
        simp only [clientStep, hfault, Bool.false_eq_true, if_false, Option.some.injEq] at hc
        rw [← hc]
        exact (h.heard (hdown ▸ List.mem_cons_self) harrive).of_down hrest

end Link.Matched

/-- In every run in which no handle is drawn for a call while a call or an acknowledgement with that
handle is still on the way, every status that the client is told by an acknowledgement was sent for
the call that it is told to. -/
theorem answers_are_own (user : User) (depth : ℕ) (api : BusDesc) (req : Conreq) (ops : List LinkOp)
    (l : Link) (hfresh : MeetsAll (linkStep user depth) Link.FreshDraw ops (linkNew api req))
    (hrun : runs (linkStep user depth) ops (linkNew api req) = some l) : l.OwnAnswers := by
  have hnew : (linkNew api req).Matched := by
    refine ⟨?_, nofun, nofun, nofun⟩
    intro f _ c _ e he
    cases he
  have hmatched : l.Matched :=
    runs_invariant (fun _ _ _ h hC hstep => h.step hC hstep) hnew hfresh hrun
  exact hmatched.answered

/-- The arguments of a call of the method of an object, with a handle that is drawn first. -/
def linkCall (obj handle : UInt16) : Client.CallReq :=
  ⟨obj, ⟨2, none⟩, none, true, [handle], true, true, true⟩

/-- Two objects have the method.  A call on the first is on the way when this object is
unregistered, and refused; the client hears of the object first, and then makes a call on the second
with a given handle. -/
def swapped (handle : UInt16) : List LinkOp :=
  [.api (.newObject methodDesc (some enabledInfo) [7]) fairEnv,
    .api (.newObject methodDesc (some enabledInfo) [8]) fairEnv,
    .api (.registerObject 7) fairEnv, .api (.registerObject 8) fairEnv, .handle fairEnv, .read,
    .call (linkCall 7 5), .api (.unregisterObject 7) fairEnv, .handle fairEnv, .read,
      .call (linkCall 8 handle)]

theorem answers_are_own_swapped :
    ∃ l, runs (linkStep idleHandler 0) (swapped 6 ++ [.read, .handle fairEnv, .read])
        (linkNew methodApi methodRequest) = some l ∧
      l.answered = [⟨1, 6, some 1⟩] ∧ l.client.notified = [(0, 2), (1, 6)] ∧ l.OwnAnswers := by
  obtain ⟨l, hrun⟩ : ∃ l, runs (linkStep idleHandler 0)
    (swapped 6 ++ [.read, .handle fairEnv, .read])
      (linkNew methodApi methodRequest) = some l := ⟨_, rfl⟩
  have hfresh : MeetsAll (linkStep idleHandler 0) Link.FreshDraw
      (swapped 6 ++ [.read, .handle fairEnv, .read])
      (linkNew methodApi methodRequest) := by decide +kernel
  have hown := answers_are_own idleHandler 0 methodApi methodRequest _ l hfresh hrun
  refine ⟨l, hrun, ?_, ?_, hown⟩
  · cases hrun
    decide +kernel
  · cases hrun
    decide +kernel

/-- The handle of a call that was aborted is drawn again while its acknowledgement is on the way:
the status of the first call is told to the second, which the server has not even handled. -/
theorem answer_of_earlier_call :
    ∃ l, runs (linkStep idleHandler 0) (swapped 5 ++ [.read])
      (linkNew methodApi methodRequest) = some l ∧
      l.answered = [⟨1, 2, some 0⟩] ∧ l.given = [(0, 2)] ∧ ¬l.OwnAnswers := by
  obtain ⟨l, hrun⟩ : ∃ l, runs (linkStep idleHandler 0) (swapped 5 ++ [.read])
      (linkNew methodApi methodRequest) = some l := ⟨_, rfl⟩
  have hanswered : l.answered = [⟨1, 2, some 0⟩] := by
    cases hrun
    decide +kernel
  have hgiven : l.given = [(0, 2)] := by
    cases hrun
    decide +kernel
  refine ⟨l, hrun, hanswered, hgiven, fun hown => ?_⟩
  have hfirst := (hown ⟨1, 2, some 0⟩ (by rw [hanswered]; exact List.mem_singleton_self _)).1
  cases hfirst

end Obus
