import Obus.Broadcast

/-!
# Agreement

A peer that the server has accepted follows it (`Follows`): the response to its request carried the
registered objects, everything that was broadcast to it since is what the server has done to its own
objects since, in the same order, and each packet fits what came before.  A client that reads all of
it has the list of registered objects of the server (`Follows.read`).

`Aligned` says that all connected peers follow the server.  It is kept by every step of a server
whose user leaves broadcasts alone, as long as buffers can be had: `surviving_peers_agree`.  Writes
may fail at any time.
-/

namespace Obus

/-! ## Sequences of packets -/

/-- Each packet fits the list that the packets before it make. -/
def FitsAll (api : BusDesc) : List Object → List PacketInfo → Prop
  | _, [] => True
  | l, info :: infos => info.Fits api l ∧ FitsAll api (info.apply l) infos

/-- The changes that packets stand for. -/
def applyAll (infos : List PacketInfo) (l : List Object) : List Object :=
  infos.foldl (fun l info => info.apply l) l

lemma applyAll_append (as bs : List PacketInfo) (l : List Object) :
    applyAll (as ++ bs) l = applyAll bs (applyAll as l) := List.foldl_append

lemma FitsAll.append {api : BusDesc} {l : List Object} {as bs : List PacketInfo}
    (ha : FitsAll api l as) (hb : FitsAll api (applyAll as l) bs) : FitsAll api l (as ++ bs) := by
  induction as generalizing l with
  | nil => exact hb
  | cons a as ih => exact ⟨ha.1, ih ha.2 hb⟩

/-- The list of objects that a connection response brings. -/
def snapshot (objects : List Object) : List Object := objects.foldl (fun l o => applyAdd o l) []

lemma snapshot_eq (objects : List Object) : snapshot objects = objects.map Object.canon := by
  have hall : ∀ l : List Object, objects.foldl (fun l o => applyAdd o l) l = l ++
      objects.map Object.canon := by
    induction objects with
    | nil => simp
    | cons o objects ih =>
      intro l
      rw [List.foldl_cons, ih, applyAdd, List.map_cons, List.append_assoc]
      rfl
  exact hall []

/-! ## Following the server -/

/-- What was sent to a peer before and after the response that accepts it, and what the server has
done since. -/
structure FollowsFrom (api : BusDesc) (p : ℕ) (objects : List Object) (early late : List Action)
    (l : List Object) : Prop where
  acks : ∀ info ∈ inbox p early, info.type = .ack
  once : ∀ info ∈ inbox p late, info.type ≠ .conresp
  order : heard p late = commits late
  adds : Adds api objects []
  fits : FitsAll api (snapshot objects) (commits late)
  replica : applyAll (commits late) (snapshot objects) = l

/-- A peer can follow the server to a list of objects. -/
def Follows (api : BusDesc) (p : ℕ) (trace : List Action) (l : List Object) : Prop :=
  ∃ early state objects late, trace = early ++ .sent p state (.conresp .accepted objects) :: late ∧
    FollowsFrom api p objects early late l

/-- A peer goes on following if it hears what the server does. -/
lemma Follows.append {api : BusDesc} {p : ℕ} {trace new : List Action} {l : List Object}
    (h : Follows api p trace l) (hconresp : ∀ info ∈ inbox p new, info.type ≠ .conresp)
    (horder : heard p new = commits new) (hfits : FitsAll api l (commits new)) :
    Follows api p (trace ++ new) (applyAll (commits new) l) := by
  obtain ⟨early, state, objects, late, rfl, hfrom⟩ := h
  refine ⟨early, state, objects, late ++ new, by rw [List.append_assoc, List.cons_append],
    hfrom.acks, ?_, ?_,
    hfrom.adds, ?_, ?_⟩
  · intro info hinfo
    rw [inbox_append] at hinfo
    rcases List.mem_append.mp hinfo with hold | hnew
    · exact hfrom.once info hold
    · exact hconresp info hnew
  · rw [heard_append, commits_append, hfrom.order, horder]
  · rw [commits_append]
    refine hfrom.fits.append ?_
    rwa [hfrom.replica]
  · rw [commits_append, applyAll_append, hfrom.replica]

/-- A client that reads packets and acknowledgements makes the changes that the packets stand for.
-/
lemma Tidy.reads {api : BusDesc} (hapi : api.Ok) {c : Client} (h : Tidy api c)
    {infos : List PacketInfo} (hconresp : ∀ info ∈ infos, info.type ≠ .conresp)
    (hfits : FitsAll api c.bus.replica (infos.filter fun info => info.type.IsNews))
    (hlen : ∀ info ∈ infos, info.bytes.length < 2 ^ 32) :
    Tidy api (infos.foldl (fun c info => c.read info) c) ∧
      (infos.foldl (fun c info => c.read info) c).bus.replica =
        applyAll (infos.filter fun info => info.type.IsNews) c.bus.replica ∧
        ∀ info ∈ infos, info.Ok := by
  induction infos generalizing c with
  | nil => exact ⟨h, rfl, nofun⟩
  | cons info infos ih =>
    have hlen' := hlen info List.mem_cons_self
    have hnot := hconresp info List.mem_cons_self
    have hrest : ∀ i ∈ infos, i.type ≠ .conresp :=
      fun i hi => hconresp i (List.mem_cons_of_mem info hi)
    have hlens : ∀ i ∈ infos, i.bytes.length < 2 ^ 32 :=
      fun i hi => hlen i (List.mem_cons_of_mem info hi)
    by_cases hnews : info.type.IsNews
    · rw [List.filter_cons_of_pos (by simpa using hnews)] at hfits ⊢
      obtain ⟨-, htidy, hreplica⟩ := h.read hapi _ hfits.1 (fun heq => absurd heq hnot) hlen'
      have hnext := ih htidy hrest (by rw [hreplica]; exact hfits.2) hlens
      rw [hreplica] at hnext
      exact ⟨hnext.1, hnext.2.1, List.forall_mem_cons.mpr
        ⟨h.ok_of_fits hapi hfits.1 hlen', hnext.2.2⟩⟩
    · rw [List.filter_cons_of_neg (by simpa using hnews)] at hfits ⊢
      -- what is neither broadcast nor a response is an acknowledgement, which changes no object
      have hack : info.type = .ack := by
        by_contra hne
        exact hnews ⟨hnot, hne⟩
      obtain ⟨a, rfl⟩ : ∃ a, info = .ack a := by
        cases info with
        | ack a => exact ⟨a, rfl⟩
        | _ => cases hack
      obtain ⟨-, htidy, hreplica⟩ := h.read hapi (.ack a) trivial nofun hlen'
      have hnext := ih htidy hrest (by rw [hreplica]; exact hfits) hlens
      rw [hreplica] at hnext
      exact ⟨hnext.1, hnext.2.1, List.forall_mem_cons.mpr ⟨trivial, hnext.2.2⟩⟩

/-- A client that waits to be accepted ignores acknowledgements. -/
lemma Tidy.reads_acks {api : BusDesc} (hapi : api.Ok) {c : Client} (h : Tidy api c)
    {infos : List PacketInfo} (hack : ∀ info ∈ infos, info.type = .ack) :
    Tidy api (infos.foldl (fun c info => c.read info) c) ∧
      (infos.foldl (fun c info => c.read info) c).bus.replica = c.bus.replica ∧
      (infos.foldl (fun c info => c.read info) c).state = c.state := by
  induction infos generalizing c with
  | nil => exact ⟨h, rfl, rfl⟩
  | cons info infos ih =>
    obtain ⟨a, rfl⟩ : ∃ a, info = .ack a := by
      have htype := hack info List.mem_cons_self
      cases info with
      | ack a => exact ⟨a, rfl⟩
      | _ => cases htype
    have hlen : (PacketInfo.ack a).bytes.length < 2 ^ 32 := by
      simp [PacketInfo.bytes_length, PacketInfo.bodyBytes, pktHdrSize]
    obtain ⟨hread, htidy, hreplica⟩ := h.read hapi (.ack a) trivial (by rintro ⟨⟩) hlen
    have hstate : (c.read (.ack a)).state = c.state := by
      rw [hread]
      change (c.ack a).state = c.state
      unfold Client.ack
      split
      · rfl
      · exact (Client.complete_frame _ _ _).2
    obtain ⟨htidy', hreplica', hstate'⟩ := ih htidy fun i hi => hack i (List.mem_cons_of_mem _ hi)
    exact ⟨htidy', hreplica'.trans hreplica, hstate'.trans hstate⟩

/-- A client that reads everything that was sent to it has the objects of the server. -/
lemma Follows.read {api : BusDesc} (hapi : api.Ok) {p : ℕ} {trace : List Action} {l : List Object}
    (h : Follows api p trace l) {c : Client} (hc : Tidy api c) (hstate : c.state = .connecting)
    (hempty : c.bus.replica = []) (hlen : ∀ info ∈ inbox p trace, info.bytes.length < 2 ^ 32) :
    Tidy api ((inbox p trace).foldl (fun c info => c.read info) c) ∧
      ((inbox p trace).foldl (fun c info => c.read info) c).bus.replica = l ∧
      ∀ info ∈ inbox p trace, info.Ok := by
  obtain ⟨early, state, objects, late, rfl, hfrom⟩ := h
  have hinbox : inbox p (early ++ .sent p state (.conresp .accepted objects) :: late) =
      inbox p early ++ (.conresp .accepted objects :: inbox p late) := by
    rw [inbox_append, ← List.singleton_append, inbox_append, inbox_sent, if_pos rfl]
    rfl
  rw [hinbox] at hlen ⊢
  rw [List.foldl_append, List.foldl_cons]
  obtain ⟨htidy, hreplica, hstate'⟩ := hc.reads_acks hapi hfrom.acks
  rw [hempty] at hreplica
  have hshort := hlen _ (List.mem_append_right _ List.mem_cons_self)
  have hresponse : (PacketInfo.conresp .accepted objects).Fits api
      ((inbox p early).foldl (fun c info => c.read info) c).bus.replica :=
    ⟨rfl, by rw [hreplica]; exact hfrom.adds⟩
  obtain ⟨-, htidy', hreplica'⟩ :=
    htidy.read hapi (.conresp .accepted objects) hresponse (fun _ => hstate'.trans hstate) hshort
  have hok := htidy.ok_of_fits hapi hresponse hshort
  rw [hreplica] at hreplica'
  have hfits := hfrom.fits
  rw [← hfrom.order] at hfits
  obtain ⟨hend, hlate, hoks⟩ := htidy'.reads hapi hfrom.once (by rw [hreplica']; exact hfits)
    fun info hinfo => hlen info (List.mem_append_right _ (List.mem_cons_of_mem _ hinfo))
  refine ⟨hend, ?_, fun info hinfo => ?_⟩
  · rw [hlate, hreplica', ← hfrom.replica, ← hfrom.order]
    rfl
  · rcases List.mem_append.mp hinfo with hearly | hinfo
    · have htype := hfrom.acks info hearly
      cases info with
      | ack a => trivial
      | _ => cases htype
    · rcases List.mem_cons.mp hinfo with rfl | hlater
      · exact hok
      · exact hoks info hlater

/-! ## All peers -/

/-- Outside of broadcasts: every connected peer follows the server, and a peer that is not answered
yet was sent acknowledgements at most. -/
structure Aligned (api : BusDesc) (s : Server) : Prop where
  bus : ServerBus api s.bus
  walking : s.walking = 0
  counted : s.Counted
  fresh : ∀ q ∈ s.peers, q.id < s.nextPeer
  strangers : ∀ q, s.nextPeer ≤ q → inbox q s.trace = []
  waiting : ∀ q, s.peerState q = .idle ∨ s.peerState q = .connecting → ∀ info ∈ inbox q s.trace,
  info.type = .ack
  follows : ∀ q, s.peerState q = .connected → Follows api q s.trace s.bus.replica
  cursor : s.fault ≠ some .freedCursor

/-- A change that no peer has to hear of: nobody is connected anew or waits for an answer again, and
only acknowledgements are sent. -/
structure Tacit (s t : Server) : Prop where
  walking : t.walking = s.walking
  counted : s.Counted → t.Counted
  nextPeer : t.nextPeer = s.nextPeer
  ids : ∀ x ∈ t.peers.map Peer.id, x ∈ s.peers.map Peer.id
  connected : ∀ q, t.peerState q = .connected → s.peerState q = .connected
  waiting : ∀ q, t.peerState q = .idle ∨ t.peerState q = .connecting →
    s.peerState q = .idle ∨ s.peerState q = .connecting
  trace : ∃ as, t.trace = s.trace ++ as ∧ commits as = [] ∧
    ∀ q, ∀ info ∈ inbox q as, info.type = .ack ∧ (s.peer? q).isSome = true
  cursor : t.fault = some .freedCursor → s.fault = some .freedCursor

namespace Tacit

variable {s t : Server} {p : ℕ}

/-- A change that does not touch the peers and sends nothing. -/
lemma of_peers (hpeers : t.peers = s.peers) (hcount : t.nPeersConnected = s.nPeersConnected)
    (hwalking : t.walking = s.walking) (hnext : t.nextPeer = s.nextPeer)
    (htrace : ∃ as, t.trace = s.trace ++ as ∧ commits as = [] ∧ ∀ q, inbox q as = [])
    (hcursor : t.fault = some .freedCursor → s.fault = some .freedCursor) : Tacit s t where
  walking := hwalking
  counted h := ⟨by rw [hcount, hpeers]; exact h.count, by rw [hpeers]; exact h.ids⟩
  nextPeer := hnext
  ids := by
    rw [hpeers]
    exact fun _ => id
  connected q := by
    rw [Server.peerState, Server.peer?, hpeers]
    exact id
  waiting q := by
    rw [Server.peerState, Server.peer?, hpeers]
    exact id
  trace := by
    obtain ⟨as, htrace, hcommits, hinbox⟩ := htrace
    refine ⟨as, htrace, hcommits, fun q info hinfo => ?_⟩
    rw [hinbox q] at hinfo
    cases hinfo
  cursor := hcursor

/-- The record of something that is neither a change nor a packet. -/
lemma log (s : Server) {a : Action} (hcommits : commits [a] = []) (hinbox : ∀ q, inbox q [a] = []) :
    Tacit s (s.log a) := of_peers rfl rfl rfl rfl ⟨[a], rfl, hcommits, hinbox⟩ id

lemma crash (s : Server) {f : Fault} (hf : f ≠ .freedCursor) : Tacit s (s.crash f) :=
  of_peers rfl rfl rfl rfl ⟨[], (List.append_nil _).symm, rfl, fun _ => rfl⟩
    fun h => absurd (Option.some.inj h) hf

/-- A change of the state of a peer that is not connected. -/
lemma setState (hp : s.peerState p ≠ .connected) {st : PeerState} (hst : st ≠ .connected)
    (hwait : st = .idle ∨ st = .connecting → s.peerState p = .idle ∨ s.peerState p = .connecting) :
    Tacit s (s.setState p st) where
  walking := rfl
  counted h := by
    refine ⟨?_, by rw [Server.setState_ids]; exact h.ids⟩
    change s.nPeersConnected = _
    rw [h.count]
    cases hpeer : s.peer? p with
    | none =>
      have habsent := Server.peer?_eq_none_iff.mp hpeer
      have hsame : (s.setState p st).peers = s.peers := by
        refine (List.map_congr_left fun q hq => if_neg ?_).trans (List.map_id _)
        exact fun heq => habsent (heq ▸ List.mem_map_of_mem hq)
      rw [hsame]
    | some peer =>
      have hcount := Server.countP_setState h.ids hpeer st
      rw [Server.peerState_of_peer? hpeer] at hp
      rw [if_neg hp, if_neg hst] at hcount
      exact hcount.symm
  nextPeer := rfl
  ids := by
    rw [Server.setState_ids]
    exact fun _ => id
  connected q hq := by
    by_cases heq : q = p
    · subst heq
      have hsome := Server.peer?_isSome_of_ne_disconnected (p := q) (s := s.setState q st)
        (by rw [hq]; decide)
      rw [Server.peer?_setState, Option.isSome_map] at hsome
      exact absurd ((Server.peerState_setState_self hsome).symm.trans hq) hst
    · rwa [Server.peerState_setState_of_ne heq] at hq
  waiting q hq := by
    by_cases heq : q = p
    · subst heq
      have hsome := Server.peer?_isSome_of_ne_disconnected (p := q) (s := s.setState q st)
        (by rcases hq with hq | hq <;> rw [hq] <;> decide)
      rw [Server.peer?_setState, Option.isSome_map] at hsome
      rw [Server.peerState_setState_self hsome] at hq
      exact hwait hq
    · rwa [Server.peerState_setState_of_ne heq] at hq
  trace := ⟨[], (List.append_nil _).symm, rfl, nofun⟩
  cursor := id

/-- A connected peer is disconnected. -/
lemma disconnect (hp : s.peerState p = .connected) :
    Tacit s { s.setState p .disconnected with nPeersConnected := s.nPeersConnected - 1 } where
  walking := rfl
  counted h := by
    obtain ⟨peer, hpeer⟩ := Option.isSome_iff_exists.mp
      (Server.peer?_isSome_of_ne_disconnected (s := s) (p := p) (by rw [hp]; decide))
    have hcount := Server.countP_setState h.ids hpeer .disconnected
    rw [Server.peerState_of_peer? hpeer] at hp
    rw [if_pos hp, if_neg (by decide), ← h.count] at hcount
    refine ⟨?_, by rw [Server.setState_ids]; exact h.ids⟩
    change s.nPeersConnected - 1 = (s.setState p .disconnected).peers.countP _
    omega
  nextPeer := rfl
  ids := by
    rw [Server.setState_ids]
    exact fun _ => id
  connected q hq := by
    change (s.setState p .disconnected).peerState q = _ at hq
    by_cases heq : q = p
    · rwa [heq]
    · rwa [Server.peerState_setState_of_ne heq] at hq
  waiting q hq := by
    change (s.setState p .disconnected).peerState q = _ ∨
        (s.setState p .disconnected).peerState q = _ at hq
    have hsome := Server.peer?_isSome_of_ne_disconnected (p := p) (s := s) (by rw [hp]; decide)
    by_cases heq : q = p
    · subst heq
      rw [Server.peerState_setState_self hsome] at hq
      rcases hq with hq | hq <;> cases hq
    · rwa [Server.peerState_setState_of_ne heq] at hq
  trace := ⟨[], (List.append_nil _).symm, rfl, nofun⟩
  cursor := id

/-- A peer that is not connected is removed. -/
lemma remove (hp : s.peerState p ≠ .connected) :
    Tacit s ({ s with peers := s.peers.filter (·.id ≠ p) }.log (.destroyed p)) where
  walking := rfl
  counted h := by
    refine ⟨?_, h.ids.sublist (List.filter_sublist.map _)⟩
    change s.nPeersConnected = (s.peers.filter (·.id ≠ p)).countP _
    rw [h.count]
    cases hpeer : s.peer? p with
    | none =>
      have habsent := Server.peer?_eq_none_iff.mp hpeer
      have hsame : s.peers.filter (·.id ≠ p) = s.peers := by
        refine List.filter_eq_self.mpr fun q hq => ?_
        simp only [ne_eq, decide_not, Bool.not_eq_true', decide_eq_false_iff_not]
        exact fun heq => habsent (heq ▸ List.mem_map_of_mem hq)
      rw [hsame]
    | some peer =>
      rw [Server.peerState_of_peer? hpeer] at hp
      rw [Server.countP_connected h.ids hpeer, if_neg hp, Nat.add_zero]
  nextPeer := rfl
  ids := fun x hx => (List.filter_sublist.map Peer.id).subset hx
  connected q hq := by
    change ({ s with peers := s.peers.filter (·.id ≠ p) } : Server).peerState q = _ at hq
    rw [Server.peerState_filter] at hq
    split at hq
    · cases hq
    · exact hq
  waiting q hq := by
    change ({ s with peers := s.peers.filter (·.id ≠ p) } : Server).peerState q = _ ∨
      ({ s with peers := s.peers.filter (·.id ≠ p) } : Server).peerState q = _ at hq
    rw [Server.peerState_filter] at hq
    split at hq
    · rcases hq with hq | hq <;> cases hq
    · exact hq
  trace := ⟨[.destroyed p], rfl, rfl, nofun⟩
  cursor := id

/-- The name of a peer is set. -/
lemma named (s : Server) (p : ℕ) {f : Peer → Peer} (hid : ∀ q, (f q).id = q.id)
    (hstate : ∀ q, (f q).state = q.state) : Tacit s (s.modifyPeer p f) where
  walking := rfl
  counted h := by
    refine ⟨h.count.trans ?_, by rw [Server.modifyPeer_ids hid]; exact h.ids⟩
    rw [Server.modifyPeer, List.countP_map]
    refine List.countP_congr fun q _ => ?_
    simp only [Function.comp_apply]
    split
    · rw [hstate]
    · rfl
  nextPeer := rfl
  ids := by
    rw [Server.modifyPeer_ids hid]
    exact fun _ => id
  connected q := by
    rw [Server.peerState_modifyPeer hid hstate]
    exact id
  waiting q := by
    rw [Server.peerState_modifyPeer hid hstate]
    exact id
  trace := ⟨[], (List.append_nil _).symm, rfl, nofun⟩
  cursor := id

end Tacit

/-! ## The calls of the user -/

/-- A call of the interface with arguments that were made for the bus: descriptors are those of the
bus, structs are as they say, and no event was sent before. -/
def Api.Valid (api : BusDesc) : Api → Prop
  | .newObject desc info _ =>
    desc ∈ api.objects ∧ ∀ st ∈ info, ∀ f ∈ st, f.has = true → f.desc.type.Ok f.val
  | .sendEvent v => v.Built ∧ v.isCommitted = false
  | .sendBusEvent e => e.Built api ∧ ∀ v ∈ e.objEvents, v.isCommitted = false
  | _ => True

/-- The callbacks of a user make such calls. -/
structure User.Valid (api : BusDesc) (user : User) : Prop where
  onPeer : ∀ event p s, ∀ a ∈ user.onPeer event p s, a.Valid api
  onCall : ∀ p call s, ∀ calls ∈ user.onCall p call s, ∀ a ∈ calls, a.Valid api

/-- The changes of a bus event are those of its packet if its events are new. -/
lemma foldl_applyCommit {events : List OwnEvent} (hnew : ∀ v ∈ events, v.isCommitted = false)
    (l : List Object) : events.foldl (fun l v => v.applyCommit l) l =
      (events.map OwnEvent.event).foldl (fun l v => applyEvent v l) l := by
  induction events generalizing l with
  | nil => rfl
  | cons v events ih =>
    have hv : v.applyCommit l = applyEvent v.event l := by
      rw [OwnEvent.applyCommit, hnew v List.mem_cons_self]
      rfl
    rw [List.foldl_cons, hv]
    exact ih (fun w hw => hnew w (List.mem_cons_of_mem v hw)) _

namespace Aligned

variable {api : BusDesc} {env : Env} {notify : Notify} {s t : Server} {p : ℕ}

lemma new (api : BusDesc) : Aligned api (serverNew api) where
  bus := by
    refine ⟨⟨List.nodup_nil, nofun, fun h => ?_, List.nodup_nil⟩, rfl, nofun⟩
    by_cases h0 : h = 0 <;> simp [serverNew, isRegistered, Bus.object?, h0]
  walking := rfl
  counted := ⟨rfl, List.nodup_nil⟩
  fresh := nofun
  strangers := fun _ _ => rfl
  waiting := fun _ _ => nofun
  follows := fun q hq => by cases hq
  cursor := nofun

/-- Changes that no peer has to hear of. -/
lemma tacit (h : Aligned api s) (ht : Tacit s t) (hbus : ServerBus api t.bus)
    (hreplica : t.bus.replica = s.bus.replica) : Aligned api t := by
  obtain ⟨as, htrace, hcommits, hacks⟩ := ht.trace
  refine ⟨hbus, ht.walking.trans h.walking, ht.counted h.counted, fun q hq => ?_, fun q hq => ?_,
    fun q hq => ?_,
    fun q hq => ?_, fun hcursor => h.cursor (ht.cursor hcursor)⟩
  · obtain ⟨r, hr, hid⟩ := List.mem_map.mp (ht.ids q.id (List.mem_map_of_mem hq))
    rw [ht.nextPeer, ← hid]
    exact h.fresh r hr
  · rw [ht.nextPeer] at hq
    rw [htrace, inbox_append, h.strangers q hq, List.nil_append, List.eq_nil_iff_forall_not_mem]
    intro info hinfo
    obtain ⟨peer, hpeer⟩ := Option.isSome_iff_exists.mp (hacks q info hinfo).2
    obtain ⟨hmem, hid⟩ := Server.mem_of_peer? hpeer
    exact absurd (h.fresh peer hmem) (by omega)
  · intro info hinfo
    rw [htrace, inbox_append] at hinfo
    rcases List.mem_append.mp hinfo with hold | hnew
    · exact h.waiting q (ht.waiting q hq) info hold
    · exact (hacks q info hnew).1
  · have hfollows := h.follows q (ht.connected q hq)
    have hheard : heard q as = commits as := by
      rw [hcommits, heard, List.filter_eq_nil_iff]
      intro info hinfo hnews
      exact (of_decide_eq_true hnews).2 (hacks q info hinfo).1
    have hnext : Follows api q (s.trace ++ as) (applyAll (commits as) s.bus.replica) :=
      hfollows.append (fun info hinfo => by rw [(hacks q info hinfo).1]; decide) hheard
        (by rw [hcommits]; trivial)
    rw [htrace, hreplica]
    rw [hcommits] at hnext
    exact hnext

/-- A change of the server that is broadcast: the packet goes to all connected peers before or after
the server records the change. -/
lemma announce (h : Aligned api s) (info : PacketInfo) (pre post : List Action)
    (hfits : info.Fits api s.bus.replica) (hnews : info.type.IsNews)
    (hcommits : commits (pre ++ post) = [info])
    (hsilent : ∀ q, inbox q pre = [] ∧ inbox q post = []) {before after : Bus}
    (hwalk : Walked info (s.peers.map Peer.id) { s with bus := before, trace := s.trace ++ pre } t)
    (hbus : ServerBus api after) (hreplica : after.replica = info.apply s.bus.replica) :
    Aligned api { t with bus := after, trace := t.trace ++ post } := by
  obtain ⟨as, htrace, hquiet, hinbox⟩ := hwalk.trace
  have hafter : t.trace ++ post = s.trace ++ (pre ++ as ++ post) := by
    rw [htrace]
    simp only [List.append_assoc]
  have hall : ∀ q, inbox q (pre ++ as ++ post) = inbox q as := by
    intro q
    rw [inbox_append, inbox_append, (hsilent q).1, (hsilent q).2, List.nil_append, List.append_nil]
  have hcommits' : commits (pre ++ as ++ post) = [info] := by
    rw [commits_append] at hcommits
    rw [commits_append, commits_append, hquiet, List.append_nil]
    exact hcommits
  -- who is not connected was not sent anything
  have hothers : ∀ q, t.peerState q ≠ .connected → inbox q as = [] := by
    intro q hq
    rw [hinbox, if_neg fun hc => hq hc.2]
  have hsame : ∀ q, t.peerState q ≠ .connected → t.peerState q = .disconnected ∨
      t.peerState q = s.peerState q := by
    intro q _
    rcases hwalk.peer q with heq | ⟨-, -, hgone⟩
    · refine .inr ?_
      rw [Server.peerState, heq]
      rfl
    · refine .inl ?_
      rw [Server.peerState, hgone]
      rfl
  refine ⟨hbus, hwalk.walking.trans h.walking, ?_, ?_, ?_, ?_, ?_, ?_⟩
  · have hcounted := hwalk.counted ⟨h.counted.count, h.counted.ids⟩
    exact ⟨hcounted.count, hcounted.ids⟩
  · intro q hq
    have hid := h.fresh q (hwalk.peers.subset hq)
    exact hid.trans_eq hwalk.nextPeer.symm
  · intro q hq
    change t.nextPeer ≤ q at hq
    rw [hwalk.nextPeer] at hq
    change s.nextPeer ≤ q at hq
    have hgone : t.peerState q ≠ .connected := by
      intro hconn
      have hold : s.peerState q = .connected := hwalk.connected hconn
      obtain ⟨peer, hpeer⟩ := Option.isSome_iff_exists.mp
        (Server.peer?_isSome_of_ne_disconnected (s := s) (p := q) (by rw [hold]; decide))
      obtain ⟨hmem, hid⟩ := Server.mem_of_peer? hpeer
      exact absurd (h.fresh peer hmem) (by omega)
    change inbox q (t.trace ++ post) = []
    rw [hafter, inbox_append, h.strangers q hq, hall, hothers q hgone]
    rfl
  · intro q hq info' hinfo'
    change info' ∈ inbox q (t.trace ++ post) at hinfo'
    change t.peerState q = .idle ∨ t.peerState q = .connecting at hq
    have hnot : t.peerState q ≠ .connected := by
      rcases hq with hq | hq <;> rw [hq] <;> decide
    rw [hafter, inbox_append, hall, hothers q hnot, List.append_nil] at hinfo'
    refine h.waiting q ?_ info' hinfo'
    rcases hsame q hnot with hgone | heq
    · rw [hgone] at hq
      rcases hq with hq | hq <;> cases hq
    · rwa [heq] at hq
  · intro q hq
    change t.peerState q = .connected at hq
    have hold : s.peerState q = .connected := hwalk.connected hq
    have hmem : q ∈ s.peers.map Peer.id := by
      by_contra habsent
      rw [Server.peerState, Server.peer?_eq_none_iff.mpr habsent] at hold
      cases hold
    have hgot : inbox q (pre ++ as ++ post) = [info] := by
      rw [hall, hinbox, if_pos ⟨hmem, hq⟩]
    have hheard : heard q (pre ++ as ++ post) = commits (pre ++ as ++ post) := by
      rw [hcommits', heard, hgot, List.filter_cons_of_pos (by simpa using hnews), List.filter_nil]
    have hfollows : Follows api q (s.trace ++ (pre ++ as ++ post))
        (applyAll (commits (pre ++ as ++ post)) s.bus.replica) := by
      refine (h.follows q hold).append (fun i hi => ?_) hheard
        (by rw [hcommits']; exact ⟨hfits, trivial⟩)
      rw [hgot, List.mem_singleton] at hi
      rw [hi]
      exact hnews.1
    rw [hcommits'] at hfollows
    change Follows api q (t.trace ++ post) after.replica
    rw [hafter, hreplica]
    exact hfollows
  · change t.fault ≠ _
    rw [hwalk.fault]
    exact h.cursor

/-- Changes that the bus and the peers do not see. -/
lemma of_tacit (h : Aligned api s) (ht : Tacit s t) (hbus : t.bus = s.bus) : Aligned api t :=
  h.tacit ht (hbus ▸ h.bus) (by rw [hbus])

lemma serverSendAck (h : Aligned api s) (handle : UInt16) (status : CallStatus) :
    Aligned api (serverSendAck env handle status s).2 := by
  have hstep : ∀ n, Tacit s { s with ticks := n } := fun n =>
    .of_peers rfl rfl rfl rfl ⟨[], (List.append_nil _).symm, rfl, fun _ => rfl⟩ id
  rcases serverSendAck_cases env handle status s with ⟨-, heq⟩ | ⟨call, -, hcases⟩
  · rwa [heq]
  · rcases hcases with ⟨-, heq⟩ | ⟨-, -, heq⟩ | ⟨-, -, -, heq⟩ | ⟨-, -, -, -, heq⟩ |
      ⟨-, -, -, hpeer, heq⟩
    · rw [heq]
      exact h.of_tacit (.crash s (by decide)) rfl
    · rwa [heq]
    · rw [heq]
      exact h.of_tacit (hstep _) rfl
    · rw [heq]
      have hticked := h.of_tacit (hstep (s.ticks + 1)) rfl
      exact hticked.of_tacit (.crash _ (f := .freedPeer) (by decide)) rfl
    · rw [heq, ioWrite]
      split
      · refine h.of_tacit ⟨rfl, fun hc => ⟨hc.count, hc.ids⟩, rfl, fun _ => id, fun _ => id,
          fun _ => id,
          ⟨[_], rfl, rfl, fun q info hinfo => ?_⟩, id⟩ rfl
        rw [inbox_sent] at hinfo
        split at hinfo
        · next hq =>
          rw [List.mem_singleton.mp hinfo, ← hq]
          exact ⟨rfl, hpeer⟩
        · cases hinfo
      · exact h.of_tacit (.of_peers rfl rfl rfl rfl
          ⟨[], (List.append_nil _).symm, rfl, fun _ => rfl⟩ id) rfl

variable (hquiet : notify.QuietInWalks) (hbuffer : ∀ n type, env.buffer n type = true)

include hquiet hbuffer

lemma serverRegisterObject (h : Aligned api s) (x : UInt16) :
    Aligned api (serverRegisterObject env notify x s).2 := by
  unfold Obus.serverRegisterObject
  split
  · exact h
  · next o ho =>
    split
    · exact h
    · next hflag =>
      obtain ⟨hbus, hreplica, hadds⟩ := h.bus.register ho (by simpa using hflag)
      obtain ⟨t, hsend, hwalk⟩ := broadcast_walked hquiet
        (s := { s with bus := busRegisterObject x s.bus }.log (.committed (.add o)))
        ⟨h.counted.count, h.counted.ids⟩ (.add o) (hbuffer _ _)
      have hdone := h.announce (.add o) _ [] hadds ⟨nofun, nofun⟩ rfl (fun _ => ⟨rfl, rfl⟩) hwalk
        hbus hreplica
      rw [List.append_nil, ← (show t.bus = busRegisterObject x s.bus from hwalk.bus)] at hdone
      rw [hsend]
      exact hdone

lemma serverUnregisterObject (h : Aligned api s) (x : UInt16) :
    Aligned api (serverUnregisterObject env notify x s).2 := by
  unfold Obus.serverUnregisterObject
  split
  · exact h
  · next o ho =>
    split
    · exact h
    · next hflag =>
      obtain ⟨hbus, hreplica⟩ := h.bus.unregister ho
      have hmem := h.bus.mem_refs ho (by simpa using hflag)
      obtain ⟨t, hsend, hwalk⟩ := broadcast_walked hquiet
        (s := { s with bus := busUnregisterObject x s.bus }.log (.committed (.remove (some o.ref))))
        ⟨h.counted.count, h.counted.ids⟩ (.remove (some o.ref)) (hbuffer _ _)
      have hdone := h.announce (.remove (some o.ref)) _ [] ⟨o.ref, rfl, hmem⟩ ⟨nofun, nofun⟩ rfl
        (fun _ => ⟨rfl, rfl⟩) hwalk hbus hreplica
      rw [List.append_nil, ← (show t.bus = busUnregisterObject x s.bus from hwalk.bus)] at hdone
      rw [hsend]
      exact hdone

lemma serverSendEvent (h : Aligned api s) {v : OwnEvent} (hv : v.Built)
    (hnew : v.isCommitted = false) : Aligned api (serverSendEvent env notify v s).2.2 := by
  unfold Obus.serverSendEvent
  split
  · exact h.of_tacit (.crash s (by decide)) rfl
  · next o ho =>
    split
    · exact h
    · next hflag =>
      obtain ⟨hobj, href⟩ := ObjectRef.object?_eq_some.mp ho
      have hclean := hv.sanitize
      obtain ⟨hbus, hreplica⟩ := h.bus.eventCommit (e := v.sanitize.event) ho hclean.info
      have hfits : PacketInfo.Fits api s.bus.replica (.event v.sanitize.event) :=
        ⟨href ▸ h.bus.mem_refs hobj (by simpa using hflag), hclean.desc, hclean.info⟩
      obtain ⟨t, hsend, hwalk⟩ :=
        broadcast_walked hquiet h.counted (.event v.sanitize.event) (hbuffer _ _)
      have hstart : s = { s with bus := s.bus, trace := s.trace ++ [] } := by rw [List.append_nil]
      have hcommit : v.sanitize.commit t.bus = eventCommit v.sanitize.event s.bus := by
        rw [OwnEvent.commit, hwalk.bus]
        exact if_neg (by rw [show v.sanitize.isCommitted = v.isCommitted from rfl, hnew]; decide)
      rw [hstart] at hwalk
      have hdone := h.announce _ [] [.committed (.event v.sanitize.event)] hfits ⟨nofun, nofun⟩
        rfl (fun _ => ⟨rfl, rfl⟩) hwalk hbus hreplica
      rw [hsend]
      simp only [hcommit]
      exact hdone

lemma serverSendBusEvent (h : Aligned api s) {e : BusEventReq} (he : e.Built api)
    (hnew : ∀ v ∈ e.objEvents, v.isCommitted = false) :
    Aligned api (serverSendBusEvent env notify e s).2.2 := by
  unfold Obus.serverSendBusEvent
  split
  · exact h
  · next f e' hcheck =>
    refine h.of_tacit (.crash s ?_) rfl
    rcases serverCheckBusEvent_fault hcheck with rfl | rfl <;> decide
  · next e' hcheck =>
    obtain ⟨rfl, hacc⟩ := serverCheckBusEvent_ok hcheck
    have hbuilt := he.sanitize
    obtain ⟨hbus, hreplica⟩ := h.bus.busEvent hbuilt hacc.sanitize
    have hfits := h.bus.busEvent_fits hbuilt hacc.sanitize
    have hnew' : ∀ v ∈ e.sanitize.objEvents, v.isCommitted = false := by
      intro v hv
      obtain ⟨w, hw, rfl⟩ := List.mem_map.mp hv
      exact hnew w hw
    rw [foldl_applyCommit hnew'] at hreplica
    set bus := e.sanitize.addObjs.foldl (fun bus x => busRegisterObject x bus) s.bus
    obtain ⟨t, hsend, hwalk⟩ := broadcast_walked hquiet (s := { s with bus := bus })
      ⟨h.counted.count, h.counted.ids⟩ (.busEvent (e.sanitize.packet s.bus)) (hbuffer _ _)
    have hstart : ({ s with bus := bus } : Server) =
        { s with bus := bus, trace := s.trace ++ [] } := by
      rw [List.append_nil]
    have hafter : t.bus = bus := hwalk.bus
    rw [hstart] at hwalk
    have hdone := h.announce _ [] [.committed (.busEvent (e.sanitize.packet s.bus))] hfits
      ⟨nofun, nofun⟩ rfl (fun _ => ⟨rfl, rfl⟩) hwalk hbus hreplica
    simp only [hsend, hafter]
    exact hdone

/-- Every call of the interface keeps the peers aligned. -/
lemma runApi (h : Aligned api s) {a : Api} (ha : a.Valid api) :
    Aligned api (runApi env notify a s) := by
  cases a with
  | newObject desc info draws =>
    rw [Obus.runApi, serverNewObject]
    split
    · exact h
    · next o hnew =>
      split
      · exact h
      · next o' bus hadd =>
        obtain ⟨hbus, hreplica⟩ := h.bus.newObject ha.1 ha.2 hnew hadd
        refine h.tacit ?_ hbus hreplica
        exact .of_peers rfl rfl rfl rfl ⟨[], (List.append_nil _).symm, rfl, fun _ => rfl⟩ id
  | registerObject x => exact h.serverRegisterObject hquiet hbuffer x
  | unregisterObject x => exact h.serverUnregisterObject hquiet hbuffer x
  | destroyObject x =>
    rw [Obus.runApi]
    split
    · exact h
    · next bus hdestroy =>
      obtain ⟨hbus, hreplica⟩ := h.bus.destroy hdestroy
      refine h.tacit ?_ hbus hreplica
      exact .of_peers rfl rfl rfl rfl ⟨[], (List.append_nil _).symm, rfl, fun _ => rfl⟩ id
  | sendEvent v => exact h.serverSendEvent hquiet hbuffer ha.1 ha.2
  | sendBusEvent e => exact h.serverSendBusEvent hquiet hbuffer ha.1 ha.2
  | sendAck handle status => exact h.serverSendAck handle status
  | refuseConnection p =>
    rw [Obus.runApi, peerRefuseConnection]
    split
    · next hp =>
      refine h.of_tacit (.setState (by rw [hp]; decide) (by decide) ?_) rfl
      rintro (hst | hst) <;> cases hst
    · exact h

lemma foldl_runApi (h : Aligned api s) {calls : List Api} (hcalls : ∀ a ∈ calls, a.Valid api) :
    Aligned api (calls.foldl (fun s a => Obus.runApi env notify a s) s) := by
  induction calls generalizing s with
  | nil => exact h
  | cons a calls ih =>
    exact ih (h.runApi hquiet hbuffer (hcalls a List.mem_cons_self)) fun b hb =>
      hcalls b (List.mem_cons_of_mem a hb)

end Aligned

/-! ## The steps of the server -/

namespace Aligned

variable {api : BusDesc} {user : User} {env : Env} {s t : Server} {p : ℕ} (huser : user.Valid api)
  (hquiet : QuietInWalks user) (hbuffer : ∀ n type, env.buffer n type = true)

include huser hquiet hbuffer

/-- The peer-connection callback, outside of broadcasts. -/
lemma callback (h : Aligned api s) (depth : ℕ) (event : PeerEvent) (p : ℕ) :
    Aligned api (callback user env depth event p s) := by
  have hlog : Aligned api (s.log (.notified event p)) := h.of_tacit (.log s rfl fun _ => rfl) rfl
  cases depth with
  | zero => exact hlog
  | succ depth =>
    exact hlog.foldl_runApi (hquiet.callback env depth) hbuffer (huser.onPeer event p s)

lemma peerDestroy (h : Aligned api s) (depth p : ℕ) :
    Aligned api (peerDestroy (Obus.callback user env depth) p s) := by
  unfold Obus.peerDestroy
  simp only
  by_cases hp : s.peerState p = .connected
  · have hleft := h.of_tacit (.disconnect hp) rfl
    have hsome := Server.peer?_isSome_of_ne_disconnected (p := p) (s := s) (by rw [hp]; decide)
    have hgone : ({ s.setState p .disconnected with nPeersConnected := s.nPeersConnected - 1 } :
        Server).peerState p = .disconnected := Server.peerState_setState_self hsome
    have hstays := (callback_micros user env depth .disconnected p _).disconnected hgone
    rw [if_pos hp]
    refine (hleft.callback huser hquiet hbuffer depth .disconnected p).of_tacit (.remove ?_) rfl
    rw [hstays]
    decide
  · rw [if_neg hp]
    exact h.of_tacit (.remove hp) rfl

omit huser hquiet hbuffer in
lemma callEnd (h : Aligned api s) (handle : UInt16) (status : CallStatus) :
    Aligned api (callEnd env handle status s) := by
  have hack : Aligned api
      (if s.callStatus = .invalid then (Obus.serverSendAck env handle status s).2 else s) := by
    split
    · exact h.serverSendAck handle status
    · exact h
  exact hack.of_tacit (.of_peers rfl rfl rfl rfl
    ⟨[], (List.append_nil _).symm, rfl, fun _ => rfl⟩ id) rfl

lemma peerCallRequest (h : Aligned api s) (depth p : ℕ) (call : Call) :
    Aligned api (peerCallRequest env (invoke user env depth) p call s) := by
  obtain ⟨status, u, heq, hu⟩ := peerCallRequest_cases env (invoke user env depth) p call s
  have htaken : Aligned api
      { s with call := some ⟨p, call.handle, true⟩, callStatus := .invalid } :=
    h.of_tacit (.of_peers rfl rfl rfl rfl ⟨[], (List.append_nil _).symm, rfl, fun _ => rfl⟩ id) rfl
  have hhandled : Aligned api u := by
    rcases hu with rfl | hu
    · exact htaken
    · unfold invoke at hu
      obtain ⟨calls, hcalls, rfl⟩ := Option.map_eq_some_iff.mp hu
      have hlog :=
        htaken.of_tacit (.log _ (a := .invoked p (s.peerState p) call) rfl fun _ => rfl) rfl
      exact hlog.foldl_runApi (hquiet.callback env depth) hbuffer
        (huser.onCall p call _ calls hcalls)
  rw [heq]
  exact hhandled.callEnd call.handle status

omit huser hquiet hbuffer in
/-- A peer is answered.  If it is accepted it has the registered objects. -/
lemma answered (h : Aligned api t) (hp : (t.peer? p).isSome = true)
    (hstate : t.peerState p ≠ .connected)
    (n m : ℕ) {state st : PeerState} {status : ConrespStatus} {objects : List Object}
    (hst : st = .connected ∧ status = .accepted ∧ objects = t.bus.registered ∧
        t.peerState p = .connecting ∧ m = t.nPeersConnected + 1 ∨
      st = .refused ∧ m = t.nPeersConnected) :
    Aligned api { (Server.log { t with ticks := n } (.sent p state
          (.conresp status objects))).setState p st with nPeersConnected := m } := by
  set u : Server := Server.log { t with ticks := n } (.sent p state (.conresp status objects))
  obtain ⟨peer, hpeer⟩ := Option.isSome_iff_exists.mp hp
  obtain ⟨hmem, hid⟩ := Server.mem_of_peer? hpeer
  have hself : (u.setState p st).peerState p = st := Server.peerState_setState_self (s := u) hp
  have hothers : ∀ q, q ≠ p → (u.setState p st).peerState q = t.peerState q := fun q hq =>
    Server.peerState_setState_of_ne (s := u) hq
  have hinbox : ∀ q, q ≠ p → inbox q u.trace = inbox q t.trace := by
    intro q hq
    change inbox q (t.trace ++ [_]) = _
    rw [inbox_append, inbox_sent, if_neg hq.symm, List.append_nil]
  refine ⟨h.bus, h.walking, ?_, ?_, ?_, ?_, ?_, h.cursor⟩
  · refine ⟨?_, ?_⟩
    · have hcount : (u.setState p st).peers.countP (fun q => q.state = .connected) + _ = _ + _ :=
        Server.countP_setState (s := u) h.counted.ids hpeer st
      rw [Server.peerState_of_peer? hpeer] at hstate
      rw [if_neg hstate, Nat.add_zero, ← show t.nPeersConnected =
        u.peers.countP _ from h.counted.count] at hcount
      change m = (u.setState p st).peers.countP _
      rw [hcount]
      rcases hst with ⟨rfl, -, -, -, rfl⟩ | ⟨rfl, rfl⟩ <;> rfl
    · change ((u.setState p st).peers.map Peer.id).Nodup
      rw [Server.setState_ids]
      exact h.counted.ids
  · intro q hq
    have hq' : q.id ∈ (u.setState p st).peers.map Peer.id := List.mem_map_of_mem hq
    rw [Server.setState_ids] at hq'
    obtain ⟨r, hr, hrid⟩ := List.mem_map.mp hq'
    exact hrid ▸ h.fresh r hr
  · intro q hq
    have hne : q ≠ p := by
      rintro rfl
      have hlt := h.fresh peer hmem
      change t.nextPeer ≤ q at hq
      omega
    exact (hinbox q hne).trans (h.strangers q hq)
  · intro q hq info hinfo
    change (u.setState p st).peerState q = _ ∨ (u.setState p st).peerState q = _ at hq
    by_cases hne : q = p
    · subst hne
      rw [hself] at hq
      rcases hst with ⟨rfl, -⟩ | ⟨rfl, -⟩ <;> rcases hq with hq | hq <;> cases hq
    · rw [hothers q hne] at hq
      refine h.waiting q hq info ?_
      rwa [← hinbox q hne]
  · intro q hq
    change (u.setState p st).peerState q = _ at hq
    change Follows api q (t.trace ++ [.sent p state (.conresp status objects)]) t.bus.replica
    by_cases hne : q = p
    · subst hne
      rw [hself] at hq
      rcases hst with ⟨-, rfl, rfl, hwait, -⟩ | ⟨rfl, -⟩
      · refine ⟨t.trace, state, t.bus.registered, [], rfl, h.waiting q (.inr hwait), nofun, rfl, ?_,
          trivial, ?_⟩
        · refine ⟨fun o ho => h.bus.full o (Bus.object?_mem (Bus.mem_registered.mp ho).2), ?_⟩
          rw [h.bus.ok.registered_handles]
          exact h.bus.ok.nodup
        · exact snapshot_eq _
      · cases hq
    · rw [hothers q hne] at hq
      have hsilent : inbox q [.sent p state (.conresp status objects)] = [] := by
        rw [inbox_sent, if_neg (Ne.symm hne)]
      exact (h.follows q hq).append (by rw [hsilent]; exact nofun) (heard_eq_nil hsilent) trivial

/-- The server while it answers a peer: the peer is idle, or waits, or was refused by the user. -/
lemma answering (h : Aligned api s) (depth : ℕ) (req : Conreq) (hidle : s.peerState p = .idle) :
    Aligned api (answering (Obus.callback user env depth) p req s) ∧
      ((checkConreq req s.bus.api = some .accepted ∧
          ((answering (Obus.callback user env depth) p req s).peerState p = .connecting ∨
            (answering (Obus.callback user env depth) p req s).peerState p = .refused)) ∨
        checkConreq req s.bus.api ≠ some .accepted ∧
          (answering (Obus.callback user env depth) p req s).peerState p = .idle) := by
  set u := s.modifyPeer p fun q => { q with name := req.client }
  have hu : u.peerState p = .idle := by
    rw [← hidle]
    exact Server.peerState_modifyPeer (f := fun q => { q with name := req.client })
      (fun _ => rfl) fun _ => rfl
  have hnamed : Aligned api u := h.of_tacit (.named s p (fun _ => rfl) fun _ => rfl) rfl
  by_cases hcheck : checkConreq req s.bus.api = some .accepted
  · have heq : Obus.answering (Obus.callback user env depth) p req s =
        Obus.callback user env depth .connecting p (u.setState p .connecting) := if_pos hcheck
    have hasked : Aligned api (u.setState p .connecting) :=
      hnamed.of_tacit (.setState (by rw [hu]; decide) (by decide) fun _ => .inl hu) rfl
    have hsome := Server.peer?_isSome_of_ne_disconnected (p := p) (s := u) (by rw [hu]; decide)
    have hstart : (u.setState p .connecting).peerState p = .connecting :=
      Server.peerState_setState_self hsome
    have hafter :=
      (callback_micros user env depth .connecting p (u.setState p .connecting)).invariant
      (I := fun t => t.peerState p = .connecting ∨ t.peerState p = .refused) (fun hm hi => by
        rcases hm.peerState_cases p with hsame | ⟨hc, -⟩ | ⟨-, hrefused⟩
        · rwa [hsame]
        · rcases hi with hi | hi <;> rw [hi] at hc <;> cases hc
        · exact .inr hrefused) (.inl hstart)
    rw [heq]
    exact ⟨hasked.callback huser hquiet hbuffer depth .connecting p, .inl ⟨hcheck, hafter⟩⟩
  · have heq : Obus.answering (Obus.callback user env depth) p req s = u := if_neg hcheck
    rw [heq]
    exact ⟨hnamed, .inr ⟨hcheck, hu⟩⟩

lemma peerConnectionRequest (h : Aligned api s) (depth p : ℕ) (req : Conreq) :
    Aligned api (peerConnectionRequest env (Obus.callback user env depth) p req s).2 := by
  by_cases hidle : s.peerState p = .idle
  · by_cases hnames : req.NamesPresent
    · obtain ⟨hasked, hstate⟩ := h.answering huser hquiet hbuffer depth req hidle
      rw [peerConnectionRequest_eq hidle hnames]
      set t := Obus.answering (Obus.callback user env depth) p req s
      set status := answer (Obus.callback user env depth) p req s with hstatus
      have hpresent : (t.peer? p).isSome = true := by
        refine Server.peer?_isSome_of_ne_disconnected ?_
        rcases hstate with ⟨-, hs | hs⟩ | ⟨-, hs⟩ <;> rw [hs] <;> decide
      have hnot : t.peerState p ≠ .connected := by
        rcases hstate with ⟨-, hs | hs⟩ | ⟨-, hs⟩ <;> rw [hs] <;> decide
      obtain ⟨n, ⟨-, hsend⟩ | hsend⟩ := @peerSendConnectionResponse_cases env p status t
      · rw [hsend]
        have hticked : Aligned api { t with ticks := n } :=
          hasked.of_tacit (.of_peers rfl rfl rfl rfl
            ⟨[], (List.append_nil _).symm, rfl, fun _ => rfl⟩ id) rfl
        exact hticked.peerDestroy huser hquiet hbuffer depth p
      · rw [hsend]
        unfold afterAnswer
        simp only [← hstatus, reply]
        by_cases haccepted : status = .accepted
        · have hwait : t.peerState p = .connecting := by
            have hboth := haccepted
            rw [hstatus, answer] at hboth
            split at hboth
            · next hc =>
              rcases hstate with ⟨-, hs | hs⟩ | ⟨hno, -⟩
              · exact hs
              · exact absurd hs hc.2
              · exact absurd hc.1 hno
            · cases hboth
          rw [if_pos haccepted, if_pos haccepted]
          refine Aligned.callback huser hquiet hbuffer ?_ depth .connected p
          exact hasked.answered hpresent hnot n _ (.inl ⟨rfl, haccepted, rfl, hwait, rfl⟩)
        · rw [if_neg haccepted, if_neg haccepted]
          exact hasked.answered hpresent hnot n t.nPeersConnected (.inr ⟨rfl, rfl⟩)
    · obtain ⟨f, hid, hstate, heq⟩ :=
        peerConnectionRequest_absent env (Obus.callback user env depth) hidle hnames
      rw [heq]
      exact (h.of_tacit (.named s p hid hstate) rfl).of_tacit
        (.crash _ (f := .absentString) (by decide)) rfl
  · have hignored : Obus.peerConnectionRequest env (Obus.callback user env depth) p req s =
        (true, s) := if_pos hidle
    rwa [hignored]

lemma peerPacket (h : Aligned api s) (depth p : ℕ) (info : PacketInfo) :
    Aligned api (peerPacket user env depth p info s) := by
  have hend : ∀ (t : Server) (again : Bool), Aligned api t →
      Aligned api (if again ∧ (t.peer? p).isNone then t.crash .freedPeer else t) := by
    intro t again ht
    split
    · exact ht.of_tacit (.crash t (by decide)) rfl
    · exact ht
  unfold Obus.peerPacket
  cases info with
  | conreq req => exact hend _ _ (h.peerConnectionRequest huser hquiet hbuffer depth p req)
  | call call => exact hend _ true (h.peerCallRequest huser hquiet hbuffer depth p call)
  | _ => exact hend s true h

omit huser hquiet hbuffer in
/-- A new peer is idle, and was not sent anything. -/
lemma accept (h : Aligned api s) :
    Aligned api
      { s with peers := s.peers ++ [⟨s.nextPeer, .idle, none⟩], nextPeer := s.nextPeer + 1 } := by
  set u : Server :=
    { s with peers := s.peers ++ [⟨s.nextPeer, .idle, none⟩], nextPeer := s.nextPeer + 1 }
  have hfresh : s.nextPeer ∉ s.peers.map Peer.id := by
    intro hmem
    obtain ⟨q, hq, hid⟩ := List.mem_map.mp hmem
    have hlt := h.fresh q hq
    omega
  have hstate : ∀ q, q ≠ s.nextPeer → u.peerState q = s.peerState q := by
    intro q hq
    have hpeer : u.peer? q = s.peer? q := by
      change (s.peers ++ [_]).find? _ = _
      rw [List.find?_append, List.find?_cons_of_neg (by simpa using hq.symm), List.find?_nil,
        Option.or_none]
      rfl
    rw [Server.peerState, hpeer, Server.peerState]
  have hself : u.peerState s.nextPeer = .idle := by
    have hpeer : u.peer? s.nextPeer = some ⟨s.nextPeer, .idle, none⟩ := by
      change (s.peers ++ [_]).find? _ = _
      rw [List.find?_append, show s.peers.find? _ = none from Server.peer?_eq_none_iff.mpr hfresh]
      simp
    exact Server.peerState_of_peer? hpeer
  refine ⟨h.bus, h.walking, ⟨?_, ?_⟩, ?_, ?_, ?_, ?_, h.cursor⟩
  · change s.nPeersConnected = (s.peers ++ [_]).countP _
    rw [List.countP_append, h.counted.count]
    rfl
  · change ((s.peers ++ [_]).map Peer.id).Nodup
    rw [List.map_append]
    refine List.nodup_append.mpr ⟨h.counted.ids, List.nodup_singleton _, ?_⟩
    rintro a ha b hb rfl
    rw [List.mem_singleton.mp hb] at ha
    exact hfresh ha
  · intro q hq
    change q.id < s.nextPeer + 1
    rcases List.mem_append.mp hq with hold | hnew
    · have hlt := h.fresh q hold
      omega
    · rw [List.mem_singleton.mp hnew]
      exact Nat.lt_succ_self _
  · intro q hq
    exact h.strangers q (Nat.le_of_succ_le hq)
  · intro q hq
    by_cases hne : q = s.nextPeer
    · intro info hinfo
      have hnone := h.strangers q (le_of_eq hne.symm)
      rw [show inbox q u.trace = [] from hnone] at hinfo
      cases hinfo
    · rw [hstate q hne] at hq
      exact h.waiting q hq
  · intro q hq
    by_cases hne : q = s.nextPeer
    · rw [hne, hself] at hq
      cases hq
    · rw [hstate q hne] at hq
      exact h.follows q hq

end Aligned

/-- What the user calls was made for the bus, and buffers can be had. -/
def StepValid (api : BusDesc) (_ : Server) : ServerOp × Env → Prop
  | (op, env) => (∀ n type, env.buffer n type = true) ∧ ∀ a, op = .api a → a.Valid api

/-- Every step keeps the peers aligned. -/
lemma Aligned.step {api : BusDesc} {user : User} {depth : ℕ} {s s' : Server} {a : ServerOp × Env}
    (huser : user.Valid api) (hquiet : QuietInWalks user) (h : Aligned api s)
    (hvalid : StepValid api s a)
    (hstep : serverStep user depth s a = some s') : Aligned api s' := by
  obtain ⟨op, env⟩ := a
  obtain ⟨hbuffer, hcalls⟩ := hvalid
  cases op with
  | accept =>
    rw [serverStep_accept hstep]
    exact h.accept
  | packet p info =>
    obtain ⟨-, -, rfl⟩ := serverStep_packet hstep
    exact h.peerPacket huser hquiet hbuffer depth p info
  | closed p =>
    obtain ⟨-, rfl⟩ := serverStep_closed hstep
    exact h.peerDestroy huser hquiet hbuffer depth p
  | api a =>
    rw [serverStep_api hstep]
    exact h.runApi (hquiet.callback env depth) hbuffer (hcalls a rfl)

/-- A client that has just started has no objects. -/
lemma Tidy.new (api : BusDesc) : Tidy api (clientNew api).start ∧
    (clientNew api).start.state = .connecting ∧
    (clientNew api).start.bus.replica = [] := by
  refine ⟨⟨⟨List.nodup_nil, nofun, fun h => ?_, List.nodup_nil⟩, rfl, nofun, nofun⟩, rfl, rfl⟩
  by_cases h0 : h = 0 <;> simp [Client.start, clientNew, isRegistered, Bus.object?, h0]

/-- What a peer that follows the server was broadcast are the last changes of the server, in their
order. -/
lemma Follows.suffix {api : BusDesc} {p : ℕ} {trace : List Action} {l : List Object}
    (h : Follows api p trace l) : heard p trace <:+ commits trace := by
  obtain ⟨early, state, objects, late, rfl, hfrom⟩ := h
  have hearly : heard p early = [] := by
    rw [heard, List.filter_eq_nil_iff]
    intro info hinfo hnews
    exact (of_decide_eq_true hnews).2 (hfrom.acks info hinfo)
  have hresponse : heard p [.sent p state (.conresp .accepted objects)] = [] := by
    rw [heard, inbox_sent, if_pos rfl]
    rfl
  rw [← List.singleton_append, heard_append, heard_append, hearly, hresponse, commits_append,
    commits_append,
    hfrom.order]
  exact ⟨commits early, rfl⟩

/-- If the user leaves broadcasts alone, buffers can be had and no event is sent twice, then however
writes fail: every peer that is connected was broadcast the last changes of the server, in the order
in which the server made them; a client that reads what was sent to it has the objects of the
server; and no walk gets to a destroyed peer. -/
theorem surviving_peers_agree {api : BusDesc} (hapi : api.Ok) (user : User) (depth : ℕ)
    (huser : user.Valid api)
    (hquiet : QuietInWalks user) (ops : List (ServerOp × Env))
    (hvalid : ∀ a ∈ ops, ∀ s, StepValid api s a)
    (s : Server) (hrun : runs (serverStep user depth) ops (serverNew api) = some s) :
    (∀ p, s.peerState p = .connected →
      heard p s.trace <:+ commits s.trace ∧
        ((∀ info ∈ inbox p s.trace, info.bytes.length < 2 ^ 32) →
          ((inbox p s.trace).foldl (fun c info => c.read info) (clientNew api).start).bus.replica =
            s.bus.replica)) ∧
      s.fault ≠ some .freedCursor := by
  have haligned : Aligned api s := runs_invariant (fun _ _ _ h hv hs => h.step huser hquiet hv hs)
    (Aligned.new api) (meetsAll_of_forall hvalid _) hrun
  refine ⟨fun p hp => ?_, haligned.cursor⟩
  have hfollows := haligned.follows p hp
  obtain ⟨htidy, hstate, hempty⟩ := Tidy.new api
  exact ⟨hfollows.suffix, fun hlen => (hfollows.read hapi htidy hstate hempty hlen).2.1⟩

lemma silentUser_valid (api : BusDesc) : silentUser.Valid api :=
  ⟨fun _ _ _ _ ha => absurd ha List.not_mem_nil, fun _ _ _ _ hcalls => absurd hcalls
    (Option.not_mem_none _)⟩

lemma silentUser_quiet : QuietInWalks silentUser := fun _ _ _ => rfl

/-- Writes to the first peer fail. -/
def lameEnv : Env := ⟨fun _ _ => true, fun _ p _ => decide (p ≠ 0)⟩

/-- The server has two objects, two peers are connected, and the first object is registered while
writes to the first peer fail. -/
def crowded : List (ServerOp × Env) :=
  [(.api (.newObject sampleDesc none [7]), fairEnv),
    (.api (.newObject sampleDesc none [8]), fairEnv),
    (.accept, fairEnv), (.accept, fairEnv), (.packet 0 (.conreq sampleRequest), fairEnv),
    (.packet 1 (.conreq sampleRequest), fairEnv), (.api (.registerObject 7), lameEnv)]

theorem surviving_peers_agree_crowded :
    ∃ s, runs (serverStep silentUser 1) crowded (serverNew sampleApi) = some s ∧
      s.peerState 0 = .disconnected ∧ s.peerState 1 = .connected ∧
      heard 1 s.trace <:+ commits s.trace ∧
      ((inbox 1 s.trace).foldl (fun c info => c.read info)
        (clientNew sampleApi).start).bus.replica =
        s.bus.replica := by
  obtain ⟨s, hrun⟩ : ∃ s, runs (serverStep silentUser 1) crowded (serverNew sampleApi) =
    some s := ⟨_, rfl⟩
  have hvalid : ∀ a ∈ crowded, ∀ s, StepValid sampleApi s a := by
    intro a ha s
    simp only [crowded, List.mem_cons, List.not_mem_nil, or_false] at ha
    rcases ha with rfl | rfl | rfl | rfl | rfl | rfl | rfl
    · refine ⟨fun _ _ => rfl, ?_⟩
      rintro _ ⟨⟩
      exact ⟨List.mem_singleton.mpr rfl, nofun⟩
    · refine ⟨fun _ _ => rfl, ?_⟩
      rintro _ ⟨⟩
      exact ⟨List.mem_singleton.mpr rfl, nofun⟩
    · exact ⟨fun _ _ => rfl, nofun⟩
    · exact ⟨fun _ _ => rfl, nofun⟩
    · exact ⟨fun _ _ => rfl, nofun⟩
    · exact ⟨fun _ _ => rfl, nofun⟩
    · refine ⟨fun _ _ => rfl, ?_⟩
      rintro _ ⟨⟩
      trivial
  have hgone : s.peerState 0 = .disconnected := by
    cases hrun
    decide
  have hconnected : s.peerState 1 = .connected := by
    cases hrun
    decide
  have hshort : ∀ info ∈ inbox 1 s.trace, info.bytes.length < 2 ^ 32 := by
    cases hrun
    decide +kernel
  obtain ⟨hpeers, -⟩ := surviving_peers_agree sampleApi_ok silentUser 1
    (silentUser_valid _) silentUser_quiet
    crowded hvalid s hrun
  obtain ⟨hsuffix, hread⟩ := hpeers 1 hconnected
  exact ⟨s, hrun, hgone, hconnected, hsuffix, hread hshort⟩

/-- A user who registers the second object when a peer is gone. -/
def eagerUser : User :=
  ⟨fun event _ _ => if event = .disconnected then [.registerObject 8] else [], fun _ _ _ => none⟩

/-- A callback inside a broadcast has its own change sent first: the second peer hears of the
objects in the wrong order, and does not agree with the server. -/
theorem nested_broadcast_overtakes :
    ∃ s, runs (serverStep eagerUser 1) crowded (serverNew sampleApi) = some s ∧
    s.peerState 1 = .connected ∧
      ¬heard 1 s.trace <:+ commits s.trace ∧ s.bus.objects = [7, 8] ∧
      ((inbox 1 s.trace).foldl (fun c info => c.read info)
        (clientNew sampleApi).start).bus.objects = [8, 7] := by
  obtain ⟨s, hrun⟩ : ∃ s, runs (serverStep eagerUser 1) crowded (serverNew sampleApi) =
    some s := ⟨_, rfl⟩
  refine ⟨s, hrun, ?_, ?_, ?_, ?_⟩
  · cases hrun
    decide
  · cases hrun
    decide +kernel
  · cases hrun
    decide
  · cases hrun
    decide +kernel

end Obus
