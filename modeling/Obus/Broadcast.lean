import Obus.BusEvents

/-!
# Broadcasts

A broadcast walks over the peers, and a peer to which the packet cannot be written is destroyed on
the way.  The user is told, and may call the server again before the walk goes on.  A user who does
not (`QuietInWalks`) leaves the walk alone: every connected peer gets the packet once, or is gone
(`Walked`).

Then all peers that stay connected are sent the same packets in the same order, which is the order
in which the server changes its own objects, and each of them can follow the server with what it was
sent (`Follows`).
-/

namespace Obus

/-! ## What was sent to a peer -/

/-- The packets that were sent to a peer, in order. -/
def inbox (p : ℕ) (trace : List Action) : List PacketInfo :=
  trace.filterMap fun
    | .sent q _ info => if q = p then some info else none
    | _ => none

instance : DecidablePred PacketType.IsNews := fun type =>
  inferInstanceAs (Decidable (type ≠ .conresp ∧ type ≠ .ack))

/-- The packets that were broadcast, of those that were sent to a peer. -/
def heard (p : ℕ) (trace : List Action) : List PacketInfo :=
  (inbox p trace).filter fun info => info.type.IsNews

@[simp] lemma inbox_append (p : ℕ) (as bs : List Action) :
    inbox p (as ++ bs) = inbox p as ++ inbox p bs :=
  List.filterMap_append

@[simp] lemma heard_append (p : ℕ) (as bs : List Action) :
    heard p (as ++ bs) = heard p as ++ heard p bs := by
  simp [heard]

@[simp] lemma commits_append (as bs : List Action) :
    commits (as ++ bs) = commits as ++ commits bs :=
  List.filterMap_append

lemma inbox_sent (p q : ℕ) (state : PeerState) (info : PacketInfo) :
    inbox q [.sent p state info] = if p = q then [info] else [] := by
  by_cases hq : p = q <;> simp [inbox, hq]

lemma heard_eq_nil {p : ℕ} {as : List Action} (h : inbox p as = []) : heard p as = [] := by
  rw [heard, h, List.filter_nil]

/-! ## A walk that is left alone -/

/-- The user makes no call when the peer-connection callback is invoked inside a broadcast. -/
def QuietInWalks (user : User) : Prop := ∀ p s, 0 < s.walking → user.onPeer .disconnected p s = []

/-- A notification that does nothing inside a broadcast. -/
def Notify.QuietInWalks (notify : Notify) : Prop :=
  ∀ p s, 0 < s.walking → notify .disconnected p s = s.log (.notified .disconnected p)

lemma QuietInWalks.callback {user : User} (h : QuietInWalks user) (env : Env) (depth : ℕ) :
    (callback user env depth).QuietInWalks := by
  intro p s hwalking
  cases depth with
  | zero => rfl
  | succ depth =>
    have hnone : user.onPeer .disconnected p s = [] := h p s hwalking
    rw [Obus.callback, hnone]
    rfl

/-- How many peers are connected is counted right, and no two peers have the same number. -/
structure Server.Counted (s : Server) : Prop where
  count : s.nPeersConnected = s.peers.countP fun q => q.state = .connected
  ids : (s.peers.map Peer.id).Nodup

/-- What the walk of a broadcast does to the peers of a list: those that stay connected got the
packet, the others are as before or gone. -/
structure Walked (info : PacketInfo) (todo : List ℕ) (s t : Server) : Prop where
  bus : t.bus = s.bus
  walking : t.walking = s.walking
  nextPeer : t.nextPeer = s.nextPeer
  call : t.call = s.call
  fault : t.fault = s.fault
  counted : s.Counted → t.Counted
  peers : t.peers.Sublist s.peers
  peer : ∀ q, t.peer? q = s.peer? q ∨ q ∈ todo ∧ s.peerState q = .connected ∧ t.peer? q = none
  trace : ∃ as, t.trace = s.trace ++ as ∧ commits as = [] ∧
    ∀ q, inbox q as = if q ∈ todo ∧ t.peerState q = .connected then [info] else []

namespace Server

variable {s : Server} {p : ℕ}

lemma mem_of_peer? {peer : Peer} (h : s.peer? p = some peer) : peer ∈ s.peers ∧ peer.id = p :=
  ⟨List.mem_of_find?_eq_some h, by simpa using List.find?_some h⟩

/-- A peer is the only one with its number. -/
lemma filter_id {l : List Peer} (hids : (l.map Peer.id).Nodup) {peer : Peer} (hmem : peer ∈ l) :
    l.filter (·.id = peer.id) = [peer] := by
  induction l with
  | nil => cases hmem
  | cons a l ih =>
    rw [List.map_cons, List.nodup_cons] at hids
    rcases List.mem_cons.mp hmem with rfl | hmem
    · have hrest : l.filter (·.id = peer.id) = [] := by
        rw [List.filter_eq_nil_iff]
        intro b hb hbid
        exact hids.1 (List.mem_map.mpr ⟨b, hb, of_decide_eq_true hbid⟩)
      rw [List.filter_cons_of_pos (by simp), hrest]
    · have hne : a.id ≠ peer.id := fun heq => hids.1 (heq ▸ List.mem_map_of_mem hmem)
      rw [List.filter_cons_of_neg (by simpa using hne)]
      exact ih hids.2 hmem

/-- Without connected peers none of them is connected. -/
lemma Counted.not_connected (h : s.Counted) (hzero : s.nPeersConnected = 0) (q : ℕ) :
    s.peerState q ≠ .connected := by
  intro hq
  obtain ⟨peer, hpeer⟩ := Option.isSome_iff_exists.mp
    (peer?_isSome_of_ne_disconnected (s := s) (p := q) (by rw [hq]; decide))
  rw [peerState_of_peer? hpeer] at hq
  have hcount := h.count
  rw [hzero] at hcount
  have hnone := List.countP_eq_zero.mp hcount.symm peer (mem_of_peer? hpeer).1
  simp [hq] at hnone

/-- The peers that are connected are one peer, if it is, and those among the others. -/
lemma countP_connected (hids : (s.peers.map Peer.id).Nodup) {peer : Peer}
    (hpeer : s.peer? p = some peer) : s.peers.countP (fun q => q.state = .connected) =
      (s.peers.filter (·.id ≠ p)).countP (fun q => q.state = .connected) +
        if peer.state = .connected then 1 else 0 := by
  obtain ⟨hmem, hid⟩ := mem_of_peer? hpeer
  have hone : s.peers.filter (·.id = p) = [peer] := hid ▸ filter_id hids hmem
  have hperm := List.filter_append_perm (fun q : Peer => decide (q.id ≠ p)) s.peers
  have hsplit : (s.peers.filter fun q => !decide (q.id ≠ p)) = s.peers.filter (·.id = p) := by
    simp
  rw [hsplit, hone] at hperm
  rw [← hperm.countP_eq, List.countP_append]
  congr 1
  by_cases hstate : peer.state = .connected <;> simp [hstate]

/-- A connected peer leaves. -/
lemma Counted.filter (h : s.Counted) (hp : s.peerState p = .connected) :
    s.nPeersConnected - 1 = (s.peers.filter (·.id ≠ p)).countP fun q => q.state = .connected := by
  obtain ⟨peer, hpeer⟩ := Option.isSome_iff_exists.mp
    (peer?_isSome_of_ne_disconnected (s := s) (p := p) (by rw [hp]; decide))
  rw [peerState_of_peer? hpeer] at hp
  rw [h.count, countP_connected h.ids hpeer, if_pos hp, Nat.add_sub_cancel]

lemma peers_setState_filter {st : PeerState} :
    (s.setState p st).peers.filter (·.id ≠ p) = s.peers.filter (·.id ≠ p) := by
  unfold setState modifyPeer
  induction s.peers with
  | nil => rfl
  | cons a peers ih =>
    rw [List.map_cons]
    by_cases ha : a.id = p
    · rw [List.filter_cons_of_neg (by simp [ha]), List.filter_cons_of_neg (by simp [ha])]
      exact ih
    · rw [List.filter_cons_of_pos (by simp [ha]), List.filter_cons_of_pos (by simp [ha]), if_neg ha]
      exact congrArg (a :: ·) ih

/-- How the state of a peer changes the number of connected peers. -/
lemma countP_setState (hids : (s.peers.map Peer.id).Nodup) {peer : Peer}
    (hpeer : s.peer? p = some peer) (st : PeerState) :
    (s.setState p st).peers.countP (fun q => q.state = .connected) +
      (if peer.state = .connected then 1 else 0) =
      s.peers.countP (fun q => q.state = .connected) + if st = .connected then 1 else 0 := by
  have hafter : (s.setState p st).peer? p = some { peer with state := st } := by
    rw [peer?_setState, hpeer]
    simp
  rw [countP_connected hids hpeer, countP_connected (by rw [setState_ids]; exact hids) hafter,
    peers_setState_filter]
  dsimp only
  omega

end Server

section Walk

variable {env : Env} {notify : Notify} {info : PacketInfo} {s t u : Server} {p : ℕ}

/-- A connected peer that is destroyed inside a broadcast is gone, and nothing else has changed. -/
lemma Notify.QuietInWalks.peerDestroy (h : notify.QuietInWalks) (hwalking : 0 < s.walking)
    (hp : s.peerState p = .connected) :
    peerDestroy notify p s =
      { s with
        peers := s.peers.filter (·.id ≠ p)
        nPeersConnected := s.nPeersConnected - 1
        trace := s.trace ++ [.notified .disconnected p, .destroyed p] } := by
  have hnotify :=
    h p { s.setState p .disconnected with nPeersConnected := s.nPeersConnected - 1 } hwalking
  unfold Obus.peerDestroy
  rw [if_pos hp, hnotify]
  simp only [Server.log, List.append_assoc, List.cons_append, List.nil_append]
  have hpeers : (s.setState p .disconnected).peers.filter (·.id ≠ p) = s.peers.filter (·.id ≠ p) :=
    Server.peers_setState_filter
  rw [hpeers]
  rfl

namespace Walked

lemma refl (info : PacketInfo) (todo : List ℕ) (s : Server)
    (hnone : ∀ q ∈ todo, s.peerState q ≠ .connected) : Walked info todo s s where
  bus := rfl
  walking := rfl
  nextPeer := rfl
  call := rfl
  fault := rfl
  counted h := h
  peers := List.Sublist.refl _
  peer _ := .inl rfl
  trace := by
    refine ⟨[], (List.append_nil _).symm, rfl, fun q => ?_⟩
    rw [if_neg]
    · rfl
    · exact fun hq => hnone q hq.1 hq.2

lemma peerState_of_not_mem {todo : List ℕ} (h : Walked info todo s t) {q : ℕ} (hq : q ∉ todo) :
    t.peerState q = s.peerState q := by
  rcases h.peer q with heq | ⟨hmem, -⟩
  · rw [Server.peerState, heq, Server.peerState]
  · exact absurd hmem hq

/-- A peer that is connected afterwards was so before. -/
lemma connected {todo : List ℕ} (h : Walked info todo s t) {q : ℕ}
    (hq : t.peerState q = .connected) : s.peerState q = .connected := by
  rcases h.peer q with heq | ⟨-, hconn, -⟩
  · rwa [Server.peerState, heq] at hq
  · exact hconn

lemma append {xs ys : List ℕ} (h : Walked info xs s t) (h' : Walked info ys t u)
    (hdisjoint : ∀ q ∈ xs, q ∉ ys) : Walked info (xs ++ ys) s u where
  bus := h'.bus.trans h.bus
  walking := h'.walking.trans h.walking
  nextPeer := h'.nextPeer.trans h.nextPeer
  call := h'.call.trans h.call
  fault := h'.fault.trans h.fault
  counted := fun hs => h'.counted (h.counted hs)
  peers := h'.peers.trans h.peers
  peer q := by
    rcases h'.peer q with heq' | ⟨hmem, hconn, hgone⟩
    · rcases h.peer q with heq | ⟨hmem, hconn, hgone⟩
      · exact .inl (heq'.trans heq)
      · exact .inr ⟨List.mem_append_left _ hmem, hconn, heq'.trans hgone⟩
    · exact .inr ⟨List.mem_append_right _ hmem, h.connected hconn, hgone⟩
  trace := by
    obtain ⟨as, htrace, hcommits, hinbox⟩ := h.trace
    obtain ⟨bs, htrace', hcommits', hinbox'⟩ := h'.trace
    refine ⟨as ++ bs, by rw [htrace', htrace, List.append_assoc],
      by rw [commits_append, hcommits, hcommits']; rfl,
      fun q => ?_⟩
    rw [inbox_append, hinbox, hinbox']
    by_cases hx : q ∈ xs
    · have hy := hdisjoint q hx
      rw [h'.peerState_of_not_mem hy]
      simp [hx, hy]
    · simp [hx]

/-- The body of the walk. -/
lemma sendPeer (hquiet : notify.QuietInWalks) (hwalking : 0 < s.walking)
    (info : PacketInfo) (p : ℕ) : Walked info [p] s (sendPeer env notify info p s) := by
  rcases sendPeer_cases env notify info p s with ⟨hstate, heq⟩ | ⟨hstate, -, heq⟩ | ⟨hstate, -, heq⟩
  · rw [heq]
    refine refl info [p] s fun q hq => ?_
    rwa [List.mem_singleton.mp hq]
  · rw [heq]
    refine ⟨rfl, rfl, rfl, rfl, rfl, fun h => ⟨h.count, h.ids⟩, List.Sublist.refl _,
      fun _ => .inl rfl,
      [.sent p .connected info], rfl, rfl, fun q => ?_⟩
    rw [inbox_sent]
    change _ = if q ∈ [p] ∧ s.peerState q = .connected then [info] else []
    by_cases hq : p = q
    · subst hq
      simp [hstate]
    · simp [hq, Ne.symm hq]
  · have hdestroy := hquiet.peerDestroy (s := { s with ticks := s.ticks + 1 })
      (p := p) hwalking hstate
    rw [heq, hdestroy]
    refine ⟨rfl, rfl, rfl, rfl, rfl, fun h => ⟨h.filter hstate, ?_⟩, List.filter_sublist,
      fun q => ?_,
      [.notified .disconnected p, .destroyed p], rfl, rfl, fun q => ?_⟩
    · exact h.ids.sublist (List.filter_sublist.map _)
    · by_cases hq : q = p
      · subst hq
        exact .inr ⟨List.mem_singleton.mpr rfl, hstate, Server.peer?_filter_self (s := s)⟩
      · exact .inl (Server.peer?_filter_of_ne (s := s) hq)
    · have hgone : ¬(q ∈ [p] ∧
          ({ s with peers := s.peers.filter (·.id ≠ p) } : Server).peerState q = .connected) := by
        rintro ⟨hq, hconn⟩
        rw [List.mem_singleton.mp hq, Server.peerState_filter, if_pos rfl] at hconn
        cases hconn
      exact (if_neg hgone).symm

end Walked

lemma sendPeer_ids (hquiet : notify.QuietInWalks) (hwalking : 0 < s.walking)
    (info : PacketInfo) (p : ℕ) :
    (sendPeer env notify info p s).peers.map Peer.id = s.peers.map Peer.id ∨
      (sendPeer env notify info p s).peers.map Peer.id = (s.peers.map Peer.id).filter (· ≠ p) := by
  rcases sendPeer_cases env notify info p s with ⟨-, heq⟩ | ⟨-, -, heq⟩ | ⟨hstate, -, heq⟩
  · exact .inl (by rw [heq])
  · exact .inl (by rw [heq]; rfl)
  · have hdestroy := hquiet.peerDestroy (s := { s with ticks := s.ticks + 1 })
      (p := p) hwalking hstate
    refine .inr ?_
    rw [heq, hdestroy, List.filter_map]
    rfl

lemma nextEntry_of_ids {l : List Peer} {pre rest : List ℕ} (hids : l.map Peer.id = pre ++ p :: rest)
    (hnodup : (l.map Peer.id).Nodup) : nextEntry p l = some rest.head? := by
  induction l generalizing pre with
  | nil => simp at hids
  | cons a l ih =>
    cases pre with
    | nil =>
      obtain ⟨hid, hrest⟩ := List.cons.inj hids
      rw [nextEntry, if_pos hid, ← List.head?_map, hrest]
    | cons b pre =>
      obtain ⟨hid, hrest⟩ := List.cons.inj hids
      rw [List.map_cons, List.nodup_cons] at hnodup
      have hne : a.id ≠ p := by
        rintro heq
        apply hnodup.1
        rw [hrest, heq]
        exact List.mem_append_right _ List.mem_cons_self
      rw [nextEntry, if_neg hne]
      exact ih hrest hnodup.2

/-- The walk gets to all peers of the rest of the list, and to no destroyed one. -/
lemma walkPeers_walked (hquiet : notify.QuietInWalks) (hwalking : 0 < s.walking) (info : PacketInfo)
    {pre todo : List ℕ} (hids : s.peers.map Peer.id = pre ++ todo) (hcounted : s.Counted) {n : ℕ}
    (hn : todo.length ≤ n) : Walked info todo s
      (walkPeers (sendPeer env notify info) n todo.head? s) := by
  induction todo generalizing s pre n with
  | nil =>
    have hdone : walkPeers (sendPeer env notify info) n none s = s := by cases n <;> rfl
    rw [List.head?_nil, hdone]
    exact .refl info [] s nofun
  | cons p todo ih =>
    obtain ⟨n, rfl⟩ : ∃ m, n = m + 1 := ⟨n - 1, by simp at hn; omega⟩
    have hnodup := hcounted.ids
    rw [hids] at hnodup
    have hfresh : p ∉ pre ∧ p ∉ todo := by
      rw [List.nodup_append, List.nodup_cons] at hnodup
      exact ⟨fun hmem => hnodup.2.2 p hmem p List.mem_cons_self rfl, hnodup.2.1.1⟩
    have hbody : Walked info [p] s (sendPeer env notify info p s) :=
      .sendPeer hquiet hwalking info p
    rw [List.head?_cons, walkPeers, nextEntry_of_ids hids hcounted.ids]
    have hids' : ∃ pre', (sendPeer env notify info p s).peers.map Peer.id = pre' ++ todo := by
      rcases @sendPeer_ids env notify s hquiet hwalking info p with heq | heq
      · exact ⟨pre ++ [p], by rw [heq, hids, List.append_assoc]; rfl⟩
      · refine ⟨pre, ?_⟩
        have hkeep : ∀ l : List ℕ, p ∉ l → l.filter (· ≠ p) = l := by
          intro l hl
          refine List.filter_eq_self.mpr fun q hq => ?_
          simp only [ne_eq, decide_not, Bool.not_eq_true', decide_eq_false_iff_not]
          exact fun heq => hl (heq ▸ hq)
        rw [heq, hids, List.filter_append, List.filter_cons_of_neg (by simp), hkeep pre hfresh.1,
          hkeep todo hfresh.2]
    obtain ⟨pre', hpre'⟩ := hids'
    have hrest := ih (s := sendPeer env notify info p s)
      (by rw [hbody.walking]; exact hwalking) hpre'
      (hbody.counted hcounted) (n := n) (by simp at hn; omega)
    refine hbody.append hrest fun q hq => ?_
    rw [List.mem_singleton.mp hq]
    exact hfresh.2

/-- A broadcast that the user leaves alone fails for want of a buffer, or gets to all peers. -/
lemma broadcast_outcome (hquiet : notify.QuietInWalks) (hcounted : s.Counted) (info : PacketInfo) :
    env.buffer s.ticks info.type = false ∧
        broadcast env notify info s = (.error .enomem, { s with ticks := s.ticks + 1 }) ∨
      ∃ t, broadcast env notify info s = (.ok (), t) ∧ Walked info (s.peers.map Peer.id) s t := by
  rcases broadcast_cases env notify info s with ⟨hnone, heq⟩ | ⟨-, hfail, heq⟩ | ⟨-, -, heq⟩
  · exact .inr ⟨s, heq, .refl _ _ s fun q _ => hcounted.not_connected hnone q⟩
  · exact .inl ⟨hfail, heq⟩
  · refine .inr ⟨_, heq, ?_⟩
    set u : Server := { s with ticks := s.ticks + 1, walking := s.walking + 1 }
    have hwalk : Walked info (s.peers.map Peer.id) u
        (walkPeers (sendPeer env notify info) s.peers.length (s.peers.map Peer.id).head? u) :=
      walkPeers_walked (s := u) hquiet (Nat.succ_pos s.walking) info (List.nil_append _).symm
        ⟨hcounted.count, hcounted.ids⟩ (le_of_eq (List.length_map Peer.id))
    rw [List.head?_map] at hwalk
    refine ⟨hwalk.bus, ?_, hwalk.nextPeer, hwalk.call, hwalk.fault, fun _ => ?_, hwalk.peers,
      hwalk.peer, hwalk.trace⟩
    · exact congrArg (· - 1) hwalk.walking
    · have hafter := hwalk.counted ⟨hcounted.count, hcounted.ids⟩
      exact ⟨hafter.count, hafter.ids⟩

lemma broadcast_walked (hquiet : notify.QuietInWalks) (hcounted : s.Counted) (info : PacketInfo)
    (hbuffer : env.buffer s.ticks info.type = true) :
    ∃ t, broadcast env notify info s = (.ok (), t) ∧ Walked info (s.peers.map Peer.id) s t := by
  rcases @broadcast_outcome env notify s hquiet hcounted info with ⟨hfail, -⟩ | hwalked
  · rw [hbuffer] at hfail
    cases hfail
  · exact hwalked

end Walk

end Obus
