import Mathlib.Logic.Relation
import Obus.Server

/-!
# What the calls of the user can do to a server

Every call of the interface of the server, made from outside or from a callback, is a sequence of a
few kinds of elementary changes (`Micro`): a packet goes to a connected peer, a connected peer
becomes disconnected, a peer that is not connected is removed, and so on (`runApi_micros`,
`callback_micros`).  None of them answers a connection request or makes a peer connected.
-/

namespace Obus

open Relation

/-! ## Peers after a change -/

namespace Server

variable {s : Server} {p q : ℕ}

lemma peer?_isSome_of_ne_disconnected (h : s.peerState p ≠ .disconnected) :
    (s.peer? p).isSome = true := by
  cases hp : s.peer? p with
  | none =>
    rw [peerState, hp] at h
    exact absurd rfl h
  | some peer => rfl

lemma peerState_of_peer? {peer : Peer} (h : s.peer? p = some peer) :
    s.peerState p = peer.state := by
  rw [peerState, h]
  rfl

lemma peer?_eq_none_iff : s.peer? p = none ↔ p ∉ s.peers.map Peer.id := by
  simp [peer?]

lemma modifyPeer_ids {f : Peer → Peer} (hf : ∀ q, (f q).id = q.id) :
    (s.modifyPeer p f).peers.map Peer.id = s.peers.map Peer.id := by
  simp only [modifyPeer, List.map_map]
  refine List.map_congr_left fun q _ => ?_
  simp only [Function.comp_apply]
  split
  · exact hf q
  · rfl

lemma peer?_modifyPeer {f : Peer → Peer} (hf : ∀ q, (f q).id = q.id) :
    (s.modifyPeer p f).peer? q = (s.peer? q).map fun peer => if q = p then f peer else peer := by
  unfold peer? modifyPeer
  induction s.peers with
  | nil => rfl
  | cons a peers ih =>
    rw [List.map_cons]
    by_cases ha : a.id = q
    · have hid : (if a.id = p then f a else a).id = q := by
        split
        · rw [hf, ha]
        · exact ha
      rw [List.find?_cons_of_pos (by simpa using hid), List.find?_cons_of_pos (by simpa using ha)]
      simp [ha]
    · have hid : (if a.id = p then f a else a).id ≠ q := by
        split
        · rw [hf]
          exact ha
        · exact ha
      rw [List.find?_cons_of_neg (by simpa using hid), List.find?_cons_of_neg (by simpa using ha)]
      exact ih

lemma peerState_modifyPeer {f : Peer → Peer} (hf : ∀ q, (f q).id = q.id)
    (hstate : ∀ q, (f q).state = q.state) : (s.modifyPeer p f).peerState q = s.peerState q := by
  rw [peerState, peer?_modifyPeer hf, Option.map_map, peerState]
  cases s.peer? q with
  | none => rfl
  | some peer =>
    simp only [Option.map_some, Function.comp_apply, Option.getD_some]
    split
    · exact hstate peer
    · rfl

lemma peer?_setState {st : PeerState} :
    (s.setState p st).peer? q = (s.peer? q).map fun peer =>
      if q = p then { peer with state := st } else peer :=
  peer?_modifyPeer fun _ => rfl

lemma setState_ids {st : PeerState} : (s.setState p st).peers.map Peer.id = s.peers.map Peer.id :=
  modifyPeer_ids fun _ => rfl

lemma peerState_setState_self {st : PeerState} (h : (s.peer? p).isSome = true) :
    (s.setState p st).peerState p = st := by
  obtain ⟨peer, hp⟩ := Option.isSome_iff_exists.mp h
  rw [peerState, peer?_setState, hp]
  simp

lemma peerState_setState_of_ne {st : PeerState} (h : q ≠ p) :
    (s.setState p st).peerState q = s.peerState q := by
  rw [peerState, peer?_setState, peerState]
  cases s.peer? q with
  | none => rfl
  | some peer => simp [h]

lemma peerState_setState_ne_idle {st : PeerState} (hst : st ≠ .idle) :
    (s.setState p st).peerState p ≠ .idle := by
  intro hidle
  have hsome := peer?_isSome_of_ne_disconnected (s := s.setState p st) (p := p)
    (by rw [hidle]; decide)
  rw [peer?_setState, Option.isSome_map] at hsome
  exact hst ((peerState_setState_self hsome).symm.trans hidle)

lemma peer?_filter_of_ne (h : q ≠ p) :
    ({ s with peers := s.peers.filter (·.id ≠ p) } : Server).peer? q = s.peer? q := by
  unfold peer?
  rw [List.find?_filter]
  refine congrArg (fun f => s.peers.find? f) (funext fun a => ?_)
  by_cases ha : a.id = q
  · simp [ha, h]
  · simp [ha]

lemma peer?_filter_self : ({ s with peers := s.peers.filter (·.id ≠ p) } : Server).peer? p =
    none := by
  unfold peer?
  rw [List.find?_filter, List.find?_eq_none]
  intro a _
  simp

lemma peerState_filter :
    ({ s with peers := s.peers.filter (·.id ≠ p) } : Server).peerState q =
      if q = p then .disconnected else s.peerState q := by
  split
  · next h =>
    rw [h, peerState, peer?_filter_self]
    rfl
  · next h => rw [peerState, peer?_filter_of_ne h, peerState]

end Server

/-! ## Elementary changes -/

/-- The type of a packet that is broadcast: it neither answers a request nor acknowledges a call. -/
def PacketType.IsNews (type : PacketType) : Prop := type ≠ .conresp ∧ type ≠ .ack

/-- When the calls of the user use destroyed memory: a call or its peer only if `srv->call` points
to one. -/
def Fault.Raised (s : Server) : Fault → Prop
  | .absentString => False
  | .freedCall => ∃ call, s.call = some call ∧ call.alive = false
  | .freedPeer => ∃ call, s.call = some call ∧ s.peer? call.peer = none
  | .freedCursor | .freedObject | .listHead => True

/-- The elementary changes that the calls of the user are made of. -/
inductive Micro (env : Env) : Server → Server → Prop where
  /-- The objects of the bus change. -/
  | bus (s : Server) (b : Bus) (hapi : b.api = s.bus.api) : Micro env s { s with bus := b }
  | committed (s : Server) (info : PacketInfo) : Micro env s (s.log (.committed info))
  /-- A buffer is asked for or a write is tried. -/
  | tick (s : Server) : Micro env s { s with ticks := s.ticks + 1 }
  /-- A packet that is broadcast goes to a connected peer. -/
  | sent {s : Server} {p : ℕ} {info : PacketInfo} (hstate : s.peerState p = .connected)
      (hinfo : info.type.IsNews) : Micro env s (s.log (.sent p .connected info))
  /-- An acknowledgement of the call that is being handled goes to its peer. -/
  | acked {s : Server} {call : PendingCall} (ack : Ack) (hcall : s.call = some call)
      (halive : call.alive = true) (hhandle : ack.handle = call.handle) :
      Micro env s (s.log (.sent call.peer (s.peerState call.peer) (.ack ack)))
  | callDone (s : Server) (st : CallStatus) : Micro env s { s with callStatus := st, call := none }
  /-- A connected peer becomes disconnected because a write to it failed. -/
  | disconnected {s : Server} {p : ℕ} (hstate : s.peerState p = .connected)
      (hwrite : ∃ t type, PacketType.IsNews type ∧ env.write t p type = false) :
      Micro env s { s.setState p .disconnected with nPeersConnected := s.nPeersConnected - 1 }
  | notified (s : Server) (event : PeerEvent) (p : ℕ) : Micro env s (s.log (.notified event p))
  /-- A peer that is not connected any more is removed. -/
  | removed {s : Server} {p : ℕ} (hstate : s.peerState p = .disconnected) :
      Micro env s ({ s with peers := s.peers.filter (·.id ≠ p) }.log (.destroyed p))
  | walking (s : Server) (n : ℕ) : Micro env s { s with walking := n }
  /-- The user refuses a peer that asks to be connected. -/
  | refused {s : Server} {p : ℕ} (hstate : s.peerState p = .connecting) :
      Micro env s (s.setState p .refused)
  /-- Destroyed memory is used. -/
  | crashed (s : Server) (f : Fault) (hf : f.Raised s) : Micro env s (s.crash f)

/-- A sequence of elementary changes. -/
abbrev Micros (env : Env) := ReflTransGen (Micro env)

variable {env : Env} {s s' : Server}

/-- What an elementary change does to the state of a peer. -/
lemma Micro.peerState_cases (h : Micro env s s') (p : ℕ) :
    s'.peerState p = s.peerState p ∨
      (s.peerState p = .connected ∧ s'.peerState p = .disconnected ∧
        ∃ t type, PacketType.IsNews type ∧ env.write t p type = false) ∨
      (s.peerState p = .connecting ∧ s'.peerState p = .refused) := by
  cases h with
  | @disconnected q hstate hwrite =>
    by_cases hq : p = q
    · subst hq
      have hsome := Server.peer?_isSome_of_ne_disconnected (p := p) (s := s)
        (by rw [hstate]; decide)
      exact .inr (.inl ⟨hstate, Server.peerState_setState_self hsome, hwrite⟩)
    · exact .inl (Server.peerState_setState_of_ne hq)
  | @removed q hstate =>
    refine .inl ((Server.peerState_filter (s := s)).trans ?_)
    split
    · next h => rw [h, hstate]
    · rfl
  | @refused q hstate =>
    by_cases hq : p = q
    · subst hq
      have hsome := Server.peer?_isSome_of_ne_disconnected (p := p) (s := s)
        (by rw [hstate]; decide)
      exact .inr (.inr ⟨hstate, Server.peerState_setState_self hsome⟩)
    · exact .inl (Server.peerState_setState_of_ne hq)
  | _ => exact .inl rfl

/-- A property that every elementary change keeps is kept by a sequence of them. -/
lemma Micros.invariant {I : Server → Prop} (hstep : ∀ {s s'}, Micro env s s' → I s → I s')
    (h : Micros env s s') (hs : I s) : I s' := by
  induction h with
  | refl => exact hs
  | tail _ hlast ih => exact hstep hlast ih

/-- A peer that is disconnected stays so. -/
lemma Micros.disconnected (h : Micros env s s') {p : ℕ} (hp : s.peerState p = .disconnected) :
    s'.peerState p = .disconnected := by
  refine h.invariant (I := fun s => s.peerState p = .disconnected) (fun hm hi => ?_) hp
  rcases hm.peerState_cases p with heq | ⟨hc, -⟩ | ⟨hc, -⟩
  · rw [heq, hi]
  · rw [hi] at hc
    cases hc
  · rw [hi] at hc
    cases hc

/-! ## The calls of the user -/

section Calls

variable {notify : Notify}

/-- A notification makes elementary changes only. -/
def Notify.Steps (env : Env) (notify : Notify) : Prop :=
  ∀ event p s, Micros env s (notify event p s)

/-- What becomes of a peer in a broadcast. -/
lemma sendPeer_cases (env : Env) (notify : Notify) (info : PacketInfo) (p : ℕ) (s : Server) :
    s.peerState p ≠ .connected ∧ sendPeer env notify info p s = s ∨
      s.peerState p = .connected ∧ env.write s.ticks p info.type = true ∧
        sendPeer env notify info p s = { s with ticks := s.ticks + 1 }.log
          (.sent p .connected info) ∨
      s.peerState p = .connected ∧ env.write s.ticks p info.type = false ∧
        sendPeer env notify info p s = peerDestroy notify p { s with ticks := s.ticks + 1 } := by
  unfold sendPeer
  split
  · next hstate => exact .inl ⟨hstate, rfl⟩
  · next hstate =>
    rw [not_not] at hstate
    cases hwrite : env.write s.ticks p info.type with
    | true => exact .inr (.inl ⟨hstate, rfl, by simp only [ioWrite, hwrite, if_true, hstate]⟩)
    | false =>
      exact .inr (.inr ⟨hstate, rfl, by simp only [ioWrite, hwrite, Bool.false_eq_true, if_false]⟩)

/-- What a broadcast does. -/
lemma broadcast_cases (env : Env) (notify : Notify) (info : PacketInfo) (s : Server) :
    s.nPeersConnected = 0 ∧ broadcast env notify info s = (.ok (), s) ∨
      s.nPeersConnected ≠ 0 ∧ env.buffer s.ticks info.type = false ∧
        broadcast env notify info s = (.error .enomem, { s with ticks := s.ticks + 1 }) ∨
      s.nPeersConnected ≠ 0 ∧ env.buffer s.ticks info.type = true ∧
        broadcast env notify info s =
          (.ok (), sendPeers env notify info { s with ticks := s.ticks + 1 }) := by
  unfold broadcast
  split
  · next hnone => exact .inl ⟨hnone, rfl⟩
  · next hsome =>
    cases hbuf : env.buffer s.ticks info.type with
    | false => exact .inr (.inl ⟨hsome, rfl, by simp only [getBuffer, hbuf]⟩)
    | true => exact .inr (.inr ⟨hsome, rfl, by simp only [getBuffer, hbuf]⟩)

/-- What the body of a walk keeps is kept by the walk, and by the use of a destroyed cursor. -/
lemma walkPeers_rule {body : ℕ → Server → Server} {I : Server → Prop}
    (hbody : ∀ p s, I s → I (body p s))
    (hcrash : ∀ s, I s → I (s.crash .freedCursor)) (n : ℕ) (cursor : Option ℕ) {s : Server}
    (hs : I s) : I (walkPeers body n cursor s) := by
  induction n generalizing cursor s with
  | zero => exact hs
  | succ n ih =>
    cases cursor with
    | none => exact hs
    | some p =>
      rw [walkPeers]
      split
      · exact hcrash s hs
      · exact ih _ (hbody p s hs)

lemma sendPeer_micros (hnotify : notify.Steps env) {info : PacketInfo} (hinfo : info.type.IsNews)
    (p : ℕ) (s : Server) : Micros env s (sendPeer env notify info p s) := by
  rcases sendPeer_cases env notify info p s with ⟨-, heq⟩ | ⟨hstate, -, heq⟩ | ⟨hstate, hwrite, heq⟩
  · rw [heq]
  · rw [heq]
    exact (ReflTransGen.single (.tick s)).tail
      (.sent (s := { s with ticks := s.ticks + 1 }) hstate hinfo)
  · set t : Server := { s with ticks := s.ticks + 1 }
    have ht : t.peerState p = .connected := hstate
    have hsome := Server.peer?_isSome_of_ne_disconnected (p := p) (s := t) (by rw [ht]; decide)
    have hgone : ({ t.setState p .disconnected with nPeersConnected := t.nPeersConnected - 1 } :
        Server).peerState p = .disconnected := Server.peerState_setState_self hsome
    rw [heq]
    simp only [peerDestroy, ht, if_true]
    refine .tail (.trans (.tail (.single (.tick s)) (.disconnected ht ⟨_, _, hinfo, hwrite⟩))
      (hnotify .disconnected p _)) (.removed ?_)
    exact (hnotify .disconnected p _).disconnected hgone

lemma walkPeers_micros {body : ℕ → Server → Server} (hbody : ∀ p s, Micros env s (body p s)) (n : ℕ)
    (cursor : Option ℕ) (s : Server) : Micros env s (walkPeers body n cursor s) :=
  walkPeers_rule (I := Micros env s) (fun p t h => h.trans (hbody p t))
    (fun t h => h.tail (.crashed t _ trivial)) n cursor .refl

lemma sendPeers_micros (hnotify : notify.Steps env) {info : PacketInfo} (hinfo : info.type.IsNews)
    (s : Server) : Micros env s (sendPeers env notify info s) :=
  .tail (.head (.walking s _) (walkPeers_micros (sendPeer_micros hnotify hinfo) _ _ _))
    (.walking _ _)

lemma broadcast_micros (hnotify : notify.Steps env) (info : PacketInfo) (hinfo : info.type.IsNews)
    (s : Server) : Micros env s (broadcast env notify info s).2 := by
  rcases broadcast_cases env notify info s with ⟨-, heq⟩ | ⟨-, -, heq⟩ | ⟨-, -, heq⟩
  · rw [heq]
  · rw [heq]
    exact .single (.tick s)
  · rw [heq]
    exact .head (.tick s) (sendPeers_micros hnotify hinfo _)

/-! Changing the objects of a bus keeps its descriptor. -/

lemma foldl_busRegisterObject_api (handles : List UInt16) (bus : Bus) :
    (handles.foldl (fun bus h => busRegisterObject h bus) bus).api = bus.api := by
  induction handles generalizing bus with
  | nil => rfl
  | cons h handles ih => exact ih _

lemma foldl_busUnregisterObject_api (handles : List UInt16) (bus : Bus) :
    (handles.foldl (fun bus h => busUnregisterObject h bus) bus).api = bus.api := by
  induction handles generalizing bus with
  | nil => rfl
  | cons h handles ih => exact ih _

lemma commit_api (v : OwnEvent) (bus : Bus) : (v.commit bus).api = bus.api := by
  unfold OwnEvent.commit
  split <;> rfl

lemma foldl_commit_api (events : List OwnEvent) (bus : Bus) :
    (events.foldl (fun bus v => v.commit bus) bus).api = bus.api := by
  induction events generalizing bus with
  | nil => rfl
  | cons v events ih => exact (ih _).trans (commit_api v bus)

lemma busAddObject_api {draws : List UInt16} {obj obj' : Object} {bus bus' : Bus}
    (h : busAddObject draws obj bus = .ok (obj', bus')) : bus'.api = bus.api := by
  unfold busAddObject at h
  grind

lemma objectDestroy_api {handle : UInt16} {bus bus' : Bus}
    (h : objectDestroy handle bus = .ok bus') : bus'.api = bus.api := by
  unfold objectDestroy busRemoveObject at h
  grind

/-! What the check of a bus event finds. -/

lemma serverCheckObjects_ok {registered : Bool} {bus : Bus} {hs : List UInt16}
    (h : serverCheckObjects registered bus hs = .ok ()) :
    ∀ x ∈ hs, ∃ o, bus.object? x = some o ∧ o.isRegistered = registered := by
  induction hs with
  | nil => simp
  | cons a hs ih =>
    unfold serverCheckObjects at h
    split at h
    · cases h
    · next o ho =>
      split at h
      · next hreg =>
        rintro x (_ | ⟨_, hx⟩)
        · exact ⟨o, ho, hreg⟩
        · exact ih h x hx
      · cases h

lemma serverCheckObjects_fault {registered : Bool} {bus : Bus} {hs : List UInt16} {f : Fault}
    (h : serverCheckObjects registered bus hs = .error (.fault f)) : f = .freedObject := by
  induction hs with
  | nil => cases h
  | cons a hs ih =>
    unfold serverCheckObjects at h
    split at h
    · cases h
      rfl
    · split at h
      · exact ih h
      · cases h

lemma serverCheckEvents_ok {bus : Bus} {vs : List OwnEvent}
    (h : (serverCheckEvents bus vs).1 = .ok ()) :
    (serverCheckEvents bus vs).2 = vs.map OwnEvent.sanitize ∧
      ∀ v ∈ vs, ∃ o, v.event.obj.object? bus = some o ∧ o.isRegistered = true := by
  induction vs with
  | nil => exact ⟨rfl, by simp⟩
  | cons v vs ih =>
    unfold serverCheckEvents at h ⊢
    split at h
    · cases h
    · next o ho =>
      split at h
      · cases h
      · next hreg =>
        obtain ⟨hvs, hall⟩ := ih h
        rw [if_neg hreg]
        refine ⟨congrArg (v.sanitize :: ·) hvs, ?_⟩
        rintro w (_ | ⟨_, hw⟩)
        · exact ⟨o, ho, by simpa using hreg⟩
        · exact hall w hw

lemma serverCheckEvents_fault {bus : Bus} {vs : List OwnEvent} {f : Fault}
    (h : (serverCheckEvents bus vs).1 = .error (.fault f)) : f = .freedObject ∨ f = .listHead := by
  induction vs with
  | nil => cases h
  | cons v vs ih =>
    unfold serverCheckEvents at h
    split at h
    · cases h
      exact .inl rfl
    · split at h
      · cases h
        exact .inr rfl
      · exact ih h

/-- The bus event with its events sanitised. -/
def BusEventReq.sanitize (e : BusEventReq) : BusEventReq :=
  { e with objEvents := e.objEvents.map OwnEvent.sanitize }

/-- A bus event that is accepted: new objects are not registered yet, the others are. -/
structure BusEventReq.Accepted (e : BusEventReq) (bus : Bus) : Prop where
  addObjs : ∀ h ∈ e.addObjs, ∃ o, bus.object? h = some o ∧ o.isRegistered = false
  removeObjs : ∀ h ∈ e.removeObjs, ∃ o, bus.object? h = some o ∧ o.isRegistered = true
  objEvents : ∀ v ∈ e.objEvents, ∃ o, v.event.obj.object? bus = some o ∧ o.isRegistered = true

lemma serverCheckBusEvent_ok {e e' : BusEventReq} {bus : Bus}
    (h : serverCheckBusEvent e bus = (.ok (), e')) : e' = e.sanitize ∧ e.Accepted bus := by
  unfold serverCheckBusEvent at h
  split at h
  · cases h
  · next hadd =>
    split at h
    · cases h
    · next hremove =>
      obtain ⟨hevents, rfl⟩ := Prod.mk.inj h
      obtain ⟨heq, hall⟩ := serverCheckEvents_ok hevents
      refine ⟨?_, serverCheckObjects_ok hadd, serverCheckObjects_ok hremove, hall⟩
      rw [heq]
      rfl

/-- The check of a bus event uses destroyed objects at most, or the head of a list. -/
lemma serverCheckBusEvent_fault {e e' : BusEventReq} {bus : Bus} {f : Fault}
    (h : serverCheckBusEvent e bus = (.error (.fault f), e')) :
    f = .freedObject ∨ f = .listHead := by
  unfold serverCheckBusEvent at h
  split at h
  · next hadd =>
    cases h
    exact .inl (serverCheckObjects_fault hadd)
  · split at h
    · next hremove =>
      cases h
      exact .inl (serverCheckObjects_fault hremove)
    · obtain ⟨hevents, -⟩ := Prod.mk.inj h
      exact serverCheckEvents_fault hevents

/-- What `obus_server_send_ack` does. -/
lemma serverSendAck_cases (env : Env) (handle : UInt16) (status : CallStatus) (s : Server) :
    s.call = none ∧ serverSendAck env handle status s = (.error .enoent, s) ∨
      ∃ call, s.call = some call ∧
        (call.alive = false ∧ serverSendAck env handle status s =
          (.error .efault, s.crash .freedCall) ∨
        call.alive = true ∧ call.handle ≠ handle ∧ serverSendAck env handle status s =
          (.error .enoent, s) ∨
        call.alive = true ∧ call.handle = handle ∧ env.buffer s.ticks .ack = false ∧
          serverSendAck env handle status s = (.error .enomem, { s with ticks := s.ticks + 1 }) ∨
        call.alive = true ∧ call.handle = handle ∧ env.buffer s.ticks .ack = true ∧
        s.peer? call.peer = none ∧
          serverSendAck env handle status s =
            (.error .efault, Server.crash { s with ticks := s.ticks + 1 } .freedPeer) ∨
        call.alive = true ∧ call.handle = handle ∧ env.buffer s.ticks .ack = true ∧
          (s.peer? call.peer).isSome = true ∧
          serverSendAck env handle status s = (.ok (),
            { (ioWrite env call.peer (.ack ⟨call.handle, status.code⟩)
                { s with ticks := s.ticks + 1 }).2 with callStatus := status, call := none })) := by
  unfold serverSendAck
  split
  · next hcall => exact .inl ⟨hcall, rfl⟩
  · next call hcall =>
    refine .inr ⟨call, hcall, ?_⟩
    cases halive : call.alive with
    | false => exact .inl ⟨rfl, rfl⟩
    | true =>
      by_cases hhandle : call.handle = handle
      · simp only [Bool.not_true, Bool.false_eq_true, if_false, hhandle, ne_eq, not_true_eq_false,
          getBuffer]
        cases hbuf : env.buffer s.ticks .ack with
        | false => exact .inr (.inr (.inl ⟨trivial, trivial, rfl, rfl⟩))
        | true =>
          cases hpeer : s.peer? call.peer with
          | none =>
            refine .inr (.inr (.inr (.inl ⟨trivial, trivial, rfl, rfl, ?_⟩)))
            exact if_pos (Option.isNone_iff_eq_none.mpr hpeer)
          | some peer =>
            refine .inr (.inr (.inr (.inr ⟨trivial, trivial, rfl, rfl, ?_⟩)))
            refine if_neg fun hnone => ?_
            rw [Option.isNone_iff_eq_none] at hnone
            cases hpeer.symm.trans hnone
      · exact .inr (.inl ⟨rfl, hhandle, by simp [hhandle]⟩)

lemma serverSendAck_micros (handle : UInt16) (status : CallStatus) (s : Server) :
    Micros env s (serverSendAck env handle status s).2 := by
  rcases serverSendAck_cases env handle status s with ⟨-, heq⟩ | ⟨call, hcall, hcases⟩
  · rw [heq]
  · rcases hcases with ⟨hdead, heq⟩ | ⟨-, -, heq⟩ | ⟨-, -, -, heq⟩ | ⟨-, -, -, hpeer, heq⟩ |
      ⟨halive, -, -, -, heq⟩
    · rw [heq]
      exact .single (.crashed s _ ⟨call, hcall, hdead⟩)
    · rw [heq]
    · rw [heq]
      exact .single (.tick s)
    · rw [heq]
      exact .head (.tick s) (.single (.crashed _ _ ⟨call, hcall, hpeer⟩))
    · rw [heq]
      refine .head (.tick s) (.tail ?_ (.callDone _ status))
      simp only [ioWrite]
      split
      · exact .head (.tick _) (.single (.acked _ hcall halive rfl))
      · exact .single (.tick _)

/-- What is kept by changes of the objects of the bus, by their records, by broadcasts and by the
use of destroyed objects. -/
structure ApiRule (env : Env) (notify : Notify) (I : Server → Prop) : Prop where
  bus : ∀ {s b}, b.api = s.bus.api → I s → I { s with bus := b }
  committed : ∀ {s} (info : PacketInfo), I s → I (s.log (.committed info))
  broadcast : ∀ {s} {info : PacketInfo}, info.type.IsNews → I s → I (broadcast env notify info s).2
  crashed : ∀ {s f}, f = .freedObject ∨ f = .listHead → I s → I (s.crash f)

namespace ApiRule

variable {I : Server → Prop}

lemma serverNewObject (h : ApiRule env notify I) (desc : ObjectDesc) (info : Option Struct)
    (draws : List UInt16) (hs : I s) : I (serverNewObject desc info draws s) := by
  unfold Obus.serverNewObject
  split
  · exact hs
  · split
    · exact hs
    · next hadd => exact h.bus (busAddObject_api hadd) hs

lemma serverRegisterObject (h : ApiRule env notify I) (handle : UInt16) (hs : I s) :
    I (serverRegisterObject env notify handle s).2 := by
  unfold Obus.serverRegisterObject
  split
  · exact hs
  · split
    · exact hs
    · exact h.broadcast ⟨nofun, nofun⟩ (h.committed _ (h.bus rfl hs))

lemma serverUnregisterObject (h : ApiRule env notify I) (handle : UInt16) (hs : I s) :
    I (serverUnregisterObject env notify handle s).2 := by
  unfold Obus.serverUnregisterObject
  split
  · exact hs
  · split
    · exact hs
    · exact h.broadcast ⟨nofun, nofun⟩ (h.committed _ (h.bus rfl hs))

lemma serverSendEvent (h : ApiRule env notify I) (v : OwnEvent) (hs : I s) :
    I (serverSendEvent env notify v s).2.2 := by
  unfold Obus.serverSendEvent
  split
  · exact h.crashed (.inl rfl) hs
  · split
    · exact hs
    · have hsend : I (Obus.broadcast env notify (.event v.sanitize.event) s).2 :=
        h.broadcast ⟨nofun, nofun⟩ hs
      split
      · next heq =>
        rw [heq] at hsend
        exact hsend
      · next heq =>
        rw [heq] at hsend
        exact h.committed _ (h.bus (commit_api _ _) hsend)

lemma serverSendBusEvent (h : ApiRule env notify I) (e : BusEventReq) (hs : I s) :
    I (serverSendBusEvent env notify e s).2.2 := by
  unfold Obus.serverSendBusEvent
  split
  · exact hs
  · next hcheck => exact h.crashed (serverCheckBusEvent_fault hcheck) hs
  · next e' hcheck =>
    have hsend : I (Obus.broadcast env notify (.busEvent (e'.packet s.bus))
        { s with bus := e'.addObjs.foldl (fun bus h => busRegisterObject h bus) s.bus }).2 :=
      h.broadcast ⟨nofun, nofun⟩ (h.bus (foldl_busRegisterObject_api _ _) hs)
    simp only
    split
    · next heq =>
      rw [heq] at hsend
      exact h.bus (foldl_busUnregisterObject_api _ _) hsend
    · next heq =>
      rw [heq] at hsend
      exact h.committed _ (h.bus
        ((foldl_busUnregisterObject_api _ _).trans (foldl_commit_api _ _)) hsend)

/-- The rule for the calls of the interface: acknowledgements and refusals are apart. -/
lemma runApi (h : ApiRule env notify I) {a : Api} (hs : I s)
    (hack : ∀ handle status, a = .sendAck handle status → I (serverSendAck env handle status s).2)
    (hrefuse : ∀ p, a = .refuseConnection p → I (peerRefuseConnection p s)) :
    I (runApi env notify a s) := by
  cases a with
  | newObject desc info draws => exact h.serverNewObject desc info draws hs
  | registerObject handle => exact h.serverRegisterObject handle hs
  | unregisterObject handle => exact h.serverUnregisterObject handle hs
  | destroyObject handle =>
    rw [Obus.runApi]
    split
    · exact hs
    · next hdestroy => exact h.bus (objectDestroy_api hdestroy) hs
  | sendEvent event => exact h.serverSendEvent event hs
  | sendBusEvent event => exact h.serverSendBusEvent event hs
  | sendAck handle status => exact hack handle status rfl
  | refuseConnection p => exact hrefuse p rfl

end ApiRule

/-- Elementary changes are what the rule speaks of. -/
lemma apiRule_micros (hnotify : notify.Steps env) (s : Server) :
    ApiRule env notify (Micros env s) where
  bus hapi h := h.tail (.bus _ _ hapi)
  committed info h := h.tail (.committed _ info)
  broadcast hinfo h := h.trans (broadcast_micros hnotify _ hinfo _)
  crashed hf h := h.tail (.crashed _ _ (by rcases hf with rfl | rfl <;> trivial))

/-- Every call of the interface makes elementary changes only. -/
lemma runApi_micros (hnotify : notify.Steps env) (a : Api) (s : Server) :
    Micros env s (runApi env notify a s) := by
  refine (apiRule_micros hnotify s).runApi .refl
    (fun handle status _ => serverSendAck_micros handle status s) ?_
  intro p _
  unfold peerRefuseConnection
  split
  · next h => exact .single (.refused h)
  · exact .refl

lemma foldl_runApi_micros (hnotify : notify.Steps env) (calls : List Api) (s : Server) :
    Micros env s (calls.foldl (fun s a => runApi env notify a s) s) := by
  induction calls generalizing s with
  | nil => exact .refl
  | cons a calls ih => exact (runApi_micros hnotify a s).trans (ih _)

/-- The callback of the user makes elementary changes only, however deep it nests. -/
lemma callback_micros (user : User) (env : Env) (depth : ℕ) :
    Notify.Steps env (callback user env depth) := by
  induction depth with
  | zero => exact fun event p s => .single (.notified s event p)
  | succ depth ih => exact fun event p s => .head (.notified s event p) (foldl_runApi_micros ih _ _)

end Calls

/-! ## Steps -/

section Steps

variable {user : User} {depth p : ℕ}

lemma serverStep_accept (h : serverStep user depth s (.accept, env) = some s') :
    s' =
      { s with peers := s.peers ++ [⟨s.nextPeer, .idle, none⟩], nextPeer := s.nextPeer + 1 } := by
  simp only [serverStep] at h
  split at h
  · cases h
  · exact (Option.some.inj h).symm

lemma serverStep_api {a : Api} (h : serverStep user depth s (.api a, env) = some s') :
    s' = runApi env (callback user env depth) a s := by
  simp only [serverStep] at h
  split at h
  · cases h
  · exact (Option.some.inj h).symm

lemma serverStep_closed (h : serverStep user depth s (.closed p, env) = some s') :
    (s.peer? p).isSome = true ∧ s' = peerDestroy (callback user env depth) p s := by
  simp only [serverStep] at h
  split at h
  · cases h
  · split at h
    · cases h
    · next hpeer =>
      refine ⟨?_, (Option.some.inj h).symm⟩
      rwa [← Option.not_isNone, Bool.not_eq_true', Bool.eq_false_iff]

/-- There is a step for a packet only without a fault and for a peer that exists. -/
lemma serverStep_packet {info : PacketInfo}
    (h : serverStep user depth s (.packet p info, env) = some s') :
    s.fault = none ∧ (s.peer? p).isSome = true ∧ s' = peerPacket user env depth p info s := by
  simp only [serverStep] at h
  split at h
  · cases h
  · next hfault =>
    split at h
    · cases h
    · next hpeer =>
      refine ⟨by simpa using hfault, ?_, (Option.some.inj h).symm⟩
      rwa [← Option.not_isNone, Bool.not_eq_true', Bool.eq_false_iff]

end Steps

/-! ## Calls of peers -/

/-- The end of a call: it is acknowledged unless the handler has done so, and destroyed. -/
def callEnd (env : Env) (handle : UInt16) (status : CallStatus) (s : Server) : Server :=
  let s := if s.callStatus = .invalid then (serverSendAck env handle status s).2 else s
  { s with call := s.call.map fun c => { c with alive := false } }

/-- A call is taken, perhaps handled by its handler, and ended. -/
lemma peerCallRequest_cases (env : Env) (handler : Handler) (p : ℕ) (call : Call) (s : Server) :
    ∃ status u, peerCallRequest env handler p call s = callEnd env call.handle status u ∧
      (u = { s with call := some ⟨p, call.handle, true⟩, callStatus := .invalid } ∨
        handler p call { s with call := some ⟨p, call.handle, true⟩, callStatus := .invalid } =
          some u) := by
  unfold peerCallRequest
  refine ⟨_, _, rfl, ?_⟩
  set t : Server := { s with call := some ⟨p, call.handle, true⟩, callStatus := .invalid }
  split
  · exact .inl rfl
  · split
    · exact .inl rfl
    · split
      · cases hinvoke : handler p call t with
        | none => exact .inl rfl
        | some u => exact .inr rfl
      · exact .inl rfl
      · exact .inl rfl
      · exact .inl rfl

end Obus
