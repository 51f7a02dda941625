import Obus.Atomic
import Obus.ServerBus

/-!
# Bus events

A bus event does in one what its parts do one after the other: the objects that it adds are
registered, its events are sent, and the objects that it removes are unregistered
(`BusEventReq.updates`).  The server ends with the same objects, and a client that reads the packet
of the bus event becomes the same as one that reads the packets of the parts: `bus_event_refines`.

Callbacks that run in between and change objects tell the two apart, and so do failures of single
parts.
-/

namespace Obus

/-- Perform updates one after the other, until one fails. -/
def runUpdates (env : Env) (notify : Notify) : List Update → Server → Except Errno Server
  | [], s => .ok s
  | u :: us, s =>
    match u.run env notify s with
    | (.error e, _) => .error e
    | (.ok (), _, s') => runUpdates env notify us s'

/-- The parts of a bus event. -/
def BusEventReq.updates (e : BusEventReq) : List Update :=
  e.addObjs.map .registerObject ++
    (e.objEvents.map .sendEvent ++ e.removeObjs.map .unregisterObject)

/-- The packets of the parts of a bus event. -/
def BusEvent.parts (b : BusEvent) : List PacketInfo :=
  b.addObjs.map .add ++ (b.objEvents.map .event ++ b.removeObjs.map fun r => .remove (some r))

/-- The changes that the server has made to its objects, as they are announced. -/
def commits (trace : List Action) : List PacketInfo :=
  trace.filterMap fun
    | .committed info => some info
    | _ => none

/-- A notification that does not change the objects. -/
structure Notify.Quiet (notify : Notify) : Prop where
  bus : ∀ event p s, (notify event p s).bus = s.bus
  commits : ∀ event p s, commits (notify event p s).trace = commits s.trace

/-- The server without its objects and its records. -/
def Server.rest (s : Server) : Server :=
  { s with bus := { api := s.bus.api }, ticks := 0, fault := none, trace := [] }

/-! ## What a broadcast leaves alone -/

section Broadcast

variable {env : Env} {notify : Notify} {s : Server}

lemma commits_log (s : Server) (a : Action) :
    commits (s.log a).trace = commits s.trace ++ commits [a] := by
  simp [commits, Server.log]

/-- A broadcast changes no object by itself. -/
lemma Notify.Quiet.broadcast (h : notify.Quiet) (info : PacketInfo) (s : Server) :
    (broadcast env notify info s).2.bus = s.bus ∧
      Obus.commits (Obus.broadcast env notify info s).2.trace = Obus.commits s.trace := by
  have hdestroy : ∀ p (t : Server), t.bus = s.bus ∧ Obus.commits t.trace = Obus.commits s.trace →
      (peerDestroy notify p t).bus = s.bus ∧ Obus.commits (peerDestroy notify p t).trace =
        Obus.commits s.trace := by
    intro p t ht
    unfold peerDestroy
    simp only [Server.log]
    split
    · refine ⟨(h.bus _ _ _).trans ht.1, ?_⟩
      have hlog := commits_log (notify .disconnected p
        { t.setState p .disconnected with nPeersConnected := t.nPeersConnected - 1 }) (.destroyed p)
      exact (hlog.trans (List.append_nil _)).trans ((h.commits _ _ _).trans ht.2)
    · exact ⟨ht.1, ((commits_log t (.destroyed p)).trans (List.append_nil _)).trans ht.2⟩
  have hsend : ∀ p (t : Server), t.bus = s.bus ∧ Obus.commits t.trace = Obus.commits s.trace →
      (sendPeer env notify info p t).bus = s.bus ∧
        Obus.commits (sendPeer env notify info p t).trace = Obus.commits s.trace := by
    intro p t ht
    rcases sendPeer_cases env notify info p t with ⟨-, heq⟩ | ⟨-, -, heq⟩ | ⟨-, -, heq⟩
    · rwa [heq]
    · rw [heq]
      exact ⟨ht.1, ((commits_log t (.sent p .connected info)).trans (List.append_nil _)).trans ht.2⟩
    · rw [heq]
      exact hdestroy p _ ht
  rcases broadcast_cases env notify info s with ⟨-, heq⟩ | ⟨-, -, heq⟩ | ⟨-, -, heq⟩
  · rw [heq]
    exact ⟨rfl, rfl⟩
  · rw [heq]
    exact ⟨rfl, rfl⟩
  · rw [heq]
    exact walkPeers_rule (I := fun t : Server => t.bus = s.bus ∧
      Obus.commits t.trace = Obus.commits s.trace)
      hsend (fun _ ht => ht) _ _ ⟨rfl, rfl⟩

/-- While writes succeed, a broadcast changes nothing but the records. -/
lemma broadcast_rest (hwrite : ∀ n p type, env.write n p type = true) (info : PacketInfo)
    (s : Server) : (broadcast env notify info s).2.rest = s.rest := by
  have hsend : ∀ p (t : Server), (sendPeer env notify info p t).rest = t.rest := by
    intro p t
    rcases sendPeer_cases env notify info p t with ⟨-, heq⟩ | ⟨-, -, heq⟩ | ⟨-, hfail, -⟩
    · rw [heq]
    · rw [heq]
      rfl
    · rw [hwrite] at hfail
      cases hfail
  rcases broadcast_cases env notify info s with ⟨-, heq⟩ | ⟨-, -, heq⟩ | ⟨-, -, heq⟩
  · rw [heq]
  · rw [heq]
    rfl
  · rw [heq]
    have hwalk := walkPeers_rule
      (I := fun t : Server => t.rest = { s.rest with walking := s.walking + 1 })
      (fun p t ht => (hsend p t).trans ht) (fun _ ht => ht) s.peers.length
        (s.peers.head?.map Peer.id)
      (s := { s with ticks := s.ticks + 1, walking := s.walking + 1 }) rfl
    exact congrArg (fun t : Server => { t with walking := t.walking - 1 }) hwalk

/-- While writes succeed, the calls of the interface do not touch the rest of the server. -/
lemma apiRule_rest (hwrite : ∀ n p type, env.write n p type = true) (r : Server) :
    ApiRule env notify fun t => t.rest = r where
  bus hapi h := by
    rw [← h]
    simp only [Server.rest, hapi]
  committed _ h := h
  broadcast _ h := (broadcast_rest hwrite _ _).trans h
  crashed _ h := h

end Broadcast

/-! ## The server -/

section Server

variable {env : Env} {notify : Notify} {s t : Server}

/-- The server after some updates: the objects of its bus, and what was announced. -/
structure Leads (env : Env) (notify : Notify) (us : List Update) (s : Server) (bus : Bus)
    (news : List PacketInfo) (t : Server) : Prop where
  run : runUpdates env notify us s = .ok t
  bus : t.bus = bus
  commits : commits t.trace = commits s.trace ++ news

lemma Leads.nil (s : Server) : Leads env notify [] s s.bus [] s :=
  ⟨rfl, rfl, (List.append_nil _).symm⟩

lemma Leads.append {us vs : List Update} {bus bus' : Bus} {news news' : List PacketInfo}
    {u : Server} (h : Leads env notify us s bus news t) (h' : Leads env notify vs t bus' news' u) :
    Leads env notify (us ++ vs) s bus' (news ++ news') u := by
  refine ⟨?_, h'.bus, by rw [h'.commits, h.commits, List.append_assoc]⟩
  have hrun : ∀ (us : List Update) (s : Server), runUpdates env notify us s = .ok t →
      runUpdates env notify (us ++ vs) s = runUpdates env notify vs t := by
    intro us
    induction us with
    | nil =>
      intro s hs
      cases hs
      rfl
    | cons a us ih =>
      intro s hs
      unfold runUpdates at hs
      rw [List.cons_append, runUpdates]
      split at hs
      · cases hs
      · exact ih _ hs
  rw [hrun us s h.run, h'.run]

/-- Where buffers can be had and callbacks change no object, a broadcast succeeds. -/
lemma Notify.Quiet.broadcast_ok (h : notify.Quiet) (hbuffer : ∀ n type, env.buffer n type = true)
    (info : PacketInfo) (s : Server) : ∃ t, Obus.broadcast env notify info s = (.ok (), t) ∧
    t.bus = s.bus ∧
      Obus.commits t.trace = Obus.commits s.trace := by
  have hkeeps : (Obus.broadcast env notify info s).2.bus = s.bus ∧ _ := h.broadcast info s
  rcases broadcast_cases env notify info s with ⟨-, heq⟩ | ⟨-, hfail, -⟩ | ⟨-, -, heq⟩
  · exact ⟨s, heq, rfl, rfl⟩
  · rw [hbuffer] at hfail
    cases hfail
  · rw [heq] at hkeeps
    exact ⟨_, heq, hkeeps⟩

variable (hquiet : notify.Quiet) (hbuffer : ∀ n type, env.buffer n type = true)

include hquiet hbuffer

lemma leads_registerObject {x : UInt16} {o : Object} (ho : s.bus.object? x = some o)
    (hflag : o.isRegistered = false) :
    ∃ t, Leads env notify [.registerObject x] s (busRegisterObject x s.bus) [.add o] t := by
  obtain ⟨t, hsend, hbus, hcommits⟩ := hquiet.broadcast_ok hbuffer (.add o)
    ({ s with bus := busRegisterObject x s.bus }.log (.committed (.add o)))
  have hrun : serverRegisterObject env notify x s = (.ok (), t) := by
    rw [serverRegisterObject, ho]
    simp only [hflag, Bool.false_eq_true, if_false]
    exact hsend
  refine ⟨t, ?_, hbus, ?_⟩
  · simp only [runUpdates, Update.run, hrun]
  · rw [hcommits]
    exact commits_log { s with bus := busRegisterObject x s.bus } _

lemma leads_unregisterObject {x : UInt16} {o : Object} (ho : s.bus.object? x = some o)
    (hflag : o.isRegistered = true) :
    ∃ t, Leads env notify [.unregisterObject x] s
      (busUnregisterObject x s.bus) [.remove (some o.ref)] t := by
  obtain ⟨t, hsend, hbus, hcommits⟩ := hquiet.broadcast_ok hbuffer (.remove (some o.ref))
    ({ s with bus := busUnregisterObject x s.bus }.log (.committed (.remove (some o.ref))))
  have hrun : serverUnregisterObject env notify x s = (.ok (), t) := by
    rw [serverUnregisterObject, ho]
    simp only [hflag, Bool.not_true, Bool.false_eq_true, if_false]
    exact hsend
  refine ⟨t, ?_, hbus, ?_⟩
  · simp only [runUpdates, Update.run, hrun]
  · rw [hcommits]
    exact commits_log { s with bus := busUnregisterObject x s.bus } _

lemma leads_sendEvent {v : OwnEvent} {o : Object} (ho : v.event.obj.object? s.bus = some o)
    (hflag : o.isRegistered = true) :
    ∃ t, Leads env notify [.sendEvent v] s
      (v.sanitize.commit s.bus) [.event v.sanitize.event] t := by
  obtain ⟨t, hsend, hbus, hcommits⟩ := hquiet.broadcast_ok hbuffer (.event v.sanitize.event) s
  have hrun : serverSendEvent env notify v s = (.ok (), { v.sanitize with isCommitted := true },
      { t with bus := v.sanitize.commit t.bus }.log (.committed (.event v.sanitize.event))) := by
    rw [serverSendEvent, ho]
    simp only [hflag, Bool.not_true, Bool.false_eq_true, if_false, hsend]
  refine ⟨{ t with bus := v.sanitize.commit t.bus }.log (.committed (.event v.sanitize.event)),
    ?_, ?_, ?_⟩
  · simp only [runUpdates, Update.run, hrun]
  · exact congrArg v.sanitize.commit hbus
  · rw [commits_log]
    exact congrArg (· ++ _) hcommits

lemma leads_registerObjects {hs : List UInt16} (hnodup : hs.Nodup)
    (hnew : ∀ x ∈ hs, ∃ o, s.bus.object? x = some o ∧ o.isRegistered = false) :
    ∃ t, Leads env notify (hs.map .registerObject) s
      (hs.foldl (fun bus x => busRegisterObject x bus) s.bus)
      ((hs.filterMap s.bus.object?).map .add) t := by
  induction hs generalizing s with
  | nil => exact ⟨s, .nil s⟩
  | cons x hs ih =>
    rw [List.nodup_cons] at hnodup
    obtain ⟨o, ho, hflag⟩ := hnew x List.mem_cons_self
    obtain ⟨t, ht⟩ := leads_registerObject hquiet hbuffer ho hflag
    have hother : ∀ y ∈ hs, t.bus.object? y = s.bus.object? y := by
      intro y hy
      have hne : y ≠ x := fun heq => hnodup.1 (heq ▸ hy)
      rw [ht.bus, Bus.object?_register]
      simp [hne]
    obtain ⟨u, hu⟩ := ih (s := t) hnodup.2 fun y hy => by
      rw [hother y hy]
      exact hnew y (List.mem_cons_of_mem x hy)
    rw [List.filterMap_congr hother, ht.bus] at hu
    rw [List.filterMap_cons_some ho]
    exact ⟨u, ht.append hu⟩

lemma leads_sendEvents {vs : List OwnEvent}
    (hfound : ∀ v ∈ vs, ∃ o, v.event.obj.object? s.bus = some o ∧ o.isRegistered = true) :
    ∃ t, Leads env notify (vs.map .sendEvent) s
      ((vs.map OwnEvent.sanitize).foldl (fun bus v => v.commit bus) s.bus)
      (((vs.map OwnEvent.sanitize).map OwnEvent.event).map .event) t := by
  induction vs generalizing s with
  | nil => exact ⟨s, .nil s⟩
  | cons v vs ih =>
    obtain ⟨o, ho, hflag⟩ := hfound v List.mem_cons_self
    obtain ⟨t, ht⟩ := leads_sendEvent hquiet hbuffer ho hflag
    obtain ⟨u, hu⟩ := ih (s := t) fun w hw => by
      rw [ht.bus]
      exact registered_of_flagged ref_commit (hfound w (List.mem_cons_of_mem v hw))
    rw [ht.bus] at hu
    exact ⟨u, ht.append hu⟩

lemma leads_unregisterObjects {hs : List UInt16} (hnodup : hs.Nodup)
    (hfound : ∀ x ∈ hs, ∃ o, s.bus.object? x = some o ∧ o.isRegistered = true) :
    ∃ t, Leads env notify (hs.map .unregisterObject) s
      (hs.foldl (fun bus x => busUnregisterObject x bus) s.bus)
      ((hs.filterMap fun x => (s.bus.object? x).map Object.ref).map fun r =>
        .remove (some r)) t := by
  induction hs generalizing s with
  | nil => exact ⟨s, .nil s⟩
  | cons x hs ih =>
    rw [List.nodup_cons] at hnodup
    obtain ⟨o, ho, hflag⟩ := hfound x List.mem_cons_self
    obtain ⟨t, ht⟩ := leads_unregisterObject hquiet hbuffer ho hflag
    have hother : ∀ y ∈ hs, t.bus.object? y = s.bus.object? y := by
      intro y hy
      have hne : y ≠ x := fun heq => hnodup.1 (heq ▸ hy)
      rw [ht.bus, Bus.object?_unregister]
      simp [hne]
    obtain ⟨u, hu⟩ := ih (s := t) hnodup.2 fun y hy => by
      rw [hother y hy]
      exact hfound y (List.mem_cons_of_mem x hy)
    rw [List.filterMap_congr fun y hy => by rw [hother y hy], ht.bus] at hu
    rw [List.filterMap_cons_some (b := o.ref) (by rw [ho]; rfl)]
    exact ⟨u, ht.append hu⟩

/-- The parts of a bus event that is accepted all succeed, with the changes that the bus event
makes. -/
lemma leads_updates {e : BusEventReq} (hacc : e.Accepted s.bus) :
    ∃ t, Leads env notify e.updates s
      (serverCommitBusEvent e.sanitize
        (e.addObjs.foldl (fun bus x => busRegisterObject x bus) s.bus))
      (e.sanitize.packet s.bus).parts t := by
  have hnodup := List.nodup_append.mp e.once
  obtain ⟨t₁, h₁⟩ := leads_registerObjects hquiet hbuffer hnodup.1 hacc.addObjs
  have hevents : ∀ v ∈ e.objEvents, ∃ o, v.event.obj.object? t₁.bus = some o ∧
      o.isRegistered = true := by
    intro v hv
    rw [h₁.bus]
    exact registered_foldl_register e.addObjs (hacc.objEvents v hv)
  obtain ⟨t₂, h₂⟩ := leads_sendEvents hquiet hbuffer hevents
  have hrefs : ∀ x, (t₂.bus.object? x).map Object.ref = (s.bus.object? x).map Object.ref := by
    intro x
    rw [h₂.bus, ref_of_flagged (ref_foldl_commit _), h₁.bus, ref_foldl_register]
  have hremoves : ∀ x ∈ e.removeObjs, ∃ o, t₂.bus.object? x = some o ∧ o.isRegistered = true := by
    intro x hx
    obtain ⟨o, ho, hflag⟩ := hacc.removeObjs x hx
    have hx' : o.ref.handle = x := Bus.object?_handle ho
    have hfound : o.ref.object? s.bus = some o := ObjectRef.object?_eq_some.mpr ⟨hx' ▸ ho, rfl⟩
    have hfound₁ := registered_foldl_register e.addObjs ⟨o, hfound, hflag⟩
    rw [← h₁.bus] at hfound₁
    obtain ⟨o', ho', hflag'⟩ :=
      registered_of_flagged (ref_foldl_commit (e.objEvents.map OwnEvent.sanitize)) hfound₁
    rw [← h₂.bus, ObjectRef.object?_eq_some, hx'] at ho'
    exact ⟨o', ho'.1, hflag'⟩
  obtain ⟨t₃, h₃⟩ := leads_unregisterObjects hquiet hbuffer hnodup.2.1 hremoves
  have hall := h₁.append (h₂.append h₃)
  rw [List.filterMap_congr fun x _ => hrefs x, h₂.bus, h₁.bus] at hall
  exact ⟨t₃, hall⟩

omit hbuffer in
/-- What a bus event does that is accepted. -/
lemma sendBusEvent_accepted {e : BusEventReq}
    (haccept : (serverSendBusEvent env notify e s).1 = .ok ()) :
    e.Accepted s.bus ∧ (serverSendBusEvent env notify e s).2.2.bus =
        serverCommitBusEvent e.sanitize
          (e.addObjs.foldl (fun bus x => busRegisterObject x bus) s.bus) ∧
      commits (serverSendBusEvent env notify e s).2.2.trace =
        commits s.trace ++ [.busEvent (e.sanitize.packet s.bus)] := by
  unfold serverSendBusEvent at haccept ⊢
  split at haccept
  · cases haccept
  · cases haccept
  · next e' hcheck =>
    obtain ⟨rfl, hacc⟩ := serverCheckBusEvent_ok hcheck
    refine ⟨hacc, ?_⟩
    have hkeeps : (broadcast env notify (.busEvent (e.sanitize.packet s.bus))
        { s with
          bus := e.sanitize.addObjs.foldl (fun bus x => busRegisterObject x bus) s.bus }).2.bus =
            _ ∧ _ :=
      hquiet.broadcast _ _
    simp only at haccept ⊢
    split at haccept
    · cases haccept
    · next t hsend =>
      rw [hsend] at hkeeps
      refine ⟨congrArg (serverCommitBusEvent e.sanitize) hkeeps.1, ?_⟩
      exact (commits_log { t with bus := serverCommitBusEvent e.sanitize t.bus } _).trans
        (congrArg (· ++ _) hkeeps.2)

end Server

/-- While writes succeed, updates that all succeed do not touch the rest of the server. -/
lemma runUpdates_rest {env : Env} {notify : Notify} (hwrite : ∀ n p type, env.write n p type = true)
    {us : List Update} {s t : Server} (hrun : runUpdates env notify us s = .ok t) :
    t.rest = s.rest := by
  induction us generalizing s with
  | nil =>
    cases hrun
    rfl
  | cons u us ih =>
    have hrule : ApiRule env notify fun t => t.rest = s.rest := apiRule_rest hwrite s.rest
    have hstep : (u.run env notify s).2.2.rest = s.rest := by
      cases u with
      | registerObject x => exact hrule.serverRegisterObject x rfl
      | unregisterObject x => exact hrule.serverUnregisterObject x rfl
      | sendEvent v => exact hrule.serverSendEvent v rfl
      | sendBusEvent e => exact hrule.serverSendBusEvent e rfl
    unfold runUpdates at hrun
    split at hrun
    · cases hrun
    · next s' heq =>
      rw [heq] at hstep
      exact (ih hrun).trans hstep

/-! ## The client -/

/-- The packets of the parts of a bus event are not longer than its packet. -/
lemma BusEvent.length_parts (b : BusEvent) :
    ∀ info ∈ b.parts, info.bytes.length ≤ (PacketInfo.busEvent b).bytes.length := by
  have hbody : ∀ {l : List UInt8}, l <:+: b.addObjs.flatMap objectAddBytes ∨
      l <:+: b.removeObjs.flatMap objectRemoveBytes ∨ l <:+: b.objEvents.flatMap eventBytes →
      l.length ≤ (busEventBytes b).length := by
    intro l h
    simp only [busEventBytes, List.length_append]
    rcases h with h | h | h
    · have := h.length_le
      omega
    · have := h.length_le
      omega
    · have := h.length_le
      omega
  have hpart : ∀ {α : Type} (f : α → List UInt8) {l : List α} {a : α}, a ∈ l →
      f a <:+: l.flatMap f := by
    intro α f l a ha
    obtain ⟨l₁, l₂, rfl⟩ := List.append_of_mem ha
    exact ⟨l₁.flatMap f, l₂.flatMap f, by simp⟩
  intro info hinfo
  rw [PacketInfo.bytes_length, PacketInfo.bytes_length]
  refine Nat.add_le_add_left ?_ _
  rcases List.mem_append.mp hinfo with hadd | hrest
  · obtain ⟨o, ho, rfl⟩ := List.mem_map.mp hadd
    exact hbody (.inl (hpart objectAddBytes ho))
  · rcases List.mem_append.mp hrest with hevent | hremove
    · obtain ⟨v, hv, rfl⟩ := List.mem_map.mp hevent
      exact hbody (.inr (.inr (hpart eventBytes hv)))
    · obtain ⟨r, hr, rfl⟩ := List.mem_map.mp hremove
      exact hbody (.inr (.inl (hpart objectRemoveBytes hr)))

namespace Tidy

variable {api : BusDesc} {c : Client} (hapi : api.Ok)

include hapi

lemma read_adds (h : Tidy api c) {objects : List Object} (hadds : Adds api objects c.bus.replica)
    (hlen : ∀ o ∈ objects, (PacketInfo.add o).bytes.length < 2 ^ 32) :
    (objects.map PacketInfo.add).foldl (fun c info => c.read info) c =
      (objects.map Object.arrival).foldl (fun c o => c.addObject o) c := by
  induction objects generalizing c with
  | nil => rfl
  | cons o objects ih =>
    have hfirst : Adds api [o] c.bus.replica := by
      refine ⟨fun a ha => hadds.full a (List.mem_cons.mpr (.inl (List.mem_singleton.mp ha))), ?_⟩
      exact hadds.fresh.sublist (List.Sublist.append_left (by simp) _)
    obtain ⟨hread, htidy, hreplica⟩ := h.read hapi (.add o) hfirst nofun (hlen o List.mem_cons_self)
    have hrest : Adds api objects (c.read (.add o)).bus.replica := by
      refine ⟨fun a ha => hadds.full a (List.mem_cons_of_mem o ha), ?_⟩
      rw [hreplica, PacketInfo.apply, applyAdd_handles, List.append_assoc]
      exact hadds.fresh
    have hnext := ih htidy hrest fun a ha => hlen a (List.mem_cons_of_mem o ha)
    rw [List.map_cons, List.foldl_cons, hnext, hread]
    rfl

lemma read_events (h : Tidy api c) {events : List Event} (hof : ∀ v ∈ events, v.Of c.bus.replica)
    (hlen : ∀ v ∈ events, (PacketInfo.event v).bytes.length < 2 ^ 32) :
    (events.map PacketInfo.event).foldl (fun c info => c.read info) c =
      (events.map Event.arrival).foldl (fun c v => c.event v) c := by
  induction events generalizing c with
  | nil => rfl
  | cons v events ih =>
    obtain ⟨hread, htidy, hreplica⟩ :=
      h.read hapi (.event v) (hof v List.mem_cons_self) nofun (hlen v List.mem_cons_self)
    have hrest : ∀ w ∈ events, w.Of (c.read (.event v)).bus.replica := by
      intro w hw
      refine (hof w (List.mem_cons_of_mem v hw)).mono fun r hr => ?_
      rwa [hreplica, PacketInfo.apply, applyEvent_refs]
    have hnext := ih htidy hrest fun w hw => hlen w (List.mem_cons_of_mem v hw)
    rw [List.map_cons, List.foldl_cons, hnext, hread]
    rfl

lemma read_removes (h : Tidy api c) {refs : List ObjectRef}
    (hnodup : (refs.map ObjectRef.handle).Nodup)
    (hrefs : ∀ r ∈ refs, r ∈ c.bus.replica.map Object.ref) :
    (refs.map fun r => PacketInfo.remove (some r)).foldl (fun c info => c.read info) c =
      refs.foldl (fun c r => c.removeObject (some r)) c := by
  induction refs generalizing c with
  | nil => rfl
  | cons r refs ih =>
    rw [List.map_cons, List.nodup_cons] at hnodup
    have hlen : (PacketInfo.remove (some r)).bytes.length < 2 ^ 32 := by
      simp [PacketInfo.bytes_length, PacketInfo.bodyBytes, objectRemoveBytes, pktHdrSize]
    obtain ⟨hread, htidy, hreplica⟩ :=
      h.read hapi (.remove (some r)) ⟨r, rfl, hrefs r List.mem_cons_self⟩ (by rintro ⟨⟩) hlen
    have hnext := ih htidy hnodup.2 fun q hq => by
      rw [hreplica]
      refine mem_refs_applyRemove (hrefs q (List.mem_cons_of_mem r hq)) fun heq => hnodup.1 ?_
      exact heq ▸ List.mem_map_of_mem hq
    rw [List.map_cons, List.foldl_cons, hnext, hread]
    rfl

/-- Reading the packet of a bus event is the same as reading the packets of its parts. -/
lemma read_parts (h : Tidy api c) {b : BusEvent}
    (hfits : PacketInfo.Fits api c.bus.replica (.busEvent b))
    (hlen : (PacketInfo.busEvent b).bytes.length < 2 ^ 32) :
    c.read (.busEvent b) = b.parts.foldl (fun c info => c.read info) c := by
  obtain ⟨hread, -, -⟩ := h.read hapi _ hfits nofun hlen
  obtain ⟨-, hadds, hevents, hnodup, hremoves⟩ := hfits
  have hshort : ∀ info ∈ b.parts, info.bytes.length < 2 ^ 32 := fun info hinfo =>
    (b.length_parts info hinfo).trans_lt hlen
  obtain ⟨htidy₁, hreplica₁⟩ := h.foldl_addObject hapi hadds
  have hevents₁ : ∀ v ∈ b.objEvents,
      v.Of ((b.addObjs.map Object.arrival).foldl (fun c o => c.addObject o) c).bus.replica := by
    intro v hv
    rw [hreplica₁]
    exact (hevents v hv).mono (foldl_applyAdd_refs b.addObjs)
  obtain ⟨htidy₂, hreplica₂⟩ := htidy₁.foldl_event hevents₁
  rw [BusEvent.parts, List.foldl_append, List.foldl_append, h.read_adds hapi hadds fun o ho =>
    hshort _ ?_,
    htidy₁.read_events hapi hevents₁ fun v hv => hshort _ ?_,
      htidy₂.read_removes hapi hnodup, hread]
  · rfl
  · intro r hr
    rw [hreplica₂, foldl_applyEvent_refs, hreplica₁]
    exact foldl_applyAdd_refs b.addObjs r (hremoves r hr)
  · exact List.mem_append_right _ (List.mem_append_left _ (List.mem_map_of_mem hv))
  · exact List.mem_append_left _ (List.mem_map_of_mem ho)

end Tidy

/-- A bus event that the server accepts leaves the objects of the server as its parts do one after
the other, if callbacks that are invoked meanwhile do not change them and there are buffers for the
parts; the rest of the server is the same too if no write fails.  A client that has the objects of
the server becomes the same by the packet of the bus event as by the packets of the parts, if the
packet is shorter than `2 ^ 32` bytes. -/
theorem bus_event_refines {api : BusDesc} (hapi : api.Ok) (env env' : Env) (notify notify' : Notify)
    (hquiet : notify.Quiet) (hquiet' : notify'.Quiet)
    (hbuffer : ∀ n type, env'.buffer n type = true)
    (s : Server) (hbus : ServerBus api s.bus) (e : BusEventReq) (hbuilt : e.Built api)
    (haccept : (serverSendBusEvent env notify e s).1 = .ok ()) :
    ∃ t b, runUpdates env' notify' e.updates s = .ok t ∧
      (serverSendBusEvent env notify e s).2.2.bus = t.bus ∧
      ((∀ n p type, env.write n p type = true) → (∀ n p type, env'.write n p type = true) →
        (serverSendBusEvent env notify e s).2.2.rest = t.rest) ∧
      commits (serverSendBusEvent env notify e s).2.2.trace = commits s.trace ++ [.busEvent b] ∧
      commits t.trace = commits s.trace ++ b.parts ∧
      ∀ c : Client, Tidy api c → c.bus.replica = s.bus.replica →
        (PacketInfo.busEvent b).bytes.length < 2 ^ 32 →
        c.read (.busEvent b) = b.parts.foldl (fun c info => c.read info) c := by
  obtain ⟨hacc, hafter, hnews⟩ := sendBusEvent_accepted hquiet haccept
  obtain ⟨t, ht⟩ := leads_updates hquiet' hbuffer hacc
  refine ⟨t, e.sanitize.packet s.bus, ht.run, hafter.trans ht.bus.symm, ?_, hnews, ht.commits, ?_⟩
  · intro hwrite hwrite'
    have hrule : ApiRule env notify fun t => t.rest = s.rest := apiRule_rest hwrite s.rest
    exact (hrule.serverSendBusEvent e rfl).trans (runUpdates_rest hwrite' ht.run).symm
  · intro c htidy hsame hlen
    refine htidy.read_parts hapi ?_ hlen
    rw [hsame]
    exact hbus.busEvent_fits hbuilt.sanitize hacc.sanitize

/-- A callback that calls nothing changes no object. -/
lemma callback_zero_quiet (user : User) (env : Env) : (callback user env 0).Quiet :=
  ⟨fun _ _ _ => rfl, fun event p s => (commits_log s (.notified event p)).trans (List.append_nil _)⟩

/-- A server with a registered object and one that is not. -/
def sampleServer : Server :=
  { bus := ⟨sampleApi,
      [sampleObject, { sampleObject with handle := 8, isRegistered := false }], [7]⟩ }

/-- A bus event that adds an object, changes another one and removes it. -/
def sampleBusEvent : BusEventReq := ⟨⟨1⟩, [8], [7], [⟨sampleEvent, false⟩], by decide⟩

lemma sampleObject_full (h : UInt16) (flag : Bool) (hne : h ≠ 0) :
    ({ sampleObject with handle := h, isRegistered := flag } : Object).Full sampleApi := by
  refine ⟨⟨List.mem_singleton.mpr rfl, hne, rfl, fun s hs _ => ?_⟩, fun s hs => ?_⟩
  · rw [List.mem_singleton.mp hs]
    trivial
  · rw [List.mem_singleton.mp hs]

lemma sampleServer_bus : ServerBus sampleApi sampleServer.bus := by
  have hfound : ∀ h, sampleServer.bus.object? h = if h = 7 then some sampleObject else
      if h = 8 then some { sampleObject with handle := 8, isRegistered := false } else none := by
    intro h
    by_cases h7 : h = 7
    · subst h7
      decide
    · by_cases h8 : h = 8
      · subst h8
        decide
      · simp [Bus.object?, sampleServer, sampleObject, h7, h8, Ne.symm h7, Ne.symm h8]
  refine ⟨⟨by decide, ?_, fun h => ?_, by decide⟩, rfl, fun o ho => ?_⟩
  · intro o ho
    simp only [sampleServer, List.mem_cons, List.not_mem_nil, or_false] at ho
    rcases ho with rfl | rfl <;> decide
  · rw [isRegistered, hfound]
    by_cases h7 : h = 7
    · subst h7
      decide
    · by_cases h8 : h = 8
      · subst h8
        decide
      · simp [sampleServer, h7, h8]
  · simp only [sampleServer, List.mem_cons, List.not_mem_nil, or_false] at ho
    rcases ho with rfl | rfl
    · exact sampleObject_full 7 true (by decide)
    · exact sampleObject_full 8 false (by decide)

/-- The sample bus event and its parts both leave the new object as the only registered one. -/
theorem bus_event_refines_sampleBusEvent :
    ∃ t, runUpdates fairEnv (callback silentUser fairEnv 0) sampleBusEvent.updates
      sampleServer = .ok t ∧
      (serverSendBusEvent fairEnv (callback silentUser fairEnv 0) sampleBusEvent
        sampleServer).2.2.bus = t.bus ∧
      t.bus.objects = [8] := by
  have hbuilt : sampleBusEvent.Built sampleApi := by
    refine ⟨by decide, fun v hv => ?_⟩
    rw [List.mem_singleton.mp hv]
    exact ⟨by decide, sampleEvent_builtOn.info⟩
  have hquiet := callback_zero_quiet silentUser fairEnv
  obtain ⟨t, b, hrun, hbus, -⟩ := bus_event_refines sampleApi_ok fairEnv fairEnv _ _ hquiet hquiet
    (fun _ _ => rfl) sampleServer sampleServer_bus sampleBusEvent hbuilt (by decide)
  refine ⟨t, hrun, hbus, ?_⟩
  rw [← hbus]
  decide

/-- The server has three objects that are not registered, and a connected peer. -/
def gathering : List (ServerOp × Env) :=
  [(.api (.newObject sampleDesc none [7]), fairEnv),
    (.api (.newObject sampleDesc none [8]), fairEnv),
    (.api (.newObject sampleDesc none [9]), fairEnv), (.accept, fairEnv),
      (.packet 0 (.conreq sampleRequest), fairEnv)]

/-- A user who registers an object when a peer is gone. -/
def restlessUser : User :=
  ⟨fun event _ _ => if event = .disconnected then [.registerObject 9] else [], fun _ _ _ => none⟩

/-- Nothing can be written any more. -/
def brokenEnv : Env := ⟨fun _ _ => true, fun _ _ _ => false⟩

/-- An object with a text. -/
def textObject (h : UInt16) (text : CString) : Object :=
  ⟨⟨100, [⟨1, .property, .value .string, none⟩], [], []⟩, h, true,
    [⟨⟨1, .property, .value .string, none⟩, true, some text⟩]⟩

lemma length_add_textObject (h : UInt16) (n : ℕ) :
    (PacketInfo.add (textObject h (nameOf n))).bytes.length = n + 27 := by
  rw [PacketInfo.bytes_length]
  change pktHdrSize + (objectAddBytes _).length = _
  rw [length_objectAddBytes]
  simp [textObject, structBytes, fieldBytes, fieldValBytes, valueBytes, CString.memory,
    nameOf_length, pktHdrSize]
  omega

/-- A bus event that adds two objects with a text of a given length. -/
def textEvent (n : ℕ) : BusEvent :=
  ⟨⟨1⟩, [textObject 7 (nameOf n), textObject 8 (nameOf n)], [], []⟩

lemma length_parts_textEvent (n : ℕ) :
    ∀ info ∈ (textEvent n).parts, info.bytes.length = n + 27 := by
  intro info hinfo
  simp only [textEvent, BusEvent.parts, List.map_cons, List.map_nil, List.append_nil, List.mem_cons,
    List.not_mem_nil, or_false] at hinfo
  rcases hinfo with rfl | rfl
  · exact length_add_textObject 7 n
  · exact length_add_textObject 8 n

lemma length_textEvent (n : ℕ) : 2 * n ≤ (PacketInfo.busEvent (textEvent n)).bytes.length := by
  have h7 := length_add_textObject 7 n
  have h8 := length_add_textObject 8 n
  have hhdr : pktHdrSize = 9 := rfl
  rw [PacketInfo.bytes_length] at h7 h8 ⊢
  simp only [PacketInfo.bodyBytes] at h7 h8 ⊢
  simp only [textEvent, busEventBytes, List.length_append, List.flatMap_cons, List.flatMap_nil,
    List.append_nil]
  omega

/-- A bus event and its parts register the objects in different orders if a callback registers an
object when the write to the only peer fails; and the packet of a bus event may be longer than its
header can say although the packets of its parts are not. -/
theorem bus_event_differs :
    (∃ s t, runs (serverStep restlessUser 1) gathering (serverNew sampleApi) = some s ∧
      (serverSendBusEvent brokenEnv (callback restlessUser brokenEnv 1)
        ⟨⟨1⟩, [7, 8], [], [], by decide⟩ s).1 =
        .ok () ∧
      runUpdates brokenEnv (callback restlessUser brokenEnv 1)
        (BusEventReq.updates ⟨⟨1⟩, [7, 8], [], [], by decide⟩) s = .ok t ∧
      (serverSendBusEvent brokenEnv (callback restlessUser brokenEnv 1)
        ⟨⟨1⟩, [7, 8], [], [], by decide⟩ s).2.2.bus.objects = [7, 8, 9] ∧
      t.bus.objects = [7, 9, 8]) ∧
    ∃ b : BusEvent, (∀ info ∈ b.parts, info.bytes.length < 2 ^ 32) ∧
      ∃ size, headerOf (PacketInfo.busEvent b).bytes = some (size, .busEvent) ∧
        size.toNat < (PacketInfo.busEvent b).bytes.length := by
  constructor
  · obtain ⟨s, hrun⟩ : ∃ s, runs (serverStep restlessUser 1) gathering (serverNew sampleApi) =
      some s := ⟨_, rfl⟩
    obtain ⟨t, ht⟩ : ∃ t, runUpdates brokenEnv (callback restlessUser brokenEnv 1)
        (BusEventReq.updates ⟨⟨1⟩, [7, 8], [], [], by decide⟩) s = .ok t := by
      cases hrun
      exact ⟨_, rfl⟩
    refine ⟨s, t, hrun, ?_, ht, ?_, ?_⟩
    · cases hrun
      decide
    · cases hrun
      decide
    · cases hrun
      cases ht
      decide
  · have hheader := headerOf_bytes (.busEvent (textEvent (2 ^ 31))) []
    rw [List.append_nil] at hheader
    refine ⟨textEvent (2 ^ 31), ?_, _, hheader, ?_⟩
    · intro info hinfo
      rw [length_parts_textEvent _ info hinfo]
      omega
    · refine (UInt32.toNat_lt _).trans_le ?_
      have hlen := length_textEvent (2 ^ 31)
      omega

end Obus
