import Obus.Agreement

/-!
# Events that are sent again

`obus_event_commit` merges an event into its object once: the flag of the event says that it was
done.  Clients merge the event whenever it arrives.  An event that is sent again after its object
has changed is therefore seen by the clients only.

A session (`Session`) is a server, the events of its user, and a client that reads what it is sent.
As long as an event that is sent again brings only what its object has anyway (`Current`), server
and client agree after every sending: `resent_events_agree`.
-/

namespace Obus

/-- The events of a user are sent alone, or together in a bus event. -/
inductive Sending where
  | event (i : ℕ)
  | busEvent (desc : BusEventDesc) (is : List ℕ)

/-- A server, the events of its user, and a client of the server. -/
structure Session where
  server : Server
  events : List OwnEvent
  client : Client

/-- The bus event that is made of events only. -/
def busEventOf (desc : BusEventDesc) (vs : List OwnEvent) : BusEventReq :=
  ⟨desc, [], [], vs, List.nodup_nil⟩

/-- The events with given numbers. -/
def Session.pick (ses : Session) (is : List ℕ) : List OwnEvent :=
  is.filterMap fun i => ses.events[i]?

/-- The session after a sending: the client has read what was sent to its peer. -/
def Session.after (ses : Session) (p : ℕ) (events : List OwnEvent) (s : Server) : Session :=
  ⟨s, events, ((inbox p s.trace).drop (inbox p ses.server.trace).length).foldl
    (fun c info => c.read info) ses.client⟩

/-- A sending, for the client behind a peer.  An event is in a bus event once. -/
def sessionStep (user : User) (depth p : ℕ) (ses : Session) : Sending × Env → Option Session
  | (.event i, env) =>
    ses.events[i]?.map fun v =>
      let r := serverSendEvent env (callback user env depth) v ses.server
      ses.after p (ses.events.set i r.2.1) r.2.2
  | (.busEvent desc is, env) =>
    if is.Nodup ∧ ∀ i ∈ is, i < ses.events.length then
      let r := serverSendBusEvent env (callback user env depth)
        (busEventOf desc (ses.pick is)) ses.server
      some
        (ses.after p ((is.zip r.2.1.objEvents).foldl (fun es x => es.set x.1 x.2) ses.events) r.2.2)
    else none

/-- An object has the values of the fields that a struct brings. -/
def Struct.Has (dst src : Struct) : Prop :=
  ∀ (i : ℕ) (d s : Slot), dst[i]? = some d → src[i]? = some s → s.has = true → d.canon = s.canon

/-- Each event that was committed before brings only what its object has when its turn comes. -/
def Current : List OwnEvent → List Object → Prop
  | [], _ => True
  | v :: vs, l =>
    (v.isCommitted = true → ∀ o ∈ l, o.handle = v.event.obj.handle → o.info.Has v.event.info) ∧
      Current vs (applyEvent v.event l)

/-- A sending that meets the condition: events that were sent before bring nothing new, and the
packet is shorter than its size field can say.  The descriptor of a bus event is one of the bus. -/
def SendingCurrent (api : BusDesc) (ses : Session) : Sending × Env → Prop
  | (.event i, _) => ∀ v, ses.events[i]? = some v →
      Current [v.sanitize] ses.server.bus.replica ∧
      (PacketInfo.event v.sanitize.event).bytes.length < 2 ^ 32
  | (.busEvent desc is, _) => desc ∈ api.events ∧
      Current ((ses.pick is).map OwnEvent.sanitize) ses.server.bus.replica ∧
      (PacketInfo.busEvent ((busEventOf desc (ses.pick is)).sanitize.packet
        ses.server.bus)).bytes.length < 2 ^ 32

/-! ## Merging what is there -/

/-- Merging fields that a struct has anyway does not change it. -/
lemma Struct.update_of_has {dst src : Struct} (hlen : dst.length = src.length)
    (hcanon : ∀ d ∈ dst, d.canon = d) (hhas : dst.Has src) : dst.update src = dst := by
  refine List.ext_getElem (by rw [Struct.update, List.length_zipWith]; omega) fun i hi hi' => ?_
  have hsrc : i < src.length := hlen ▸ hi'
  simp only [Struct.update, List.getElem_zipWith]
  split
  · next hs =>
    have hsame := hhas i dst[i] src[i] (List.getElem?_eq_getElem hi')
      (List.getElem?_eq_getElem hsrc) hs
    rw [← hsame]
    exact hcanon _ (List.getElem_mem _)
  · rfl

/-- An event that brings what its object has anyway does not change the list. -/
lemma ServerBus.applyEvent_of_has {api : BusDesc} {bus : Bus} (h : ServerBus api bus) {e : Event}
    {o : Object} (hfound : e.obj.object? bus = some o) (hinfo : e.info.On e.obj.desc.infoDesc)
    (hhas : ∀ a ∈ bus.replica, a.handle = e.obj.handle → a.info.Has e.info) :
    applyEvent e bus.replica = bus.replica := by
  obtain ⟨hobj, href⟩ := ObjectRef.object?_eq_some.mp hfound
  refine (List.map_congr_left fun a ha => ?_).trans (List.map_id _)
  split
  · next hhandle =>
    obtain ⟨b, hb, rfl⟩ := List.mem_map.mp ha
    have hb' : b = o := by
      have hself := (Bus.mem_registered.mp hb).2
      rw [show b.handle = e.obj.handle from hhandle, hobj] at hself
      exact (Option.some.inj hself).symm
    have hlen : b.canon.info.length = e.info.length := by
      refine (List.length_map _).trans (length_eq_of_desc ?_)
      rw [(h.full b (Bus.object?_mem (Bus.mem_registered.mp hb).2)).info.desc, hinfo.desc, hb',
        show o.desc = e.obj.desc from congrArg ObjectRef.desc href]
    have hcanon : ∀ d ∈ b.canon.info, d.canon = d := by
      intro d hd
      obtain ⟨x, -, rfl⟩ := List.mem_map.mp hd
      exact x.canon_canon
    have hsame := Struct.update_of_has hlen hcanon (hhas _ ha hhandle)
    exact congrArg (fun info => { b.canon with info := info }) hsame
  · rfl

/-- Where committed events bring nothing new, the server ends like one that merges all events. -/
lemma ServerBus.foldl_commit_current {api : BusDesc} {bus : Bus} (h : ServerBus api bus)
    {events : List OwnEvent} (hfound : ∀ v ∈ events, ∃ o, v.event.obj.object? bus = some o)
    (hinfo : ∀ v ∈ events, v.event.info.On v.event.obj.desc.infoDesc)
    (hcurrent : Current events bus.replica) :
    (events.foldl (fun bus v => v.commit bus) bus).replica =
      (events.map OwnEvent.event).foldl (fun l v => applyEvent v l) bus.replica := by
  induction events generalizing bus with
  | nil => rfl
  | cons v events ih =>
    obtain ⟨o, ho⟩ := hfound v List.mem_cons_self
    have hv := hinfo v List.mem_cons_self
    obtain ⟨hbus, hreplica⟩ := h.commit ho hv
    have hsame : v.applyCommit bus.replica = applyEvent v.event bus.replica := by
      unfold OwnEvent.applyCommit
      split
      · next hcommitted => exact (h.applyEvent_of_has ho hv (hcurrent.1 hcommitted)).symm
      · rfl
    rw [hsame] at hreplica
    have hnext := ih hbus
      (fun w hw => ObjectRef.object?_of_ref (ref_of_flagged ref_commit)
        (hfound w (List.mem_cons_of_mem v hw)))
      (fun w hw => hinfo w (List.mem_cons_of_mem v hw)) (by rw [hreplica]; exact hcurrent.2)
    rw [hreplica] at hnext
    exact hnext

/-! ## Sessions -/

/-- Server and client agree as long as the peer of the client is connected. -/
structure InStep (api : BusDesc) (p : ℕ) (ses : Session) : Prop where
  bus : ServerBus api ses.server.bus
  counted : ses.server.Counted
  events : ∀ v ∈ ses.events, v.Built
  tidy : ses.server.peerState p = .connected → Tidy api ses.client
  agree : ses.server.peerState p = .connected → ses.client.bus.replica = ses.server.bus.replica

namespace InStep

variable {api : BusDesc} {p : ℕ} {ses : Session} {s : Server} {events : List OwnEvent}

/-- A client that has read everything that the server has sent to it is in step. -/
lemma of_aligned (hapi : api.Ok) (h : Aligned api s) (hevents : ∀ v ∈ events, v.Built)
    (hlen : ∀ info ∈ inbox p s.trace, info.bytes.length < 2 ^ 32) :
    InStep api p ⟨s, events, (inbox p s.trace).foldl (fun c info => c.read info)
      (clientNew api).start⟩ := by
  obtain ⟨htidy, hstate, hempty⟩ := Tidy.new api
  exact ⟨h.bus, h.counted, hevents,
    fun hp => ((h.follows p hp).read hapi htidy hstate hempty hlen).1,
    fun hp => ((h.follows p hp).read hapi htidy hstate hempty hlen).2.1⟩

/-- Nothing was sent. -/
lemma idle (h : InStep api p ses) (hbus : s.bus = ses.server.bus)
    (hpeers : s.peers = ses.server.peers)
    (hcount : s.nPeersConnected = ses.server.nPeersConnected) (htrace : s.trace = ses.server.trace)
    (hevents : ∀ v ∈ events, v.Built) : InStep api p (ses.after p events s) := by
  have hstate : s.peerState p = ses.server.peerState p := by
    rw [Server.peerState, Server.peer?, hpeers]
    rfl
  have hclient : (ses.after p events s).client = ses.client := by
    rw [Session.after, htrace, List.drop_length]
    rfl
  refine ⟨hbus ▸ h.bus, ⟨?_, ?_⟩, hevents, fun hp => ?_, fun hp => ?_⟩
  · change s.nPeersConnected = _
    rw [hcount, h.counted.count]
    change _ = s.peers.countP _
    rw [hpeers]
  · change (s.peers.map Peer.id).Nodup
    rw [hpeers]
    exact h.counted.ids
  · rw [hclient]
    exact h.tidy (hstate ▸ hp)
  · rw [hclient]
    change _ = s.bus.replica
    rw [hbus]
    exact h.agree (hstate ▸ hp)

/-- A packet was sent, and the server has made the change that it stands for. -/
lemma told (hapi : api.Ok) (h : InStep api p ses) {info : PacketInfo} {t : Server}
    {before after : Bus}
    (post : List Action) (hfits : info.Fits api ses.server.bus.replica) (hnews : info.type.IsNews)
    (hwalk : Walked info (ses.server.peers.map Peer.id) { ses.server with bus := before } t)
    (hpost : inbox p post = []) (hlen : info.bytes.length < 2 ^ 32) (hbus : ServerBus api after)
    (hreplica : after.replica = info.apply ses.server.bus.replica)
    (hevents : ∀ v ∈ events, v.Built) :
    InStep api p (ses.after p events { t with bus := after, trace := t.trace ++ post }) := by
  have hcounted := hwalk.counted ⟨h.counted.count, h.counted.ids⟩
  obtain ⟨as, htrace, -, hinbox⟩ := hwalk.trace
  have hclient : t.peerState p = .connected →
      (ses.after p events { t with bus := after, trace := t.trace ++ post }).client =
        ses.client.read info := by
    intro hp
    have hold : ses.server.peerState p = .connected := hwalk.connected hp
    have hmem : p ∈ ses.server.peers.map Peer.id := by
      by_contra habsent
      rw [Server.peerState, Server.peer?_eq_none_iff.mpr habsent] at hold
      cases hold
    have hnew : (inbox p (t.trace ++ post)).drop (inbox p ses.server.trace).length = [info] := by
      rw [htrace, inbox_append, inbox_append, hpost, List.append_nil, List.drop_left, hinbox,
        if_pos ⟨hmem, hp⟩]
    rw [Session.after]
    change List.foldl _ _ ((inbox p (t.trace ++ post)).drop _) = _
    rw [hnew]
    rfl
  have hread : t.peerState p = .connected → Tidy api (ses.client.read info) ∧
      (ses.client.read info).bus.replica = info.apply ses.server.bus.replica := by
    intro hp
    have hold : ses.server.peerState p = .connected := hwalk.connected hp
    have hagree := h.agree hold
    obtain ⟨-, htidy, hafter⟩ := (h.tidy hold).read hapi info (by rw [hagree]; exact hfits)
      (fun heq => absurd heq hnews.1) hlen
    exact ⟨htidy, by rw [hafter, hagree]⟩
  refine ⟨hbus, ⟨hcounted.count, hcounted.ids⟩, hevents, fun hp => ?_, fun hp => ?_⟩
  · rw [hclient hp]
    exact (hread hp).1
  · rw [hclient hp]
    exact (hread hp).2.trans hreplica.symm

variable {user : User} {env : Env} {depth : ℕ}

lemma sendEvent (hapi : api.Ok) (hquiet : QuietInWalks user) (h : InStep api p ses) {i : ℕ}
    {v : OwnEvent}
    (hv : ses.events[i]? = some v) (hcurrent : Current [v.sanitize] ses.server.bus.replica)
    (hlen : (PacketInfo.event v.sanitize.event).bytes.length < 2 ^ 32) :
    let r := serverSendEvent env (callback user env depth) v ses.server
    InStep api p (ses.after p (ses.events.set i r.2.1) r.2.2) := by
  intro r
  have hbuilt : v.Built := h.events v (List.mem_of_getElem? hv)
  have hset : ∀ w : OwnEvent, w.Built → ∀ x ∈ ses.events.set i w, x.Built := by
    intro w hw x hx
    rcases List.mem_or_eq_of_mem_set hx with hold | rfl
    · exact h.events x hold
    · exact hw
  unfold r serverSendEvent
  split
  · exact h.idle rfl rfl rfl rfl (hset v hbuilt)
  · next o ho =>
    split
    · exact h.idle rfl rfl rfl rfl (hset v hbuilt)
    · next hflag =>
      have hclean := hbuilt.sanitize
      obtain ⟨hobj, href⟩ := ObjectRef.object?_eq_some.mp ho
      rcases @broadcast_outcome env _ ses.server (hquiet.callback env depth) h.counted
        (.event v.sanitize.event) with
        ⟨-, heq⟩ | ⟨t, heq, hwalk⟩
      · rw [heq]
        exact h.idle rfl rfl rfl rfl (hset _ hclean)
      · have hfits : PacketInfo.Fits api ses.server.bus.replica (.event v.sanitize.event) :=
          ⟨href ▸ h.bus.mem_refs hobj (by simpa using hflag), hclean.desc, hclean.info⟩
        have hfound : ∀ w ∈ [v.sanitize], ∃ o, w.event.obj.object? ses.server.bus = some o := by
          intro w hw
          rw [List.mem_singleton.mp hw]
          exact ⟨o, ho⟩
        have hreplica := h.bus.foldl_commit_current hfound
          (fun w hw => by rw [List.mem_singleton.mp hw]; exact hclean.info) hcurrent
        have hbus := (h.bus.commit (v := v.sanitize) ho hclean.info).1
        have hdone := h.told hapi [.committed (.event v.sanitize.event)] hfits
          ⟨nofun, nofun⟩ hwalk rfl hlen
          hbus hreplica (hset { v.sanitize with isCommitted := true } ⟨hclean.desc, hclean.info⟩)
        rw [heq]
        simp only [show t.bus = ses.server.bus from hwalk.bus]
        exact hdone

lemma mem_foldl_set {xs : List (ℕ × OwnEvent)} {es : List OwnEvent} {w : OwnEvent}
    (hw : w ∈ xs.foldl (fun es x => es.set x.1 x.2) es) : w ∈ es ∨ ∃ x ∈ xs, x.2 = w := by
  induction xs generalizing es with
  | nil => exact .inl hw
  | cons x xs ih =>
    rcases ih hw with hset | ⟨y, hy, hyw⟩
    · rcases List.mem_or_eq_of_mem_set hset with hold | rfl
      · exact .inl hold
      · exact .inr ⟨x, List.mem_cons_self, rfl⟩
    · exact .inr ⟨y, List.mem_cons_of_mem x hy, hyw⟩

/-- The check of a bus event leaves each event as it was or sanitised. -/
lemma serverCheckEvents_built (bus : Bus) {vs : List OwnEvent} (hvs : ∀ v ∈ vs, v.Built) :
    ∀ w ∈ (serverCheckEvents bus vs).2, w.Built := by
  induction vs with
  | nil => exact nofun
  | cons v vs ih =>
    unfold serverCheckEvents
    split
    · exact hvs
    · split
      · exact hvs
      · intro w hw
        rcases List.mem_cons.mp hw with rfl | hw
        · exact (hvs v List.mem_cons_self).sanitize
        · exact ih (fun x hx => hvs x (List.mem_cons_of_mem v hx)) w hw

lemma sendBusEvent (hapi : api.Ok) (hquiet : QuietInWalks user) (h : InStep api p ses) {is : List ℕ}
    {desc : BusEventDesc} (hdesc : desc ∈ api.events)
    (hcurrent : Current ((ses.pick is).map OwnEvent.sanitize) ses.server.bus.replica)
    (hlen : (PacketInfo.busEvent
      ((busEventOf desc (ses.pick is)).sanitize.packet ses.server.bus)).bytes.length < 2 ^ 32) :
    let r := serverSendBusEvent env (callback user env depth)
      (busEventOf desc (ses.pick is)) ses.server
    InStep api p (ses.after p
      ((is.zip r.2.1.objEvents).foldl (fun es x => es.set x.1 x.2) ses.events) r.2.2) := by
  obtain ⟨e, he⟩ : ∃ e, e = busEventOf desc (ses.pick is) := ⟨_, rfl⟩
  rw [← he] at hlen ⊢
  intro r
  have hmem : ∀ v ∈ ses.pick is, v.Built := by
    intro v hv
    obtain ⟨i, -, hi⟩ := List.mem_filterMap.mp hv
    exact h.events v (List.mem_of_getElem? hi)
  have hset : ∀ vs : List OwnEvent, (∀ v ∈ vs, v.Built) →
      ∀ w ∈ (is.zip vs).foldl (fun es x => es.set x.1 x.2) ses.events, w.Built := by
    intro vs hvs w hw
    rcases mem_foldl_set hw with hold | ⟨x, hx, rfl⟩
    · exact h.events w hold
    · exact hvs x.2 (List.of_mem_zip hx).2
  -- without objects to add or remove, the check is the one of the events
  have hcheck : serverCheckBusEvent e ses.server.bus =
      ((serverCheckEvents ses.server.bus (ses.pick is)).1,
        { e with objEvents := (serverCheckEvents ses.server.bus (ses.pick is)).2 }) := by
    rw [he]
    rfl
  have hchecked := hset _ (serverCheckEvents_built ses.server.bus hmem)
  unfold r serverSendBusEvent
  split
  · next e' heq =>
    obtain ⟨-, rfl⟩ := Prod.mk.inj (hcheck.symm.trans heq)
    exact h.idle rfl rfl rfl rfl hchecked
  · next f e' heq =>
    obtain ⟨-, rfl⟩ := Prod.mk.inj (hcheck.symm.trans heq)
    exact h.idle rfl rfl rfl rfl hchecked
  · next e' heq =>
    obtain ⟨rfl, hacc⟩ := serverCheckBusEvent_ok heq
    have hbuilt : e.Built api := by
      rw [he]
      exact ⟨hdesc, hmem⟩
    have hclean := hbuilt.sanitize
    have hsanitized := hset _ hclean.objEvents
    have hcommitted :
        ∀ w ∈ (is.zip e.sanitize.committed.objEvents).foldl (fun es x => es.set x.1 x.2) ses.events,
        w.Built := by
      refine hset _ fun w hw => ?_
      obtain ⟨v, hv, rfl⟩ := List.mem_map.mp hw
      exact ⟨(hclean.objEvents v hv).desc, (hclean.objEvents v hv).info⟩
    -- no object is registered ahead, and none is unregistered
    have hadd : e.sanitize.addObjs = [] := congrArg (fun e => e.sanitize.addObjs) he
    have hremove : e.sanitize.removeObjs = [] := congrArg (fun e => e.sanitize.removeObjs) he
    have hevents : e.sanitize.objEvents = (ses.pick is).map OwnEvent.sanitize :=
      congrArg (fun e => e.sanitize.objEvents) he
    simp only [hadd, List.foldl_nil]
    rcases @broadcast_outcome env _ ses.server (hquiet.callback env depth) h.counted
        (.busEvent (e.sanitize.packet ses.server.bus)) with ⟨-, hsend⟩ | ⟨t, hsend, hwalk⟩
    · rw [hsend]
      exact h.idle rfl rfl rfl rfl hsanitized
    · have hfound : ∀ v ∈ e.sanitize.objEvents, ∃ o, v.event.obj.object? ses.server.bus =
          some o := by
        intro v hv
        obtain ⟨o, ho, -⟩ := hacc.sanitize.objEvents v hv
        exact ⟨o, ho⟩
      have hmerged := h.bus.foldl_commit_current hfound (fun v hv => (hclean.objEvents v hv).info)
        (hevents ▸ hcurrent)
      have hbus := (h.bus.busEvent hclean hacc.sanitize).1
      rw [hadd, List.foldl_nil] at hbus
      have hreplica : (serverCommitBusEvent e.sanitize ses.server.bus).replica =
          (PacketInfo.busEvent (e.sanitize.packet ses.server.bus)).apply
            ses.server.bus.replica := by
        simpa [serverCommitBusEvent, PacketInfo.apply, BusEventReq.packet, hadd, hremove]
          using hmerged
      have hfits := h.bus.busEvent_fits hclean hacc.sanitize
      have hdone := h.told hapi [.committed (.busEvent (e.sanitize.packet ses.server.bus))] hfits
        ⟨(by rintro ⟨⟩), (by rintro ⟨⟩)⟩ hwalk rfl hlen hbus hreplica hcommitted
      rw [hsend]
      simp only [show t.bus = ses.server.bus from hwalk.bus]
      exact hdone

/-- A sending that meets the condition keeps server and client in step. -/
lemma step (hapi : api.Ok) (hquiet : QuietInWalks user) (h : InStep api p ses) {a : Sending × Env}
    {ses' : Session}
    (hcurrent : SendingCurrent api ses a) (hstep : sessionStep user depth p ses a = some ses') :
    InStep api p ses' := by
  obtain ⟨sending, env⟩ := a
  cases sending with
  | event i =>
    obtain ⟨v, hv, rfl⟩ := Option.map_eq_some_iff.mp hstep
    obtain ⟨hcur, hlen⟩ := hcurrent v hv
    exact h.sendEvent hapi hquiet hv hcur hlen
  | busEvent desc is =>
    obtain ⟨hdesc, hcur, hlen⟩ := hcurrent
    rw [sessionStep] at hstep
    split at hstep
    · cases hstep
      exact h.sendBusEvent hapi hquiet hdesc hcur hlen
    · cases hstep

end InStep

/-- Where server and client agree, they do after every sequence of sendings in which events that are
sent again bring only what their objects have anyway. -/
theorem resent_events_agree {api : BusDesc} (hapi : api.Ok) (user : User)
    (hquiet : QuietInWalks user)
    (depth p : ℕ) (ses : Session) (hstart : InStep api p ses) (sendings : List (Sending × Env))
    (hcurrent : MeetsAll (sessionStep user depth p) (SendingCurrent api) sendings ses)
    (ses' : Session)
    (hrun : runs (sessionStep user depth p) sendings ses = some ses')
    (hp : ses'.server.peerState p = .connected) :
    ses'.client.bus.replica = ses'.server.bus.replica := by
  have hend : InStep api p ses' :=
    runs_invariant (fun _ _ _ h hc hs => h.step hapi hquiet hc hs) hstart hcurrent hrun
  exact hend.agree hp

/-- A server with a registered object and a connected peer. -/
def watched : List (ServerOp × Env) :=
  [(.api (.newObject sampleDesc none [7]), fairEnv), (.api (.registerObject 7), fairEnv),
    (.accept, fairEnv),
    (.packet 0 (.conreq sampleRequest), fairEnv)]

/-- Two events on the boolean: the first one sets it, the second one clears it. -/
def setAndClear : List OwnEvent :=
  [⟨sampleEvent, false⟩,
    ⟨⟨⟨sampleDesc, 7⟩, ⟨1, [1]⟩, [⟨⟨1, .property, .value .bool, none⟩, true, (0 : UInt8)⟩]⟩, false⟩]

/-- The session of the client that has read everything that was sent to a peer. -/
def sessionOf (api : BusDesc) (p : ℕ) (events : List OwnEvent) (s : Server) : Session :=
  ⟨s, events, (inbox p s.trace).foldl (fun c info => c.read info) (clientNew api).start⟩

lemma watched_aligned {s : Server}
    (hrun : runs (serverStep silentUser 0) watched (serverNew sampleApi) = some s) :
    Aligned sampleApi s := by
  have hvalid : ∀ a ∈ watched, ∀ s, StepValid sampleApi s a := by
    intro a ha s
    simp only [watched, List.mem_cons, List.not_mem_nil, or_false] at ha
    rcases ha with rfl | rfl | rfl | rfl
    · refine ⟨fun _ _ => rfl, ?_⟩
      rintro _ ⟨⟩
      exact ⟨List.mem_singleton.mpr rfl, nofun⟩
    · refine ⟨fun _ _ => rfl, ?_⟩
      rintro _ ⟨⟩
      trivial
    · exact ⟨fun _ _ => rfl, nofun⟩
    · exact ⟨fun _ _ => rfl, nofun⟩
  exact runs_invariant (fun _ _ _ h hv hs => h.step (silentUser_valid _) silentUser_quiet hv hs)
    (Aligned.new sampleApi) (meetsAll_of_forall hvalid _) hrun

lemma setAndClear_built : ∀ v ∈ setAndClear, v.Built := by
  intro v hv
  simp only [setAndClear, List.mem_cons, List.not_mem_nil, or_false] at hv
  rcases hv with rfl | rfl
  · exact ⟨List.mem_singleton.mpr rfl, rfl, fun s hs _ => by rw [List.mem_singleton.mp hs]; trivial⟩
  · exact ⟨List.mem_singleton.mpr rfl, rfl, fun s hs _ => by rw [List.mem_singleton.mp hs]; trivial⟩

lemma Struct.has_of_canon {dst src : Struct} (h : dst.map Slot.canon = src.map Slot.canon) :
    dst.Has src := by
  intro i d s hd hs _
  have hi := congrArg (fun l => l[i]?) h
  simpa [hd, hs] using hi

theorem resent_events_agree_watched :
    ∃ s, runs (serverStep silentUser 0) watched (serverNew sampleApi) = some s ∧
      ∃ ses, runs (sessionStep silentUser 0 0)
        [(.event 0, fairEnv), (.busEvent ⟨1⟩ [0, 1], fairEnv)]
          (sessionOf sampleApi 0 setAndClear s) = some ses ∧
        ses.client.bus.replica = ses.server.bus.replica := by
  obtain ⟨s, hs⟩ : ∃ s, runs (serverStep silentUser 0) watched (serverNew sampleApi) =
    some s := ⟨_, rfl⟩
  have hshort : ∀ info ∈ inbox 0 s.trace, info.bytes.length < 2 ^ 32 := by
    cases hs
    decide +kernel
  have hstart : InStep sampleApi 0 (sessionOf sampleApi 0 setAndClear s) :=
    InStep.of_aligned sampleApi_ok (watched_aligned hs) setAndClear_built hshort
  obtain ⟨mid, hmid⟩ : ∃ mid, sessionStep silentUser 0 0 (sessionOf sampleApi 0 setAndClear s)
      (.event 0, fairEnv) = some mid := by
    cases hs
    exact ⟨_, rfl⟩
  obtain ⟨ses, hses⟩ : ∃ ses, sessionStep silentUser 0 0 mid (.busEvent ⟨1⟩ [0, 1], fairEnv) =
    some ses := by
    cases hs
    cases hmid
    exact ⟨_, rfl⟩
  have hrun : runs (sessionStep silentUser 0 0)
      [(.event 0, fairEnv), (.busEvent ⟨1⟩ [0, 1], fairEnv)]
      (sessionOf sampleApi 0 setAndClear s) = some ses :=
    runs_cons.mpr ⟨mid, hmid, runs_cons.mpr ⟨ses, hses, rfl⟩⟩
  have hfirst : SendingCurrent sampleApi (sessionOf sampleApi 0 setAndClear s)
      (.event 0, fairEnv) := by
    rintro v ⟨⟩
    exact ⟨⟨nofun, trivial⟩, by decide +kernel⟩
  have hsecond : SendingCurrent sampleApi mid (.busEvent ⟨1⟩ [0, 1], fairEnv) := by
    have hreplica : mid.server.bus.replica =
        [{ sampleObject with
          info := [⟨⟨1, .property, .value .bool, none⟩, true, (1 : UInt8)⟩] }] := by
      cases hs
      cases hmid
      decide +kernel
    have hpick : mid.pick [0, 1] = ⟨sampleEvent, true⟩ :: setAndClear.tail := by
      cases hs
      cases hmid
      decide +kernel
    refine ⟨by decide, ?_, ?_⟩
    · rw [hreplica, hpick]
      -- the first event was sent before, and its object still has the value
      refine ⟨fun _ o ho _ => ?_, nofun, trivial⟩
      rw [List.mem_singleton.mp ho]
      exact Struct.has_of_canon (by decide)
    · cases hs
      cases hmid
      decide +kernel
  have hmeets : MeetsAll (sessionStep silentUser 0 0) (SendingCurrent sampleApi)
      [(.event 0, fairEnv), (.busEvent ⟨1⟩ [0, 1], fairEnv)]
        (sessionOf sampleApi 0 setAndClear s) := by
    refine ⟨hfirst, fun t ht => ?_⟩
    rw [← Option.some.inj (hmid.symm.trans ht)]
    exact ⟨hsecond, fun _ _ => trivial⟩
  have hconnected : ses.server.peerState 0 = .connected := by
    cases hs
    cases hmid
    cases hses
    decide +kernel
  exact ⟨s, hs, ses, hrun, resent_events_agree sampleApi_ok silentUser silentUser_quiet 0 0 _ hstart
    _ hmeets ses hrun
    hconnected⟩

/-- The boolean is set, cleared, and set again with the first event: the client sees it set, on the
server it stays cleared. -/
theorem resent_event_seen_by_clients_only :
    ∃ s, runs (serverStep silentUser 0) watched (serverNew sampleApi) = some s ∧
      ∃ ses, runs (sessionStep silentUser 0 0) [(.event 0, fairEnv), (.event 1, fairEnv),
        (.event 0, fairEnv)]
          (sessionOf sampleApi 0 setAndClear s) = some ses ∧
        ses.server.peerState 0 = .connected ∧
        ses.server.bus.replica.map Object.info =
          [[⟨⟨1, .property, .value .bool, none⟩, true, (0 : UInt8)⟩]] ∧
        ses.client.bus.replica.map Object.info =
          [[⟨⟨1, .property, .value .bool, none⟩, true, (1 : UInt8)⟩]] := by
  refine ⟨_, rfl, _, rfl, ?_, ?_, ?_⟩
  · decide +kernel
  · decide +kernel
  · decide +kernel

end Obus
