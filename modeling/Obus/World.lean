import Obus.Agreement

/-!
# A server and its clients

Any number of clients and their server (`World`).  What the server has sent to a client is in its
record, in order; a client reads it packet by packet, through the encoder and the decoder, and may
be behind by any number of packets.  A client that has read everything has the registered objects of
the server.
-/

namespace Obus

/-! ## Packets on the wire -/

/-- The bytes of a packet as the encoder leaves them in a new buffer. -/
def PacketInfo.wire (info : PacketInfo) : List UInt8 :=
  (info.encode.on zeroMem ⟨[], 0, 0⟩).2.content

/-- A client reads a packet as it was encoded.  A packet that cannot be decoded is dropped. -/
def Client.receive (info : PacketInfo) (c : Client) : Client :=
  match (Frame.mk info.type info.wire).decode c.bus with
  | .ok info' => c.packet info'
  | .error _ => c

lemma zeroMem_ne_none (n : ℕ) : zeroMem n ≠ none := nofun

/-- The wire carries the bytes of a packet that can be carried. -/
lemma PacketInfo.Ok.wire {info : PacketInfo} (h : info.Ok) : info.wire = info.bytes := by
  rcases info.encode_cases zeroMem h ⟨[], 0, 0⟩ with ⟨b, hrun, -, hcontent⟩ | ⟨e, b, -, n, hnone⟩
  · rw [PacketInfo.wire, hrun, hcontent]
  · exact absurd hnone (zeroMem_ne_none n)

/-- A client reads what the wire carries, whatever packet it was. -/
lemma Client.receive_eq {info info' : PacketInfo} (htype : info.type = info'.type)
    (hwire : info.wire = info'.bytes) (c : Client) : c.receive info = c.read info' := by
  have hframe : Frame.mk info.type info.wire = Frame.ofPacket info' := by
    simp only [Frame.ofPacket, htype, hwire]
  cases hdecode : (Frame.ofPacket info').decode c.bus with
  | error e => simp only [Client.receive, Client.read, hframe, hdecode]
  | ok info => simp only [Client.receive, Client.read, hframe, hdecode]

lemma PacketInfo.Ok.receive {info : PacketInfo} (h : info.Ok) (c : Client) :
    c.receive info = c.read info :=
  Client.receive_eq rfl h.wire c

lemma foldl_receive {infos : List PacketInfo} (h : ∀ info ∈ infos, info.Ok) (c : Client) :
    infos.foldl (fun c info => c.receive info) c = infos.foldl (fun c info => c.read info) c := by
  induction infos generalizing c with
  | nil => rfl
  | cons info infos ih =>
    rw [List.foldl_cons, List.foldl_cons, (h info List.mem_cons_self).receive]
    exact ih (fun i hi => h i (List.mem_cons_of_mem info hi)) _

/-! ## The world -/

/-- A client, and how many of the packets that were sent to it it has read. -/
structure Member where
  client : Client
  nRead : ℕ

/-- A server and the clients that have connected their sockets: the peers of the server, by their
numbers. -/
structure World where
  server : Server
  members : List Member := []

/-- What happens in a world. -/
inductive WorldOp where
  /-- The user of the server calls the interface. -/
  | api (a : Api)
  /-- A new client connects its socket. -/
  | join
  /-- The request of a client is handled. -/
  | request (p : ℕ) (name : CString)
  /-- A client reads the next packet. -/
  | deliver (p : ℕ)

/-- The request of a client for a bus. -/
def conreqOf (api : BusDesc) (name : CString) : Conreq :=
  ⟨protocolVersion, some api.name, api.crc, some name⟩

/-- The server does something, its user stays silent, and no buffer or write fails. -/
def World.serve (w : World) (op : ServerOp) : Option World :=
  (serverStep silentUser 0 w.server (op, fairEnv)).map fun s => { w with server := s }

/-- A step of a world. -/
def worldStep (w : World) : WorldOp → Option World
  | .api a => w.serve (.api a)
  | .join =>
    (w.serve .accept).map fun w' =>
      { w' with members := w.members ++ [⟨(clientNew w.server.bus.api).start, 0⟩] }
  | .request p name => w.serve (.packet p (.conreq (conreqOf w.server.bus.api name)))
  | .deliver p =>
    match w.members[p]? with
    | none => none
    | some m =>
      ((inbox p w.server.trace)[m.nRead]?).map fun info =>
        { w with members := w.members.set p ⟨m.client.receive info, m.nRead + 1⟩ }

/-- A new server without clients. -/
def worldNew (api : BusDesc) : World := { server := serverNew api }

/-- The calls of the user are made for the bus, and no event was sent before. -/
def WorldOp.Valid (api : BusDesc) : WorldOp → Prop
  | .api a => a.Valid api
  | _ => True

/-! ## What was read -/

/-- The record of a server only grows, and peers come by `obus_server_accept` only. -/
lemma serverStep_grows {user : User} {depth : ℕ} {s s' : Server} {a : ServerOp × Env}
    (h : serverStep user depth s a = some s') :
    s.trace <+: s'.trace ∧ (a.1 ≠ .accept → s'.nextPeer = s.nextPeer) := by
  obtain ⟨op, env⟩ := a
  by_cases haccept : op = .accept
  · subst haccept
    rw [serverStep_accept h]
    exact ⟨List.prefix_rfl, fun hne => absurd rfl hne⟩
  · by_cases hreq : ∀ p, op.isRequest p = false
    · have hcalm := serverStep_calm h haccept hreq
      exact ⟨hcalm.trace, fun _ => hcalm.nextPeer⟩
    · cases op with
      | packet p info =>
        cases info with
        | conreq req =>
          by_cases hidle : s.peerState p = .idle
          · by_cases hnames : req.NamesPresent
            · obtain ⟨u, hu, hcalm, -⟩ := serverStep_conreq h hidle hnames
              have hasked : Calm (some p) s (answering (callback user env depth) p req s) :=
                answering_calm
              rcases hu with ⟨-, rfl⟩ | rfl
              · exact ⟨hasked.trace.trans hcalm.trace,
                  fun _ => hcalm.nextPeer.trans hasked.nextPeer⟩
              · refine ⟨?_, fun _ => hcalm.nextPeer.trans hasked.nextPeer⟩
                exact (hasked.trace.trans (List.prefix_append _ _)).trans hcalm.trace
            · obtain ⟨-, -, rfl⟩ := serverStep_packet h
              obtain ⟨f, -, -, heq⟩ := peerConnectionRequest_absent env
                (callback user env depth) hidle hnames
              simp only [peerPacket, heq]
              split <;> exact ⟨List.prefix_rfl, fun _ => rfl⟩
          · rw [serverStep_conreq_ignored h hidle]
            exact ⟨List.prefix_rfl, fun _ => rfl⟩
        | _ => exact absurd (fun _ => rfl) hreq
      | _ => exact absurd (fun _ => rfl) hreq

/-- Every client has read the first packets that were sent to it, and all connected peers follow the
server. -/
structure World.Settled (api : BusDesc) (w : World) : Prop where
  aligned : Aligned api w.server
  members : w.members.length = w.server.nextPeer
  read : ∀ p m, w.members[p]? = some m → m.nRead ≤ (inbox p w.server.trace).length ∧
    m.client = ((inbox p w.server.trace).take m.nRead).foldl (fun c info => c.receive info)
      (clientNew api).start

namespace World.Settled

variable {api : BusDesc} {w w' : World}

/-- The server does something that is valid: what the clients have read stays what was sent first.
-/
lemma serve (h : w.Settled api) (op : ServerOp) (hvalid : ∀ a, op = .api a → a.Valid api)
    (hop : w.serve op = some w') :
    Aligned api w'.server ∧ w'.members = w.members ∧
      (op ≠ .accept → w'.server.nextPeer = w.server.nextPeer) ∧
      ∀ p m, w.members[p]? = some m → m.nRead ≤ (inbox p w'.server.trace).length ∧
        m.client =
          ((inbox p w'.server.trace).take m.nRead).foldl (fun c info => c.receive info)
            (clientNew api).start := by
  obtain ⟨s, hs, rfl⟩ := Option.map_eq_some_iff.mp hop
  have haligned := h.aligned.step (silentUser_valid api) silentUser_quiet
    ⟨fun _ _ => rfl, hvalid⟩ hs
  obtain ⟨⟨new, htrace⟩, hnext⟩ := serverStep_grows hs
  refine ⟨haligned, rfl, hnext, fun p m hm => ?_⟩
  obtain ⟨hle, hclient⟩ := h.read p m hm
  have hinbox : inbox p s.trace = inbox p w.server.trace ++ inbox p new := by
    rw [← htrace, inbox_append]
  simp only [hinbox, List.length_append, List.take_append_of_le_length hle]
  exact ⟨by omega, hclient⟩

lemma step (h : w.Settled api) {op : WorldOp} (hvalid : op.Valid api)
    (hstep : worldStep w op = some w') : w'.Settled api := by
  have hserve : ∀ sop : ServerOp, (∀ a, sop = .api a → a.Valid api) → sop ≠ .accept →
      w.serve sop = some w' →
      w'.Settled api := by
    intro sop hsop hne hop
    obtain ⟨haligned, hmembers, hnext, hread⟩ := h.serve sop hsop hop
    exact ⟨haligned, by rw [hmembers, hnext hne, h.members], fun p m hm => hread p m
      (hmembers ▸ hm)⟩
  cases op with
  | api a =>
    refine hserve (.api a) (fun b hb => ?_) nofun hstep
    cases hb
    exact hvalid
  | request p name =>
    exact hserve (.packet p (.conreq (conreqOf w.server.bus.api name))) nofun nofun hstep
  | join =>
    obtain ⟨w₁, hop, rfl⟩ := Option.map_eq_some_iff.mp hstep
    obtain ⟨haligned, hmembers, -, hread⟩ := h.serve .accept nofun hop
    obtain ⟨s, hs, rfl⟩ := Option.map_eq_some_iff.mp hop
    have hs' := serverStep_accept hs
    refine ⟨haligned, ?_, fun p m hm => ?_⟩
    · simp [hs', h.members]
    · by_cases hp : p < w.members.length
      · rw [List.getElem?_append_left hp] at hm
        exact hread p m hm
      · -- the new client has not read anything
        rw [List.getElem?_append_right (Nat.le_of_not_lt hp), List.getElem?_singleton] at hm
        split at hm
        · cases hm
          refine ⟨Nat.zero_le _, ?_⟩
          rw [List.take_zero, h.aligned.bus.onApi]
          rfl
        · cases hm
  | deliver p =>
    simp only [worldStep] at hstep
    split at hstep
    · cases hstep
    · next m hm =>
      obtain ⟨info, hinfo, rfl⟩ := Option.map_eq_some_iff.mp hstep
      obtain ⟨hlt, -⟩ := List.getElem?_eq_some_iff.mp hinfo
      obtain ⟨hle, hclient⟩ := h.read p m hm
      refine ⟨h.aligned, (List.length_set).trans h.members, fun q m' hm' => ?_⟩
      by_cases hq : p = q
      · subst hq
        rw [List.getElem?_set_self (List.getElem?_eq_some_iff.mp hm).1] at hm'
        cases hm'
        refine ⟨hlt, ?_⟩
        rw [List.take_add_one, hinfo, List.foldl_append, ← hclient]
        rfl
      · rw [List.getElem?_set_ne hq] at hm'
        exact h.read q m' hm'

end World.Settled

/-- In every run of a server with any number of clients, whatever the order in which the clients
connect and request and in which packets are delivered: an accepted client that has read everything
that was sent to it has the registered objects of the server, if the packets are shorter than `2 ^
32` bytes. -/
theorem replicas_agree {api : BusDesc} (hapi : api.Ok) (ops : List WorldOp)
    (hvalid : ∀ op ∈ ops, op.Valid api)
    (w : World) (hrun : runs worldStep ops (worldNew api) = some w) (p : ℕ) (m : Member)
    (hm : w.members[p]? = some m) (haccepted : w.server.peerState p = .connected)
    (hread : m.nRead = (inbox p w.server.trace).length)
    (hlen : ∀ info ∈ inbox p w.server.trace, info.bytes.length < 2 ^ 32) :
    m.client.bus.replica = w.server.bus.replica := by
  have hnew : (worldNew api).Settled api := ⟨Aligned.new api, rfl, nofun⟩
  have hsettled : w.Settled api := runs_invariant (C := fun _ op => op.Valid api)
    (fun _ _ _ h hC hstep => h.step hC hstep) hnew
      (meetsAll_of_forall (fun op hop _ => hvalid op hop) _) hrun
  obtain ⟨htidy, hstate, hempty⟩ := Tidy.new api
  obtain ⟨-, hreplica, hok⟩ :=
    (hsettled.aligned.follows p haccepted).read hapi htidy hstate hempty hlen
  have hclient := (hsettled.read p m hm).2
  rw [hread, List.take_length, foldl_receive hok] at hclient
  rw [hclient, hreplica]

/-- A bus whose objects have a text. -/
def textApi : BusDesc :=
  ⟨CString.ofBytes [98, 117, 115], [⟨100, [⟨1, .property, .value .string, none⟩], [], []⟩], [], 77⟩

lemma textApi_ok : textApi.Ok := by
  refine ⟨by decide, fun o ho => ?_, by decide⟩
  rw [List.mem_singleton.mp ho]
  exact ⟨by decide, by decide, by decide, by decide⟩

/-- A client connects to a server that has an object with a given text. -/
def announced (text : CString) : List WorldOp :=
  [.api (.newObject ⟨100, [⟨1, .property, .value .string, none⟩], [], []⟩
    (some (textInfo (some text))) [7]),
    .api (.registerObject 7), .join, .request 0 (CString.ofBytes [99])]

lemma announced_valid (text : CString) : ∀ op ∈ announced text, op.Valid textApi := by
  intro op hop
  simp only [announced, List.mem_cons, List.not_mem_nil, or_false] at hop
  rcases hop with rfl | rfl | rfl | rfl
  · refine ⟨List.mem_singleton.mpr rfl, ?_⟩
    rintro _ ⟨⟩ f hf -
    rw [List.mem_singleton.mp hf]
    trivial
  · trivial
  · trivial
  · trivial

theorem replicas_agree_announced :
    ∃ w m, runs worldStep (announced (nameOf 3) ++ [.deliver 0]) (worldNew textApi) = some w ∧
      w.members[0]? = some m ∧ w.server.bus.objects = [7] ∧
      m.client.bus.replica = w.server.bus.replica := by
  obtain ⟨w, hrun⟩ : ∃ w, runs worldStep (announced (nameOf 3) ++ [.deliver 0]) (worldNew textApi) =
    some w := ⟨_, rfl⟩
  obtain ⟨m, hm⟩ : ∃ m, w.members[0]? = some m := by
    cases hrun
    exact ⟨_, rfl⟩
  have hvalid : ∀ op ∈ announced (nameOf 3) ++ [.deliver 0], op.Valid textApi := by
    intro op hop
    rcases List.mem_append.mp hop with hop | hop
    · exact announced_valid _ op hop
    · rw [List.mem_singleton.mp hop]
      trivial
  have haccepted : w.server.peerState 0 = .connected := by
    cases hrun
    decide +kernel
  have hread : m.nRead = (inbox 0 w.server.trace).length := by
    cases hrun
    cases hm
    decide +kernel
  have hshort : ∀ info ∈ inbox 0 w.server.trace, info.bytes.length < 2 ^ 32 := by
    cases hrun
    decide +kernel
  have hregistered : w.server.bus.objects = [7] := by
    cases hrun
    decide +kernel
  exact ⟨w, m, hrun, hm, hregistered,
    replicas_agree textApi_ok _ hvalid w hrun 0 m hm haccepted hread hshort⟩

/-! A text whose size does not fit is lost on the way. -/

/-- An object with a text. -/
def writtenObject (text : Option CString) : Object :=
  ⟨⟨100, [⟨1, .property, .value .string, none⟩], [], []⟩, 7, true, textInfo text⟩

/-- On the wire a text that needs exactly `2 ^ 32` bytes is an absent text. -/
lemma wire_writtenObject {text : CString} (h : text.val.length + 1 = 2 ^ 32) :
    (PacketInfo.conresp .accepted [writtenObject (some text)]).wire =
      (PacketInfo.conresp .accepted [writtenObject none]).bytes := by
  have hobject : Writes (objectAddEncode (writtenObject (some text)))
      (objectAddBytes (writtenObject none)) :=
    (writes_u16 _).bind ((writes_u16 _).bind (writes_sized (writes_textInfo h)))
  have hbody : Writes (do
      appendU8 ConrespStatus.accepted.code
      appendU32 (UInt32.ofNat [writtenObject (some text)].length)
      if 0 < UInt32.ofNat [writtenObject (some text)].length
        then Prog.each objectAddEncode [writtenObject (some text)])
      (PacketInfo.conresp .accepted [writtenObject none]).bodyBytes :=
    (writes_u8 _).bind ((writes_count _).bind (hobject.bind .pure))
  rcases packetEncode_cases zeroMem .conresp hbody ⟨[], 0, 0⟩ with ⟨b, hrun, -, hcontent⟩ |
    ⟨e, b, -, n, hnone⟩
  · have hencode :
        (PacketInfo.conresp .accepted [writtenObject (some text)]).encode.on zeroMem ⟨[], 0, 0⟩ =
          (.ok (), b) := hrun
    rw [PacketInfo.wire, hencode, hcontent]
    rfl
  · exact absurd hnone (zeroMem_ne_none n)

/-- A server that has registered an object with a text, without clients. -/
def showing (text : CString) : World where
  server := { serverNew textApi with
    bus := ⟨textApi, [writtenObject (some text)], [7]⟩
    trace := [.committed (.add { writtenObject (some text) with isRegistered := false })] }

/-- A client that connects to a server with an object whose text has `2 ^ 32 - 1` characters has
read everything, and has the object without the text. -/
theorem long_text_not_replicated :
    ∃ w m, runs worldStep (announced (nameOf (2 ^ 32 - 1)) ++ [.deliver 0])
      (worldNew textApi) = some w ∧
      (∀ op ∈ announced (nameOf (2 ^ 32 - 1)) ++ [.deliver 0], op.Valid textApi) ∧
      w.members[0]? = some m ∧
      w.server.peerState 0 = .connected ∧ m.nRead = (inbox 0 w.server.trace).length ∧
      m.client.bus.replica ≠ w.server.bus.replica := by
  have hlen : (nameOf (2 ^ 32 - 1)).val.length + 1 = 2 ^ 32 := by
    rw [nameOf_length]
    norm_num
  have hne : nameOf (2 ^ 32 - 1) ≠ ⟨[], List.not_mem_nil⟩ := by
    intro hnil
    rw [hnil] at hlen
    norm_num at hlen
  have hvalid := announced_valid (nameOf (2 ^ 32 - 1))
  generalize nameOf (2 ^ 32 - 1) = text at hlen hne hvalid ⊢
  obtain ⟨w, hrest⟩ : ∃ w, runs worldStep [.join, .request 0 (CString.ofBytes [99])]
    (showing text) = some w :=
    ⟨_, rfl⟩
  have hrun : runs worldStep (announced text) (worldNew textApi) = some w := by
    refine runs_cons.mpr ⟨{ server := { serverNew textApi with
      bus := ⟨textApi, [{ writtenObject (some text) with isRegistered := false }], []⟩ } }, rfl, ?_⟩
    exact runs_cons.mpr ⟨showing text, rfl, hrest⟩
  have hmembers : w.members = [⟨(clientNew textApi).start, 0⟩] := by
    cases hrest
    rfl
  have hinbox : inbox 0 w.server.trace = [.conresp .accepted [writtenObject (some text)]] := by
    cases hrest
    rfl
  have hserver : w.server.bus.replica = [writtenObject (some text)] := by
    cases hrest
    rfl
  have haccepted : w.server.peerState 0 = .connected := by
    cases hrest
    rfl
  have hdeliver : worldStep w (.deliver 0) = some { w with members :=
      [⟨(clientNew textApi).start.receive (.conresp .accepted [writtenObject (some text)]),
        1⟩] } := by
    simp only [worldStep, hmembers, hinbox]
    rfl
  have hclient :
      ((clientNew textApi).start.receive
        (.conresp .accepted [writtenObject (some text)])).bus.replica =
        [writtenObject (some ⟨[], List.not_mem_nil⟩)] := by
    have htype : (PacketInfo.conresp .accepted [writtenObject (some text)]).type =
        (PacketInfo.conresp .accepted [writtenObject none]).type := rfl
    rw [Client.receive_eq htype (wire_writtenObject hlen)]
    decide +kernel
  refine ⟨_, _, runs_append.mpr ⟨w, hrun, runs_cons.mpr ⟨_, hdeliver, rfl⟩⟩, fun op hop => ?_, rfl,
    haccepted, ?_, ?_⟩
  · rcases List.mem_append.mp hop with hop | hop
    · exact hvalid op hop
    · rw [List.mem_singleton.mp hop]
      trivial
  · rw [hinbox]
    rfl
  · rw [hclient, hserver]
    intro heq
    have htext : (some ⟨[], List.not_mem_nil⟩ : Option CString) = some text := by
      simpa [writtenObject, textInfo] using heq
    exact hne (Option.some.inj htext).symm

end Obus
