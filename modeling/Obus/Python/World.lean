import Obus.Python.Mirror
import Obus.StreamAgreement
import Obus.World

/-!
# A server and its clients of the Python library

Any number of clients of the Python library and a server of the C library (`World`).  A client
connects its socket and sends a connection request, which the server takes off the bytes.  What the
server sends to a client is one stream of bytes.  The thread of the transport reads it in chunks and
queues the packets that its decoder cuts off, and the client handles the packets of the queue one
after the other; both may be behind by any number of bytes and packets.

A client that has been accepted, and has read and handled everything, has the registered objects of
the server (`python_replicas_agree`).  The argument is that the chunks are cut as the stream
(`Cuts`), and the packets that are cut off are those of the server.
-/

namespace Obus.Python

open Fallible

/-! ## The world -/

/-- A client of the Python library: its name, the decoder of its connection, the number of bytes
that it has read, the packets that wait in the queue, and the client, unless an exception has ended
it. -/
structure Member where
  name : List UInt8
  dec : ByteDecoder := .new
  nRead : ℕ := 0
  queue : List RawPacket := []
  client : Except Exc Client

/-- A server and its clients, by the numbers of their peers. -/
structure World where
  server : Server
  members : List Member := []

/-- What happens in a world. -/
inductive WorldOp where
  /-- The user of the server calls the interface. -/
  | api (a : Api)
  /-- A client connects its socket. -/
  | join (name : List UInt8)
  /-- The request of a client is sent, and handled by the server. -/
  | request (p : ℕ)
  /-- A client reads the next bytes, up to a number. -/
  | recv (p n : ℕ)
  /-- A client handles the next packet of its queue. -/
  | handle (p : ℕ)

/-- The bytes that the server has sent to a peer. -/
def stream (p : ℕ) (trace : List Action) : List UInt8 := (inbox p trace).flatMap PacketInfo.wire

/-- A client that has been started and has not received anything. -/
def clientNew (desc : BusDesc) (name : List UInt8) : Client :=
  { name := name, bus := { desc := desc }, state := .connecting }

/-- The frame that bytes are, if they are one as a whole. -/
def frameOf (bytes : List UInt8) : Option Frame :=
  match headerOf bytes with
  | some (size, type) => if size.toNat = bytes.length then some ⟨type, bytes⟩ else none
  | none => none

/-- What the server receives for a connection request of the Python library. -/
def requestInfo (desc : BusDesc) (bus : Obus.Bus) (name : List UInt8) : Option PacketInfo :=
  match txPacketConnReq name desc.name desc.crc with
  | .error _ => none
  | .ok bytes => (frameOf bytes).bind fun frame => (frame.decode bus).toOption

section Steps

variable (fl : Floats) (desc : BusDesc)

/-- The server does something, its user stays silent, and no buffer or write fails. -/
def World.serve (w : World) (op : ServerOp) : Option World :=
  (serverStep silentUser 0 w.server (op, fairEnv)).map fun s => { w with server := s }

/-- A read of some bytes. -/
def Member.recv (m : Member) (chunk : List UInt8) : Option Member :=
  (readChunk pythonDecodeHeader (2 * chunk.length + 2) (m.dec, m.queue) chunk).map fun r =>
    { m with dec := r.1, nRead := m.nRead + chunk.length, queue := r.2 }

/-- A packet is handled. -/
def receive (c : Except Exc Client) (packet : RawPacket) : Except Exc Client :=
  c >>= fun c => c.recvPacket fl packet.1 packet.2

/-- The first packet of the queue is handled. -/
def Member.handle (m : Member) : Option Member :=
  match m.queue with
  | [] => none
  | packet :: queue => some { m with queue := queue, client := receive fl m.client packet }

/-- A step of a world. -/
def worldStep (w : World) : WorldOp → Option World
  | .api a => w.serve (.api a)
  | .join name =>
    (w.serve .accept).map fun w' =>
      { w' with members := w.members ++ [{ name := name, client := .ok (clientNew desc name) }] }
  | .request p =>
    w.members[p]?.bind fun m => (requestInfo desc w.server.bus m.name).bind fun info =>
      w.serve (.packet p info)
  | .recv p n =>
    w.members[p]?.bind fun m =>
      (m.recv (((stream p w.server.trace).drop m.nRead).take n)).map fun m' =>
      { w with members := w.members.set p m' }
  | .handle p =>
    w.members[p]?.bind fun m => (m.handle fl).map fun m' => { w with members := w.members.set p m' }

end Steps

/-- A new server without clients. -/
def worldNew (api : Obus.BusDesc) : World := { server := serverNew api }

/-- The calls of the user are made for the bus, and no event was sent before. -/
def WorldOp.Valid (api : Obus.BusDesc) : WorldOp → Prop
  | .api a => a.Valid api
  | _ => True

/-- A client has the registered objects of a bus: an object under each handle, which shows the
fields, and no others. -/
structure SameObjects (fl : Floats) (desc : BusDesc) (bus : Obus.Bus) (c : Client) : Prop where
  shown : ∀ o ∈ bus.replica, ∃ po, c.bus.findObject o.handle.toNat = some po ∧
  ObjectShows fl desc o po
  others : ∀ handle po, c.bus.findObject handle = some po →
  ∃ o ∈ bus.replica, o.handle.toNat = handle

/-! ## The packets of the stream -/

/-- The packets that a member has cut off are those of the bytes that it has read, and it has
handled all of them but those that are in its queue. -/
def Member.Tracks (fl : Floats) (desc : BusDesc) (s : List UInt8) (m : Member) : Prop :=
  m.nRead ≤ s.length ∧ ∃ frames r handled, Obus.Holds pythonAccepts m.dec r ∧
    Cuts (byteFramer pythonAccepts) (s.take m.nRead) frames r ∧
    frames.map rawPacket = handled ++ m.queue ∧
    m.client = handled.foldl (receive fl) (.ok (clientNew desc m.name))

namespace Member.Tracks

variable {fl : Floats} {desc : BusDesc} {s t : List UInt8} {m m' : Member}

/-- The stream goes on. -/
lemma mono (h : m.Tracks fl desc s) (hpre : s <+: t) : m.Tracks fl desc t := by
  obtain ⟨hle, hrest⟩ := h
  obtain ⟨u, rfl⟩ := hpre
  refine ⟨by rw [List.length_append]; omega, ?_⟩
  rwa [List.take_append_of_le_length hle]

/-- A client that has connected its socket. -/
lemma new (name : List UInt8) :
    Tracks fl desc s { name := name, client := .ok (clientNew desc name) } := by
  have hidle : Obus.Holds pythonAccepts .new [] := .idle [] []
  refine ⟨Nat.zero_le _, [], [], [], hidle, ?_, rfl, rfl⟩
  rw [List.take_zero]
  exact hidle.cuts

/-- The next bytes are cut together with those that the decoder holds. -/
lemma recv (h : m.Tracks fl desc s) {n : ℕ} (hrecv : m.recv ((s.drop m.nRead).take n) = some m') :
    m'.Tracks fl desc s := by
  obtain ⟨hle, frames, r, handled, hholds, hcuts, hpackets, hclient⟩ := h
  obtain ⟨d, frames', r', hread, hholds', hcuts'⟩ := readChunk_spec readsHeader_python
    (fun size hsize => of_decide_eq_true hsize) hholds m.queue ((s.drop m.nRead).take n)
      (Nat.lt_succ_self _)
  unfold Member.recv at hrecv
  rw [hread] at hrecv
  obtain rfl := Option.some.inj hrecv
  have hwhole : s.take (m.nRead + ((s.drop m.nRead).take n).length) = s.take m.nRead ++
      (s.drop m.nRead).take n := by
    rw [List.take_add, List.length_take, List.length_drop, List.take_eq_take_min (i := n),
      List.length_drop]
  refine ⟨?_, frames ++ frames', r', handled, hholds', ?_, ?_, hclient⟩
  · simp only [List.length_take, List.length_drop]
    omega
  · change Cuts (byteFramer pythonAccepts) (s.take (m.nRead + ((s.drop m.nRead).take n).length)) _ _
    rw [hwhole]
    exact hcuts.append hcuts'
  · rw [List.map_append, hpackets, List.append_assoc]

/-- The first packet of the queue is handled. -/
lemma handle (h : m.Tracks fl desc s) (hhandle : m.handle fl = some m') : m'.Tracks fl desc s := by
  obtain ⟨hle, frames, r, handled, hholds, hcuts, hpackets, hclient⟩ := h
  unfold Member.handle at hhandle
  split at hhandle
  · cases hhandle
  · next packet queue hqueue =>
    obtain rfl := Option.some.inj hhandle
    refine ⟨hle, frames, r, handled ++ [packet], hholds, hcuts, ?_, ?_⟩
    · rw [hpackets, hqueue, List.append_cons]
    · rw [List.foldl_append, ← hclient]
      rfl

end Member.Tracks

/-- A packet that can be carried has a body. -/
lemma bodyBytes_pos {info : PacketInfo} (h : info.Ok) : 0 < info.bodyBytes.length := by
  cases info with
  | remove r =>
    obtain ⟨o, rfl⟩ := Option.isSome_iff_exists.mp h
    simp [PacketInfo.bodyBytes, objectRemoveBytes]
  | _ => simp [PacketInfo.bodyBytes, objectAddBytes, busEventBytes, eventBytes, callBytes]

/-- The packets of the server are cut off the stream that they make. -/
lemma cuts_packets {infos : List PacketInfo} (hok : ∀ info ∈ infos, info.Ok)
    (hlen : ∀ info ∈ infos, info.bytes.length < 2 ^ 32) :
    Cuts (byteFramer pythonAccepts) (infos.flatMap PacketInfo.bytes)
      (infos.map fun info => (info.type, info.bytes)) [] := by
  induction infos with
  | nil => exact .more rfl
  | cons info infos ih =>
    have hrest := ih (fun i hi => hok i (List.mem_cons_of_mem info hi)) fun i hi =>
      hlen i (List.mem_cons_of_mem info hi)
    have hbody := bodyBytes_pos (hok info List.mem_cons_self)
    have hlong : pktHdrSize < info.bytes.length := by
      rw [PacketInfo.bytes_length]
      omega
    have hword : (UInt32.ofNat info.bytes.length).toNat = info.bytes.length := by
      rw [UInt32.toNat_ofNat', Nat.mod_eq_of_lt (hlen info List.mem_cons_self)]
    have haccepts : pythonAccepts (UInt32.ofNat info.bytes.length) = true := by
      rw [pythonAccepts, hword]
      exact decide_eq_true hlong.le
    have hfinds := (Reaches.start (info.bytes ++ infos.flatMap PacketInfo.bytes)).finds
      (headerOf_bytes info (infos.flatMap PacketInfo.bytes)) haccepts
    rw [hword, max_eq_left hlong] at hfinds
    have hnext : Cuts (byteFramer pythonAccepts)
        ((info.bytes ++ infos.flatMap PacketInfo.bytes).drop (0 + info.bytes.length))
        (infos.map fun info => (info.type, info.bytes)) [] := by rwa [Nat.zero_add, List.drop_left]
    have hcuts := hfinds.cuts_cons (by rw [List.length_append]; omega) hnext
    rwa [List.drop_zero, List.take_left] at hcuts

/-- A member that has read the whole stream and has handled everything has handled the packets of
the server. -/
lemma Member.Tracks.finished {fl : Floats} {desc : BusDesc} {m : Member} {infos : List PacketInfo}
    (h : m.Tracks fl desc (infos.flatMap PacketInfo.wire))
    (hread : m.nRead = (infos.flatMap PacketInfo.wire).length)
    (hqueue : m.queue = []) (hok : ∀ info ∈ infos, info.Ok)
    (hlen : ∀ info ∈ infos, info.bytes.length < 2 ^ 32) :
    m.client = (infos.map fun info => (info.type, info.bodyBytes)).foldl (receive fl)
      (.ok (clientNew desc m.name)) := by
  obtain ⟨-, frames, r, handled, -, hcuts, hpackets, hclient⟩ := h
  have hwire : infos.flatMap PacketInfo.wire = infos.flatMap PacketInfo.bytes := by
    rw [List.flatMap_def, List.flatMap_def, List.map_congr_left fun info hinfo =>
      (hok info hinfo).wire]
  rw [hread, List.take_length, hwire] at hcuts
  obtain ⟨rfl, -⟩ := hcuts.unique (cuts_packets hok hlen)
  rw [hqueue, List.append_nil, List.map_map] at hpackets
  have hsame : infos.map (rawPacket ∘ fun info => (info.type, info.bytes)) =
      infos.map fun info => (info.type, info.bodyBytes) := by
    refine List.map_congr_left fun info _ => ?_
    change (info.type, info.bytes.drop pktHdrSize) = _
    rw [PacketInfo.bytes, List.drop_left' (headerBytes_length _ _)]
  rw [hclient, ← hpackets, hsame]

/-! ## Runs -/

/-- All connected peers follow the server, and the members have handled what they have cut off. -/
structure World.Settled (fl : Floats) (api : Obus.BusDesc) (desc : BusDesc) (w : World) : Prop where
  aligned : Aligned api w.server
  members : w.members.length = w.server.nextPeer
  tracks : ∀ p (m : Member), w.members[p]? = some m → m.Tracks fl desc (stream p w.server.trace)

lemma stream_grows {trace trace' : List Action} (h : trace <+: trace') (p : ℕ) :
    stream p trace <+: stream p trace' := by
  obtain ⟨new, rfl⟩ := h
  rw [stream, stream, inbox_append, List.flatMap_append]
  exact List.prefix_append _ _

namespace World.Settled

variable {fl : Floats} {api : Obus.BusDesc} {desc : BusDesc} {w w' : World}

/-- The server does something that is valid. -/
lemma serve (h : w.Settled fl api desc) {op : ServerOp} (hvalid : ∀ a, op = .api a → a.Valid api)
    (hop : w.serve op = some w') : Aligned api w'.server ∧ w'.members = w.members ∧
      (op ≠ .accept → w'.server.nextPeer = w.server.nextPeer) ∧
      ∀ p (m : Member), w.members[p]? = some m → m.Tracks fl desc (stream p w'.server.trace) := by
  obtain ⟨s, hs, rfl⟩ := Option.map_eq_some_iff.mp hop
  have haligned := h.aligned.step (silentUser_valid api) silentUser_quiet
    ⟨fun _ _ => rfl, hvalid⟩ hs
  obtain ⟨htrace, hnext⟩ := serverStep_grows hs
  exact ⟨haligned, rfl, hnext, fun p m hm => (h.tracks p m hm).mono (stream_grows htrace p)⟩

/-- A member reads or handles something. -/
lemma set (h : w.Settled fl api desc) {p : ℕ} {m m' : Member} (hm : w.members[p]? = some m)
    (htracks : m'.Tracks fl desc (stream p w.server.trace)) :
    ({ w with members := w.members.set p m' } : World).Settled fl api desc := by
  refine ⟨h.aligned, List.length_set.trans h.members, fun q n hn => ?_⟩
  by_cases hq : p = q
  · subst hq
    rw [List.getElem?_set_self (List.getElem?_eq_some_iff.mp hm).1] at hn
    exact Option.some.inj hn ▸ htracks
  · rw [List.getElem?_set_ne hq] at hn
    exact h.tracks q n hn

lemma step (h : w.Settled fl api desc) {op : WorldOp} (hvalid : op.Valid api)
    (hstep : worldStep fl desc w op = some w') : w'.Settled fl api desc := by
  have hserve : ∀ sop : ServerOp, (∀ a, sop = .api a → a.Valid api) → sop ≠ .accept →
      w.serve sop = some w' →
      w'.Settled fl api desc := by
    intro sop hsop hne hop
    obtain ⟨haligned, hmembers, hnext, htracks⟩ := h.serve hsop hop
    exact ⟨haligned, by rw [hmembers, hnext hne, h.members], fun p m hm => htracks p m
      (hmembers ▸ hm)⟩
  cases op with
  | api a =>
    refine hserve (.api a) (fun b hb => ?_) (fun heq => ServerOp.noConfusion heq) hstep
    cases hb
    exact hvalid
  | request p =>
    obtain ⟨m, -, hrequest⟩ := Option.bind_eq_some_iff.mp hstep
    obtain ⟨info, -, hop⟩ := Option.bind_eq_some_iff.mp hrequest
    exact hserve (.packet p info) (fun a heq => ServerOp.noConfusion heq)
      (fun heq => ServerOp.noConfusion heq) hop
  | join name =>
    obtain ⟨w₁, hop, rfl⟩ := Option.map_eq_some_iff.mp hstep
    obtain ⟨haligned, hmembers, -, htracks⟩ := h.serve (fun a heq => ServerOp.noConfusion heq) hop
    obtain ⟨s, hs, rfl⟩ := Option.map_eq_some_iff.mp hop
    have hs' := serverStep_accept hs
    refine ⟨haligned, ?_, fun p m hm => ?_⟩
    · simp [hs', h.members]
    · by_cases hp : p < w.members.length
      · rw [List.getElem?_append_left hp] at hm
        exact htracks p m hm
      · rw [List.getElem?_append_right (Nat.le_of_not_lt hp), List.getElem?_singleton] at hm
        split at hm
        · obtain rfl := Option.some.inj hm
          exact Member.Tracks.new name
        · cases hm
  | recv p n =>
    obtain ⟨m, hm, hmember⟩ := Option.bind_eq_some_iff.mp hstep
    obtain ⟨m', hrecv, rfl⟩ := Option.map_eq_some_iff.mp hmember
    exact h.set hm ((h.tracks p m hm).recv hrecv)
  | handle p =>
    obtain ⟨m, hm, hmember⟩ := Option.bind_eq_some_iff.mp hstep
    obtain ⟨m', hhandle, rfl⟩ := Option.map_eq_some_iff.mp hmember
    exact h.set hm ((h.tracks p m hm).handle hhandle)

end World.Settled

/-! ## Agreement -/

section Reads

variable {fl : Floats} {api : Obus.BusDesc} {desc : BusDesc} {c : Client} {l : List Object}

/-- The packets of the server, handled in order. -/
def receiveAll (fl : Floats) (infos : List PacketInfo) (c : Except Exc Client) :
    Except Exc Client :=
  (infos.map fun info => (info.type, info.bodyBytes)).foldl (receive fl) c

lemma receiveAll_cons {info : PacketInfo} {c₁ : Client}
    (h : c.recvPacket fl info.type info.bodyBytes = .ok c₁)
    (infos : List PacketInfo) :
    receiveAll fl (info :: infos) (.ok c) = receiveAll fl infos (.ok c₁) := by
  have hfirst : receive fl (.ok c) (info.type, info.bodyBytes) = .ok c₁ := h
  unfold receiveAll
  rw [List.map_cons, List.foldl_cons, hfirst]

lemma receiveAll_append (infos infos' : List PacketInfo) (c : Except Exc Client) :
    receiveAll fl (infos ++ infos') c = receiveAll fl infos' (receiveAll fl infos c) := by
  unfold receiveAll
  rw [List.map_append, List.foldl_append]

/-- A client that waits to be accepted ignores acknowledgements. -/
lemma receiveAll_acks (fl : Floats) (c : Client) {infos : List PacketInfo}
    (hack : ∀ info ∈ infos, info.type = .ack) :
    ∃ c', receiveAll fl infos (.ok c) = .ok c' ∧ c'.bus = c.bus ∧ c'.state = c.state := by
  induction infos generalizing c with
  | nil => exact ⟨c, rfl, rfl, rfl⟩
  | cons info infos ih =>
    obtain ⟨a, rfl⟩ : ∃ a, info = .ack a := by
      have htype := hack info List.mem_cons_self
      cases info with
      | ack a => exact ⟨a, rfl⟩
      | _ => cases htype
    obtain ⟨c₁, hreceive, hbus, hstate⟩ := Client.recvPacket_ack fl c a
    obtain ⟨c', hrest, hbus', hstate'⟩ := ih c₁ fun i hi => hack i (List.mem_cons_of_mem _ hi)
    exact ⟨c', (receiveAll_cons hreceive infos).trans hrest, hbus'.trans hbus, hstate'.trans hstate⟩

/-- A client that handles packets makes the changes that they stand for. -/
lemma Mirrors.receiveAll (h : Mirrors fl api desc c.bus l) (hsame : SameBus api desc)
    {infos : List PacketInfo} (hconresp : ∀ info ∈ infos, info.type ≠ .conresp)
    (hfits : FitsAll api l (infos.filter fun info => info.type.IsNews))
    (hok : ∀ info ∈ infos, info.Ok)
    (hlen : ∀ info ∈ infos, info.bytes.length < 2 ^ 32)
    (hdecl : ∀ info ∈ infos, PacketDeclared desc info) :
    ∃ c', Python.receiveAll fl infos (.ok c) = .ok c' ∧
      Mirrors fl api desc c'.bus (applyAll (infos.filter fun info => info.type.IsNews) l) := by
  induction infos generalizing c l with
  | nil => exact ⟨c, rfl, h⟩
  | cons info infos ih =>
    have hstep : ∃ c₁ l₁, c.recvPacket fl info.type info.bodyBytes = .ok c₁ ∧
        Mirrors fl api desc c₁.bus l₁ ∧
        FitsAll api l₁ (infos.filter fun info => info.type.IsNews) ∧
        applyAll ((info :: infos).filter fun info => info.type.IsNews) l =
          applyAll (infos.filter fun info => info.type.IsNews) l₁ := by
      by_cases hnews : info.type.IsNews
      · rw [List.filter_cons_of_pos (by simpa using hnews)] at hfits ⊢
        obtain ⟨c₁, hreceive, hmirrors⟩ := h.packet hsame hfits.1
          (fun heq => absurd heq (hconresp info List.mem_cons_self)) (hok info List.mem_cons_self)
          (hlen info List.mem_cons_self) (hdecl info List.mem_cons_self)
        exact ⟨c₁, _, hreceive, hmirrors, hfits.2, rfl⟩
      · rw [List.filter_cons_of_neg (by simpa using hnews)] at hfits ⊢
        -- what is neither broadcast nor a response is an acknowledgement, which changes no object
        have hack : info.type = .ack := by
          by_contra hne
          exact hnews ⟨hconresp info List.mem_cons_self, hne⟩
        obtain ⟨a, rfl⟩ : ∃ a, info = .ack a := by
          cases info with
          | ack a => exact ⟨a, rfl⟩
          | _ => cases hack
        obtain ⟨c₁, hreceive, hbus, -⟩ := Client.recvPacket_ack fl c a
        exact ⟨c₁, l, hreceive, h.of_bus hbus, hfits, rfl⟩
    obtain ⟨c₁, l₁, hreceive, hmirrors, hfits', happly⟩ := hstep
    obtain ⟨c', hrest, hmirrors'⟩ :=
      ih hmirrors (fun i hi => hconresp i (List.mem_cons_of_mem info hi)) hfits'
      (fun i hi => hok i (List.mem_cons_of_mem info hi))
        (fun i hi => hlen i (List.mem_cons_of_mem info hi))
      fun i hi => hdecl i (List.mem_cons_of_mem info hi)
    exact ⟨c', (receiveAll_cons hreceive infos).trans hrest, happly ▸ hmirrors'⟩

/-- A client that has handled everything that was sent to it has the objects of the server. -/
lemma receiveAll_follows (fl : Floats) (hsame : SameBus api desc) (name : List UInt8) {p : ℕ}
    {trace : List Action} (h : Follows api p trace l) (hok : ∀ info ∈ inbox p trace, info.Ok)
    (hlen : ∀ info ∈ inbox p trace, info.bytes.length < 2 ^ 32)
    (hdecl : ∀ info ∈ inbox p trace, PacketDeclared desc info) :
    ∃ c, receiveAll fl (inbox p trace) (.ok (clientNew desc name)) = .ok c ∧
    Mirrors fl api desc c.bus l := by
  obtain ⟨early, state, objects, late, rfl, hfrom⟩ := h
  have hinbox : inbox p (early ++ .sent p state (.conresp .accepted objects) :: late) =
      inbox p early ++ (.conresp .accepted objects :: inbox p late) := by
    rw [inbox_append, ← List.singleton_append, inbox_append, inbox_sent, if_pos rfl]
    rfl
  rw [hinbox] at hok hlen hdecl ⊢
  have hresponse := List.mem_append_right (inbox p early)
    (List.mem_cons_self (a := PacketInfo.conresp .accepted objects)
    (l := inbox p late))
  have hlater : ∀ info ∈ inbox p late, info ∈ inbox p early ++
      (.conresp .accepted objects :: inbox p late) :=
    fun info hinfo => List.mem_append_right _ (List.mem_cons_of_mem _ hinfo)
  obtain ⟨c₁, hearly, hbus, hstate⟩ := receiveAll_acks fl (clientNew desc name) hfrom.acks
  have hempty : Mirrors fl api desc c₁.bus [] := by
    rw [hbus]
    exact ⟨rfl, .nil, fun o ho => absurd ho List.not_mem_nil, List.nodup_nil, List.nodup_nil,
      fun po hpo => absurd hpo List.not_mem_nil⟩
  have hresponds : (PacketInfo.conresp .accepted objects).Fits api [] := ⟨rfl, hfrom.adds⟩
  obtain ⟨c₂, hreceive, hmirrors⟩ := hempty.packet hsame hresponds (fun _ => hstate)
    (hok _ hresponse) (hlen _ hresponse) (hdecl _ hresponse)
  have hfits := hfrom.fits
  rw [← hfrom.order] at hfits
  obtain ⟨c, hlate, hend⟩ :=
    hmirrors.receiveAll hsame hfrom.once hfits (fun info hinfo => hok info (hlater info hinfo))
    (fun info hinfo => hlen info (hlater info hinfo)) fun info hinfo =>
      hdecl info (hlater info hinfo)
  refine ⟨c, ?_, ?_⟩
  · rw [receiveAll_append, hearly, receiveAll_cons hreceive]
    exact hlate
  · have hreplica := hfrom.replica
    rw [← hfrom.order] at hreplica
    exact hreplica ▸ hend

end Reads

/-- In every run of a server of the C library and any number of clients of the Python library,
whatever the order in which the clients connect and request, and in which chunks they read: no
exception ends an accepted client that has read and handled everything that was sent to it, and it
has the registered objects of the server, if the packets are shorter than `2 ^ 32` bytes, the client
knows the bus events and its enumerations have labels for the numbers in them. -/
theorem python_replicas_agree (fl : Floats) {api : Obus.BusDesc} {desc : BusDesc}
    (hsame : SameBus api desc) (ops : List WorldOp) (hvalid : ∀ op ∈ ops, op.Valid api) (w : World)
    (hrun : runs (worldStep fl desc) ops (worldNew api) = some w) (p : ℕ) (m : Member)
    (hm : w.members[p]? = some m)
    (haccepted : w.server.peerState p = .connected)
    (hread : m.nRead = (stream p w.server.trace).length)
    (hqueue : m.queue = []) (hlen : ∀ info ∈ inbox p w.server.trace, info.bytes.length < 2 ^ 32)
    (hdecl : ∀ info ∈ inbox p w.server.trace, PacketDeclared desc info) :
    ∃ c, m.client = .ok c ∧ SameObjects fl desc w.server.bus c := by
  have hnew : (worldNew api).Settled fl api desc :=
    ⟨Aligned.new api, rfl, fun p m hm => absurd (List.mem_of_getElem? hm) List.not_mem_nil⟩
  have hsettled : w.Settled fl api desc := runs_invariant (C := fun _ op => op.Valid api)
    (fun _ _ _ h hC hstep => h.step hC hstep) hnew
      (meetsAll_of_forall (fun op hop _ => hvalid op hop) _) hrun
  have hfollows := hsettled.aligned.follows p haccepted
  obtain ⟨htidy, hstate, hempty⟩ := Tidy.new api
  obtain ⟨-, -, hok⟩ := hfollows.read hsame.ok htidy hstate hempty hlen
  have hclient := (hsettled.tracks p m hm).finished hread hqueue hok hlen
  obtain ⟨c, hall, hmirrors⟩ := receiveAll_follows fl hsame m.name hfollows hok hlen hdecl
  refine ⟨c, hclient.trans hall, fun o ho => ?_, fun handle po hpo => ?_⟩
  · obtain ⟨po, hmem, hshows⟩ := hmirrors.shows.exists_right ho
    exact ⟨po, hshows.handle ▸ hmirrors.find hmem, hshows⟩
  · obtain ⟨o, ho, hshows⟩ := hmirrors.shows.exists_left (List.mem_of_find?_eq_some hpo)
    have hhandle := List.find?_some (p := fun o : ObusObject => decide (o.handle = handle)) hpo
    exact ⟨o, ho, hshows.handle.symm.trans (of_decide_eq_true hhandle)⟩

/-- Conversions of floats that know zero. -/
def zeroFloats : Floats where
  widen _ := 0
  narrow bits := if bits = 0 then some 0 else none
  ofInt n := if n = 0 then some 0 else none
  trunc bits := if bits = 0 then some 0 else none

/-- The structures of objects with a text. -/
def textStruct : StructDesc := ⟨[⟨[116], 1, 9, none⟩], by decide⟩

/-- The bus whose objects have a text. -/
def textDesc : BusDesc where
  name := [98, 117, 115]
  crc := 77
  objectsDesc uid := if uid = 100
    then some ⟨100, textStruct, fun _ => none, fun _ => none⟩ else none
  eventsDesc _ := none

lemma textDesc_sameBus : SameBus textApi textDesc := by
  refine ⟨textApi_ok, fun d hd => ?_⟩
  obtain rfl := List.mem_singleton.mp hd
  refine ⟨_, rfl, rfl, by decide, fun g hg => ?_, fun e he => absurd he List.not_mem_nil⟩
  obtain rfl := List.mem_singleton.mp hg
  exact ⟨_, List.mem_singleton.mpr rfl, rfl, rfl⟩

/-- A text needs no label. -/
lemma textStruct_declared (st : Struct) : Declared textStruct st := by
  intro s hs hhas f hf hsame
  obtain rfl := List.mem_singleton.mp hf
  have htype := hsame.type
  obtain ⟨⟨uid, role, type, mtd⟩, has, val⟩ := s
  cases type with
  | value t =>
    cases t with
    | enum => exact absurd (show 9 = 8 from htype) (by decide)
    | _ => trivial
  | array t =>
    cases t with
    | enum => exact absurd (show 9 = 136 from htype) (by decide)
    | _ => exact fun c _ => trivial

lemma textDesc_declared {info : PacketInfo} (h : info.type ≠ .busEvent) :
    PacketDeclared textDesc info := by
  have hobject : ∀ d st, ObjectDeclared textDesc d st := by
    intro d st pd hpd
    change (if d.uid.toNat = 100 then _ else none) = some pd at hpd
    split_ifs at hpd
    obtain rfl := Option.some.inj hpd
    exact textStruct_declared st
  cases info with
  | conresp _ objects => exact fun o _ => hobject o.desc o.info
  | add o => exact hobject o.desc o.info
  | event e => exact hobject e.obj.desc e.info
  | busEvent e => exact absurd rfl h
  | conreq _ | remove _ | call _ | ack _ => trivial

/-- A client of the Python library connects to a server that has an object with a text, and reads in
two chunks. -/
def textRun : List WorldOp :=
  [.api (.newObject ⟨100, [⟨1, .property, .value .string, none⟩], [], []⟩
    (some (textInfo (some (nameOf 3)))) [7]),
    .api (.registerObject 7), .join [99], .request 0, .recv 0 13, .recv 0 100, .handle 0]

theorem python_replicas_agree_textRun :
    ∃ w m c, runs (worldStep zeroFloats textDesc) textRun (worldNew textApi) = some w ∧
    w.members[0]? = some m ∧
      w.server.bus.objects = [7] ∧ m.client = .ok c ∧
      SameObjects zeroFloats textDesc w.server.bus c := by
  obtain ⟨w, hrun⟩ : ∃ w, runs (worldStep zeroFloats textDesc) textRun (worldNew textApi) =
    some w := ⟨_, rfl⟩
  obtain ⟨m, hm⟩ : ∃ m, w.members[0]? = some m := by
    cases hrun
    exact ⟨_, rfl⟩
  have hvalid : ∀ op ∈ textRun, op.Valid textApi := by
    intro op hop
    simp only [textRun, List.mem_cons, List.not_mem_nil, or_false] at hop
    rcases hop with rfl | rfl | rfl | rfl | rfl | rfl | rfl
    · refine ⟨List.mem_singleton.mpr rfl, ?_⟩
      rintro _ ⟨⟩ f hf -
      rw [List.mem_singleton.mp hf]
      trivial
    all_goals trivial
  have haccepted : w.server.peerState 0 = .connected := by
    cases hrun
    decide +kernel
  have hread : m.nRead = (stream 0 w.server.trace).length := by
    cases hrun
    cases hm
    decide +kernel
  have hqueue : m.queue = [] := by
    cases hrun
    cases hm
    decide +kernel
  have hshort : ∀ info ∈ inbox 0 w.server.trace, info.bytes.length < 2 ^ 32 := by
    cases hrun
    decide +kernel
  have hquiet : ∀ info ∈ inbox 0 w.server.trace, info.type ≠ .busEvent := by
    cases hrun
    decide +kernel
  have hregistered : w.server.bus.objects = [7] := by
    cases hrun
    decide +kernel
  obtain ⟨c, hc, hagree⟩ :=
    python_replicas_agree zeroFloats textDesc_sameBus textRun hvalid w hrun 0 m hm haccepted hread
    hqueue hshort fun info hinfo => textDesc_declared (hquiet info hinfo)
  exact ⟨w, m, c, hrun, hm, hregistered, hc, hagree⟩

end Obus.Python
