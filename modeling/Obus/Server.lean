import Obus.Packet

/-!
# The server

The functions of `obus_server.c`: the peers and their connection handshake, calls and their
acknowledgements, and the operations that change the objects of the bus and tell the peers about it.

Everything that the server does not decide is a parameter.  An `Env` says which buffers can be had
and which writes succeed, a write that is queued counting as one that succeeds.  The callbacks of
the user are given by what they call of the interface of the server (`User`), as a function of the
state in which they are called; a call nests them again, down to a given depth (`callback`).

The state carries a record of what has happened (`Action`), the number of broadcasts in progress,
and whether memory was used that is absent or freed.  After such a fault nothing more is said.
-/

namespace Obus

/-- `enum obus_peer_state`. -/
inductive PeerState where
  | idle | connecting | connected | disconnected | refused
  deriving DecidableEq, Repr

/-- `enum obus_peer_event`. -/
inductive PeerEvent where
  | connecting | connected | disconnected
  deriving DecidableEq, Repr

/-- `struct obus_peer`; a peer is known by a number that is never used again. -/
structure Peer where
  id : ℕ
  state : PeerState
  name : Option CString := none
  deriving DecidableEq

/-- What `srv->call` points to.  The call is destroyed when the packet that brought it has been
handled. -/
structure PendingCall where
  peer : ℕ
  handle : UInt16
  alive : Bool
  deriving DecidableEq

/-- What the server does that others can see, and when it changes its own objects. -/
inductive Action where
  /-- A packet is written, or queued, for a peer that is in the given state. -/
  | sent (peer : ℕ) (state : PeerState) (info : PacketInfo)
  /-- The handler of a method is invoked for a call of a peer that is in the given state. -/
  | invoked (peer : ℕ) (state : PeerState) (call : Call)
  /-- The peer-connection callback is invoked. -/
  | notified (event : PeerEvent) (peer : ℕ)
  /-- The server commits what the packet announces to its own objects. -/
  | committed (info : PacketInfo)
  /-- A peer is destroyed. -/
  | destroyed (peer : ℕ)
  deriving DecidableEq

/-- Memory that is used although it must not be. -/
inductive Fault where
  /-- A string that is absent. -/
  | absentString
  /-- A peer that was destroyed. -/
  | freedPeer
  /-- The next peer of a walk, which was destroyed meanwhile. -/
  | freedCursor
  /-- A call that was destroyed. -/
  | freedCall
  /-- An object that was destroyed. -/
  | freedObject
  /-- The head of a list, taken for an object. -/
  | listHead
  deriving DecidableEq, Repr

/-- `struct obus_server`. -/
structure Server where
  bus : Bus
  peers : List Peer := []
  nPeersConnected : ℕ := 0
  call : Option PendingCall := none
  /-- The `status` of the call that is being handled. -/
  callStatus : CallStatus := .invalid
  /-- The number of the next peer. -/
  nextPeer : ℕ := 0
  /-- How many buffers were asked for and how many writes were tried. -/
  ticks : ℕ := 0
  /-- How many broadcasts are in progress. -/
  walking : ℕ := 0
  /-- Absent or freed memory was used. -/
  fault : Option Fault := none
  trace : List Action := []

/-- Which buffers can be had and filled, for which packets, and which writes to which peer succeed.
-/
structure Env where
  buffer : ℕ → PacketType → Bool
  write : ℕ → ℕ → PacketType → Bool

namespace Server

variable (s : Server)

/-- The peer with a number. -/
def peer? (p : ℕ) : Option Peer := s.peers.find? (·.id = p)

/-- The state of a peer; one that is gone counts as disconnected. -/
def peerState (p : ℕ) : PeerState := ((s.peer? p).map Peer.state).getD .disconnected

/-- Change a peer. -/
def modifyPeer (p : ℕ) (f : Peer → Peer) : Server :=
  { s with peers := s.peers.map fun q => if q.id = p then f q else q }

/-- Change the state of a peer. -/
def setState (p : ℕ) (st : PeerState) : Server := s.modifyPeer p fun q => { q with state := st }

/-- Record an action. -/
def log (a : Action) : Server := { s with trace := s.trace ++ [a] }

/-- Use memory that is not there. -/
def crash (f : Fault) : Server := { s with fault := some f }

end Server

/-- What `obus_peer_notify_user` does to the server, the calls of the callback included. -/
abbrev Notify := PeerEvent → ℕ → Server → Server

/-! ## Peers -/

/-- `obus_peer_destroy`. -/
def peerDestroy (notify : Notify) (p : ℕ) (s : Server) : Server :=
  let s := if s.peerState p = .connected then
      notify .disconnected p { s.setState p .disconnected with
        nPeersConnected := s.nPeersConnected - 1 }
    else s
  { s with peers := s.peers.filter (·.id ≠ p) }.log (.destroyed p)

/-- `obus_io_write` for a peer: whether the packet was written or queued. -/
def ioWrite (env : Env) (p : ℕ) (info : PacketInfo) (s : Server) : Bool × Server :=
  let s' := { s with ticks := s.ticks + 1 }
  if env.write s.ticks p info.type then (true, s'.log (.sent p (s.peerState p) info))
    else (false, s')

/-- `obus_buffer_pool_peek` and an encoder: whether a buffer could be had and filled. -/
def getBuffer (env : Env) (type : PacketType) (s : Server) : Bool × Server :=
  (env.buffer s.ticks type, { s with ticks := s.ticks + 1 })

/-- The body of the loop of `obus_server_send_peers`. -/
def sendPeer (env : Env) (notify : Notify) (info : PacketInfo) (p : ℕ) (s : Server) : Server :=
  if s.peerState p ≠ .connected then s
  else
    match ioWrite env p info s with
    | (true, s') => s'
    | (false, s') => peerDestroy notify p s'

/-- The entry behind a peer in a list of peers, absent at the end.  A peer that is not in the list
has none. -/
def nextEntry (p : ℕ) : List Peer → Option (Option ℕ)
  | [] => none
  | q :: peers => if q.id = p then some (peers.head?.map Peer.id) else nextEntry p peers

/-- `obus_list_walk_entry_forward_safe` over the peers, from a given entry: the next entry is read
before the body runs, and may be gone when the walk gets there. -/
def walkPeers (body : ℕ → Server → Server) : ℕ → Option ℕ → Server → Server
  | 0, _, s => s
  | _ + 1, none, s => s
  | n + 1, some p, s =>
    match nextEntry p s.peers with
    | none => s.crash .freedCursor
    | some next => walkPeers body n next (body p s)

/-- `obus_server_send_peers`. -/
def sendPeers (env : Env) (notify : Notify) (info : PacketInfo) (s : Server) : Server :=
  let s := walkPeers (sendPeer env notify info) s.peers.length (s.peers.head?.map Peer.id)
    { s with walking := s.walking + 1 }
  { s with walking := s.walking - 1 }

/-- The part that the four broadcasting operations share: nothing is encoded without connected
peers; otherwise the packet is encoded and sent to all of them.  It fails when there is no buffer
for the packet. -/
def broadcast (env : Env) (notify : Notify) (info : PacketInfo) (s : Server) :
    Except Errno Unit × Server :=
  if s.nPeersConnected = 0 then (.ok (), s)
  else
    match getBuffer env info.type s with
    | (false, s') => (.error .enomem, s')
    | (true, s') => (.ok (), sendPeers env notify info s')

/-! ## Objects and events -/

/-- `obus_server_new_object`.  The draws are those of `obus_rand_handle`. -/
def serverNewObject (desc : ObjectDesc) (info : Option Struct) (draws : List UInt16)
    (s : Server) : Server :=
  match objectNew desc info with
  | .error _ => s
  | .ok obj =>
    match busAddObject draws obj s.bus with
    | .error _ => s
    | .ok (_, bus) => { s with bus := bus }

/-- `obus_server_register_object`. -/
def serverRegisterObject (env : Env) (notify : Notify) (handle : UInt16) (s : Server) :
    Except Errno Unit × Server :=
  match s.bus.object? handle with
  | none => (.error .einval, s)
  | some obj =>
    if obj.isRegistered then (.error .eperm, s)
    else
      broadcast env notify (.add obj)
        ({ s with bus := busRegisterObject handle s.bus }.log (.committed (.add obj)))

/-- `obus_server_unregister_object`. -/
def serverUnregisterObject (env : Env) (notify : Notify) (handle : UInt16) (s : Server) :
    Except Errno Unit × Server :=
  match s.bus.object? handle with
  | none => (.error .einval, s)
  | some obj =>
    if !obj.isRegistered then (.error .eperm, s)
    else
      broadcast env notify (.remove (some obj.ref))
        ({ s with bus := busUnregisterObject handle s.bus }.log
          (.committed (.remove (some obj.ref))))

/-- Whether the object with a handle is registered. -/
def isRegistered (handle : UInt16) (bus : Bus) : Bool :=
  (bus.object? handle).any Object.isRegistered

/-- The object that a reference points to, unless it was destroyed. -/
def ObjectRef.object? (o : ObjectRef) (bus : Bus) : Option Object :=
  (bus.object? o.handle).filter (·.ref = o)

/-- `struct obus_event` of the user of a server, with its commit flag. -/
structure OwnEvent where
  event : Event
  isCommitted : Bool := false
  deriving DecidableEq

/-- `obus_server_sanitize_event`. -/
def OwnEvent.sanitize (v : OwnEvent) : OwnEvent := { v with event := eventSanitize true v.event }

/-- `obus_event_commit`: an event is merged into its object once. -/
def OwnEvent.commit (v : OwnEvent) (bus : Bus) : Bus :=
  if v.isCommitted then bus else eventCommit v.event bus

/-- `obus_server_send_event`: the event is committed after it was sent.  The event is given back as
the call leaves it. -/
def serverSendEvent (env : Env) (notify : Notify) (v : OwnEvent) (s : Server) :
    Except Errno Unit × OwnEvent × Server :=
  match v.event.obj.object? s.bus with
  | none => (.error .efault, v, s.crash .freedObject)
  | some obj =>
    if !obj.isRegistered then (.error .eperm, v, s)
    else
      match broadcast env notify (.event v.sanitize.event) s with
      | (.error e, s') => (.error e, v.sanitize, s')
      | (.ok (), s') => (.ok (), { v.sanitize with isCommitted := true },
          { s' with bus := v.sanitize.commit s'.bus }.log (.committed (.event v.sanitize.event)))

/-- `struct obus_bus_event` of the user of a server: its objects are those of the server, and each
of them is in it once (`obus_bus_event_register_object`, `obus_bus_event_unregister_object`). -/
structure BusEventReq where
  desc : BusEventDesc
  addObjs : List UInt16
  removeObjs : List UInt16
  objEvents : List OwnEvent
  once : (addObjs ++ removeObjs).Nodup
  deriving DecidableEq

/-- Why a bus event is not sent. -/
inductive CheckError where
  /-- `-EPERM`. -/
  | eperm
  /-- Memory is used although it must not be. -/
  | fault (f : Fault)
  deriving DecidableEq

/-- A walk over objects that checks whether each of them is registered, or is not. -/
def serverCheckObjects (registered : Bool) (bus : Bus) : List UInt16 → Except CheckError Unit
  | [] => .ok ()
  | h :: hs =>
    match bus.object? h with
    | none => .error (.fault .freedObject)
    | some obj =>
      if obj.isRegistered = registered then serverCheckObjects registered bus hs else .error .eperm

/-- The walk of `obus_server_check_bus_event` over the events, each of which is sanitised when its
turn has come.  The message about an event whose object is not registered names the object at which
the walk over the removed objects stopped: the head of the list. -/
def serverCheckEvents (bus : Bus) : List OwnEvent → Except CheckError Unit × List OwnEvent
  | [] => (.ok (), [])
  | v :: vs =>
    match v.event.obj.object? bus with
    | none => (.error (.fault .freedObject), v :: vs)
    | some obj =>
      if !obj.isRegistered then (.error (.fault .listHead), v :: vs)
      else
        let r := serverCheckEvents bus vs
        (r.1, v.sanitize :: r.2)

/-- `obus_server_check_bus_event`, with the bus event as the check leaves it. -/
def serverCheckBusEvent (e : BusEventReq) (bus : Bus) : Except CheckError Unit × BusEventReq :=
  match serverCheckObjects false bus e.addObjs with
  | .error f => (.error f, e)
  | .ok () =>
    match serverCheckObjects true bus e.removeObjs with
    | .error f => (.error f, e)
    | .ok () =>
      let r := serverCheckEvents bus e.objEvents
      (r.1, { e with objEvents := r.2 })

/-- The bus event as it is encoded, with the objects as they are. -/
def BusEventReq.packet (e : BusEventReq) (bus : Bus) : BusEvent :=
  ⟨e.desc, e.addObjs.filterMap bus.object?, e.removeObjs.filterMap fun h =>
    (bus.object? h).map Object.ref,
    e.objEvents.map OwnEvent.event⟩

/-- `obus_server_commit_bus_event`. -/
def serverCommitBusEvent (e : BusEventReq) (bus : Bus) : Bus :=
  let bus := e.objEvents.foldl (fun bus v => v.commit bus) bus
  e.removeObjs.foldl (fun bus h => busUnregisterObject h bus) bus

/-- The bus event after it was committed. -/
def BusEventReq.committed (e : BusEventReq) : BusEventReq :=
  { e with objEvents := e.objEvents.map fun v => { v with isCommitted := true } }

/-- `obus_server_send_bus_event`: the new objects are registered before, the rest is committed after
the bus event was sent.  The bus event is given back as the call leaves it. -/
def serverSendBusEvent (env : Env) (notify : Notify) (e : BusEventReq) (s : Server) :
    Except Errno Unit × BusEventReq × Server :=
  match serverCheckBusEvent e s.bus with
  | (.error .eperm, e') => (.error .eperm, e', s)
  | (.error (.fault f), e') => (.error .eperm, e', s.crash f)
  | (.ok (), e') =>
    let info := PacketInfo.busEvent (e'.packet s.bus)
    let bus := e'.addObjs.foldl (fun bus h => busRegisterObject h bus) s.bus
    match broadcast env notify info { s with bus := bus } with
    | (.error err, s') =>
      (.error err, e', { s' with
        bus := e'.addObjs.foldl (fun bus h => busUnregisterObject h bus) s'.bus })
    | (.ok (), s') =>
      (.ok (), e'.committed, { s' with bus := serverCommitBusEvent e' s'.bus }.log
        (.committed info))

/-! ## Calls -/

/-- `obus_server_send_ack`. -/
def serverSendAck (env : Env) (handle : UInt16) (status : CallStatus) (s : Server) :
    Except Errno Unit × Server :=
  match s.call with
  | none => (.error .enoent, s)
  | some call =>
    if !call.alive then (.error .efault, s.crash .freedCall)
    else if call.handle ≠ handle then (.error .enoent, s)
    else
      match getBuffer env .ack s with
      | (false, s') => (.error .enomem, s')
      | (true, s') =>
        if (s'.peer? call.peer).isNone then (.error .efault, s'.crash .freedPeer)
        else
          -- whether the packet was written is not looked at
          let s' := (ioWrite env call.peer (.ack ⟨call.handle, status.code⟩) s').2
          (.ok (), { s' with callStatus := status, call := none })

/-- `enum obus_method_state`; any other number is neither. -/
inductive MethodState where
  | notSupported | enabled | disabled | other
  deriving DecidableEq, Repr

/-- The method state with a given number. -/
def MethodState.ofCode (c : UInt32) : MethodState :=
  if c = 0 then notSupported else if c = 1 then enabled else if c = 2 then disabled else other

/-- The number that an enumeration field holds. -/
def Slot.enum? : Slot → Option UInt32
  | ⟨⟨_, _, .value .enum, _⟩, _, v⟩ => some v
  | _ => none

/-- `obus_object_get_method_state`. -/
def objectGetMethodState (obj : Object) (uid : UInt16) : MethodState :=
  match structGetFieldDesc obj.info uid with
  | none => .disabled
  | some (_, slot) =>
    if slot.desc.role ≠ .method then .disabled
    else if !slot.desc.enumDrv.any EnumDriver.isMethodState then .disabled
    else (slot.enum?.map MethodState.ofCode).getD .disabled

/-- What the handler of a method does to the server, if the object has one. -/
abbrev Handler := ℕ → Call → Server → Option Server

/-- `obus_peer_call_request`.  The state of the peer is not looked at. -/
def peerCallRequest (env : Env) (handler : Handler) (p : ℕ) (call : Call) (s : Server) : Server :=
  let s := { s with call := some ⟨p, call.handle, true⟩, callStatus := .invalid }
  let (status, s) :=
    match s.bus.object? call.obj.handle with
    | none => (CallStatus.aborted, s)
    | some obj =>
      if !obj.isRegistered then (CallStatus.aborted, s)
      else
        match objectGetMethodState obj call.desc.uid with
        | .enabled => (CallStatus.refused, (handler p call s).getD s)
        | .disabled => (CallStatus.methodDisabled, s)
        | .notSupported => (CallStatus.methodNotSupported, s)
        | .other => (CallStatus.refused, s)
  let s := if s.callStatus = .invalid then (serverSendAck env call.handle status s).2 else s
  -- the call is destroyed; a pointer to it may stay
  { s with call := s.call.map fun c => { c with alive := false } }

/-! ## The connection handshake -/

/-- `obus_peer_send_connection_response`: whether it was sent. -/
def peerSendConnectionResponse (env : Env) (p : ℕ) (status : ConrespStatus) (s : Server) :
    Bool × Server :=
  match getBuffer env .conresp s with
  | (false, s') => (false, s')
  | (true, s') =>
    ioWrite env p (.conresp status (if status = .accepted then s.bus.registered else [])) s'

/-- The checks of `obus_peer_connection_request` on the request.  Comparing an absent bus name reads
absent memory. -/
def checkConreq (req : Conreq) (api : BusDesc) : Option ConrespStatus :=
  if req.version ≠ protocolVersion then some .refused
  else
    match req.bus with
    | none => none
    | some bus =>
      if bus ≠ api.name then some .refused
      else if req.crc ≠ api.crc then some .refused
      else if req.client.all (fun c => c.val.isEmpty) then some .refused
      else some .accepted

/-- `obus_peer_connection_request`: whether the peer is still there. -/
def peerConnectionRequest (env : Env) (notify : Notify) (p : ℕ) (req : Conreq) (s : Server) :
    Bool × Server :=
  if s.peerState p ≠ .idle then (true, s)
  -- the name is duplicated before it is checked
  else if req.client.isNone then (true, s.crash .absentString)
  else
    let s := s.modifyPeer p fun q => { q with name := req.client }
    match checkConreq req s.bus.api with
    | none => (true, s.crash .absentString)
    | some status =>
      let s := if status = .accepted then notify .connecting p (s.setState p .connecting) else s
      let status := if status = .accepted ∧ s.peerState p = .refused then .refused else status
      match peerSendConnectionResponse env p status s with
      | (false, s) => (false, peerDestroy notify p s)
      | (true, s) =>
        if status = .accepted then
          (true, notify .connected p
            { s.setState p .connected with nPeersConnected := s.nPeersConnected + 1 })
        else (true, s.setState p .refused)

/-! ## The user -/

/-- `obus_peer_refuse_connection`. -/
def peerRefuseConnection (p : ℕ) (s : Server) : Server :=
  if s.peerState p = .connecting then s.setState p .refused else s

/-- The calls of the interface of the server. -/
inductive Api where
  | newObject (desc : ObjectDesc) (info : Option Struct) (draws : List UInt16)
  | registerObject (handle : UInt16)
  | unregisterObject (handle : UInt16)
  | destroyObject (handle : UInt16)
  | sendEvent (event : OwnEvent)
  | sendBusEvent (event : BusEventReq)
  | sendAck (handle : UInt16) (status : CallStatus)
  | refuseConnection (p : ℕ)

/-- What a call of the interface does. -/
def runApi (env : Env) (notify : Notify) : Api → Server → Server
  | .newObject desc info draws, s => serverNewObject desc info draws s
  | .registerObject handle, s => (serverRegisterObject env notify handle s).2
  | .unregisterObject handle, s => (serverUnregisterObject env notify handle s).2
  | .destroyObject handle, s =>
    match objectDestroy handle s.bus with
    | .error _ => s
    | .ok bus => { s with bus := bus }
  | .sendEvent event, s => (serverSendEvent env notify event s).2.2
  | .sendBusEvent event, s => (serverSendBusEvent env notify event s).2.2
  | .sendAck handle status, s => (serverSendAck env handle status s).2
  | .refuseConnection p, s => peerRefuseConnection p s

/-- The user of a server: what the peer-connection callback and the method handlers call, by the
state in which they are invoked.  A method may have no handler. -/
structure User where
  onPeer : PeerEvent → ℕ → Server → List Api
  onCall : ℕ → Call → Server → Option (List Api)

/-- `obus_peer_notify_user`, with callbacks nested at most `depth` deep. -/
def callback (user : User) (env : Env) : ℕ → Notify
  | 0, event, p, s => s.log (.notified event p)
  | depth + 1, event, p, s =>
    (user.onPeer event p s).foldl (fun s a => runApi env (callback user env depth) a s)
      (s.log (.notified event p))

/-- The invocation of the handler of a method. -/
def invoke (user : User) (env : Env) (depth : ℕ) : Handler := fun p call s =>
  (user.onCall p call s).map fun calls =>
    calls.foldl (fun s a => runApi env (callback user env depth) a s)
      (s.log (.invoked p (s.peerState p) call))

/-! ## The steps of the server -/

/-- A round of the loop of `obus_peer_io_read_event`, for a packet that was decoded.  Unless the
handler reports that the peer is gone, the loop goes on with the peer. -/
def peerPacket (user : User) (env : Env) (depth : ℕ) (p : ℕ) (info : PacketInfo)
    (s : Server) : Server :=
  let (again, s) :=
    match info with
    | .conreq req => peerConnectionRequest env (callback user env depth) p req s
    | .call call => (true, peerCallRequest env (invoke user env depth) p call s)
    | _ => (true, s)
  if again ∧ (s.peer? p).isNone then s.crash .freedPeer else s

/-- What happens to a server. -/
inductive ServerOp where
  /-- A peer connects its socket: `obus_server_accept`. -/
  | accept
  /-- A packet of a peer is read. -/
  | packet (p : ℕ) (info : PacketInfo)
  /-- Reading from a peer fails, or writing a queued packet to it: `obus_peer_destroy`. -/
  | closed (p : ℕ)
  /-- The user calls the interface. -/
  | api (a : Api)

/-- A step of the server.  There is none after a fault, and none for a peer that is gone. -/
def serverStep (user : User) (depth : ℕ) (s : Server) : ServerOp × Env → Option Server
  | (op, env) =>
    if s.fault.isSome then none
    else
      match op with
      | .accept =>
        some { s with peers := s.peers ++ [⟨s.nextPeer, .idle, none⟩], nextPeer := s.nextPeer + 1 }
      | .packet p info =>
        if (s.peer? p).isNone then none else some (peerPacket user env depth p info s)
      | .closed p =>
        if (s.peer? p).isNone then none else some (peerDestroy (callback user env depth) p s)
      | .api a => some (runApi env (callback user env depth) a s)

/-- A new server on a bus descriptor. -/
def serverNew (api : BusDesc) : Server := { bus := { api := api } }

end Obus
