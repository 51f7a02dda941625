import Obus.Server

/-!
# The client

The functions of `obus_client.c`: what a client does with the packets that it receives, the calls
that it makes and their completion, and what is left after a disconnection.

A call is known by a number that is never used again; the pending calls are kept in the list `calls`
and in the hash table `callsHash`.  The state carries what `obus_client_call` returned for each call
and which status callbacks were invoked.  Callbacks of the user of a client do not call the client
again; the early commit of a bus event or an event by such a callback is left out, because a second
commit does nothing.
-/

namespace Obus

/-- `enum obus_client_state`. -/
inductive ClientState where
  | idle | connecting | connected | disconnecting | disconnected | refused
  deriving DecidableEq, Repr

/-- `struct obus_call` of a client.  The object is known by its handle. -/
structure ClientCall where
  id : ℕ
  obj : UInt16
  handle : UInt16
  deriving DecidableEq, Repr

/-- `struct obus_client`. -/
structure Client where
  bus : Bus
  state : ClientState := .idle
  /-- `bus.calls`. -/
  calls : List ClientCall := []
  /-- `bus.calls_hash`: the calls by their handles. -/
  callsHash : List (UInt16 × ClientCall) := []
  /-- The number of the next call. -/
  nextCall : ℕ := 0
  /-- Whether `obus_client_call` returned 0, for each call that was made. -/
  returned : List (ℕ × Bool) := []
  /-- The invocations of status callbacks. -/
  notified : List (ℕ × UInt8) := []
  /-- The packets that were written or queued. -/
  sent : List PacketInfo := []
  /-- An absent or destroyed object was used. -/
  fault : Bool := false

namespace Client

/-! ## The pending calls -/

/-- `obus_bus_register_call`, for a call without handle: draw a handle that is not used, and insert.
-/
def registerCall (draws : List UInt16) (call : ClientCall) (c : Client) :
    Option (ClientCall × Client) :=
  match randHandle (fun h => c.callsHash.any (·.1 = h)) draws with
  | none => none
  | some h =>
    let call := { call with handle := h }
    some (call, { c with calls := c.calls ++ [call], callsHash := c.callsHash ++ [(h, call)] })

/-- `obus_bus_unregister_call`: nothing is unlinked when the hash table does not have the handle. -/
def unregisterCall (call : ClientCall) (c : Client) : Client :=
  if c.callsHash.any (·.1 = call.handle) then
    { c with
      callsHash := c.callsHash.filter (·.1 ≠ call.handle)
      calls := c.calls.filter (·.id ≠ call.id) }
  else c

/-- `obus_bus_call`. -/
def call? (handle : UInt16) (c : Client) : Option ClientCall :=
  if handle = 0 then none else (c.callsHash.find? (·.1 = handle)).map Prod.snd

/-- `obus_call_ack_notify`, for a call with a status callback. -/
def callAckNotify (call : ClientCall) (status : UInt8) (c : Client) : Client :=
  { c with notified := c.notified ++ [(call.id, status)] }

/-- A call is unregistered, its status callback is invoked, and it is destroyed. -/
def complete (call : ClientCall) (status : UInt8) (c : Client) : Client :=
  callAckNotify call status (unregisterCall call c)

/-- `obus_bus_abort_call`: abort the calls on an object, or all of them. -/
def abortCall (obj : Option UInt16) (c : Client) : Client :=
  (c.calls.filter fun call => obj.all (call.obj = ·)).foldl
    (fun c call => complete call CallStatus.aborted.code c) c

/-- `obus_client_ack`. -/
def ack (a : Ack) (c : Client) : Client :=
  match c.call? a.handle with
  | none => c
  | some call => complete call a.status c

/-- The arguments of `obus_client_call`, and what it cannot decide: whether the call and the buffer
can be allocated, which handles are drawn, and whether the packet is encoded and written or queued.
-/
structure CallReq where
  obj : UInt16
  desc : MethodDesc
  args : Option Struct
  alloc : Bool
  draws : List UInt16
  buffer : Bool
  encoded : Bool
  written : Bool

/-- Give back the result of a call. -/
def giveBack (ok : Bool) (c : Client) : Client :=
  { c with nextCall := c.nextCall + 1, returned := c.returned ++ [(c.nextCall, ok)] }

/-- `obus_client_call`. -/
def call (req : CallReq) (c : Client) : Client :=
  if c.state ≠ .connected then c.giveBack false
  else
    match c.bus.object? req.obj with
    | none => c.giveBack false
    | some obj =>
      if !obj.isRegistered then c.giveBack false
      else if objectGetMethodState obj req.desc.uid ≠ .enabled then c.giveBack false
      else if !req.alloc then c.giveBack false
      else
        match c.registerCall req.draws ⟨c.nextCall, req.obj, 0⟩ with
        | none => c.giveBack false
        | some (call, c') =>
          if req.buffer && req.encoded && req.written then
            { c'.giveBack true with
              sent := c'.sent ++ [.call ⟨obj.ref, req.desc, call.handle, req.args⟩] }
          else (c'.unregisterCall call).giveBack false

/-! ## The objects -/

/-- `obus_client_event`: the event is committed with all fields that it brings. -/
def event (e : Event) (c : Client) : Client :=
  { c with bus := eventCommit (eventSanitize false e) c.bus }

/-- `obus_client_add_object`.  An object that cannot be added is destroyed. -/
def addObject (obj : Object) (c : Client) : Client :=
  match busAddObject [] obj c.bus with
  | .error _ => c
  | .ok (_, bus) => { c with bus := busRegisterObject obj.handle bus }

/-- `obus_client_remove_object`.  Removing an object that is not there uses absent or freed memory.
-/
def removeObject (obj : Option ObjectRef) (c : Client) : Client :=
  let c := c.abortCall (obj.map ObjectRef.handle)
  match obj with
  | none => { c with fault := true }
  | some o =>
    if (c.bus.object? o.handle).isNone then { c with fault := true }
    else { c with bus := busRemoveObject o.handle (busUnregisterObject o.handle c.bus) }

/-- `obus_client_commit_bus_event`: objects are added, then events are committed, then objects
removed. -/
def commitBusEvent (e : BusEvent) (c : Client) : Client :=
  let c := e.addObjs.foldl (fun c o => c.addObject o) c
  let c := e.objEvents.foldl (fun c v => c.event v) c
  e.removeObjs.foldl (fun c o => c.removeObject (some o)) c

/-! ## The connection -/

/-- `obus_client_connection_response`: the objects are added by a bus event of their own. -/
def connectionResponse (status : ConrespStatus) (objects : List Object) (c : Client) : Client :=
  if c.state ≠ .connecting then c
  else if status ≠ .accepted then { c with state := .refused }
  else objects.foldl (fun c o => c.addObject o) { c with state := .connected }

/-- `obus_client_disconnect_bus`: a bus event of its own removes all registered objects. -/
def disconnectBus (c : Client) : Client :=
  c.bus.registered.foldl (fun c o => c.removeObject (some o.ref)) c

/-- `obus_client_disconnect`. -/
def disconnect (reconnect : Bool) (c : Client) : Client :=
  let c := if c.state = .connected then { c with state := .disconnecting }.disconnectBus else c
  { c with state := if reconnect then .connecting else .disconnected }

/-- `obus_client_start`. -/
def start (c : Client) : Client := if c.state ≠ .idle then c else { c with state := .connecting }

/-- The switch of `obus_client_io_read_event`. -/
def packet : PacketInfo → Client → Client
  | .conresp status objects, c => c.connectionResponse status objects
  | .add obj, c => c.addObject obj
  | .remove obj, c => c.removeObject obj
  | .event e, c => c.event e
  | .busEvent e, c => c.commitBusEvent e
  | .ack a, c => c.ack a
  | .conreq _, c | .call _, c => c

end Client

/-- What happens to a client. -/
inductive ClientOp where
  | start
  /-- The user makes a call, outside of callbacks. -/
  | call (req : Client.CallReq)
  /-- A packet of the server is read. -/
  | packet (info : PacketInfo)
  /-- The connection is lost, or the client is destroyed. -/
  | disconnect (reconnect : Bool)

/-- A step of a client.  There is none after a fault. -/
def clientStep (c : Client) (op : ClientOp) : Option Client :=
  if c.fault then none
  else
    some (match op with
      | .start => c.start
      | .call req => c.call req
      | .packet info => c.packet info
      | .disconnect reconnect => c.disconnect reconnect)

/-- A new client on a bus descriptor. -/
def clientNew (api : BusDesc) : Client := { bus := { api := api } }

end Obus
