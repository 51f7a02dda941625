import Obus.Client
import Obus.Python.Protocol

/-!
# The client of the Python library

The state machine of `client.py`.  A packet that has been received is decoded on the bus of the
client and becomes a bus event, which is dispatched: objects are registered, events are committed,
objects are unregistered, in this order, with a callback for each of them.  A `KeyError` of the bus
is logged; any other exception leaves the loop that handles the packets, and with it the client ends
(`Except`).

The callbacks of the user are recorded (`Note`); they look at what they are given and do nothing
else.  The bus event is dispatched behind the callback for it, as it is when the callback does not
dispatch it itself.
-/

namespace Obus.Python

/-- The callbacks of the user. -/
inductive Note where
  | busEvent (type : BusEventType)
  | objectAdd (obj : ObjRef)
  | objectRemove (obj : ObjRef)
  | objectEvent (evt : ObusEvent)
  | objectCallAck (handle : ℕ) (ack : CallAck)

/-! ## The bus -/

namespace Bus

/-- `registerObject`: an object without a handle, or with one that is taken, is refused. -/
def registerObject (bus : Bus) (obj : ObusObject) : Except Exc Bus :=
  if obj.handle = 0 then .error .keyError
  else if (bus.findObject obj.handle).isSome then .error .keyError
  else .ok { bus with
    objects := bus.objects ++ [{ obj with number := bus.registered + 1 }]
    registered := bus.registered + 1 }

/-- `unregisterObject`. -/
def unregisterObject (bus : Bus) (obj : ObjRef) : Except Exc Bus :=
  if (bus.findObject obj.handle).isNone then .error .keyError
  else .ok { bus with objects := bus.objects.filter fun o => o.handle ≠ obj.handle }

/-- Merge a structure into the object with a number. -/
def mergeInto (bus : Bus) (number : ℕ) (struct : ObusStruct) : Except Exc Bus := do
  let objects ← bus.objects.mapM fun obj =>
    if obj.number = number then (fun merged => { obj with struct := merged }) <$> obj.struct.merge
      struct else .ok obj
  pure { bus with objects := objects }

end Bus

/-! ## The client -/

/-- `Client`.  The objects with callbacks are given by their uids; pending calls are in the order of
the dictionary, whose keys are their handles. -/
structure Client where
  name : List UInt8
  bus : Bus
  state : ClientState := .idle
  handleCall : ℕ := 1
  pendingCalls : List ObusCall := []
  objCbs : ℕ → Bool := fun _ => false
  notes : List Note := []

namespace Client

/-- A callback of the client. -/
def note (c : Client) (n : Note) : Client := { c with notes := c.notes ++ [n] }

/-- A callback for an object, if there is one for its descriptor. -/
def objectNote (c : Client) (desc : ObjectDesc) (n : Note) : Client :=
  if c.objCbs desc.uid then c.note n else c

/-! ## Calls -/

/-- The handle of the next call. -/
def nextHandle (c : Client) : ℕ := if 65536 ≤ c.handleCall + 1 then 1 else c.handleCall + 1

/-- `self.pendingCalls[call.handle] = call`. -/
def putCall (calls : List ObusCall) (call : ObusCall) : List ObusCall :=
  if calls.any fun c => c.handle = call.handle then calls.map fun c => if c.handle = call.handle
    then call else c
  else calls ++ [call]

/-- The end of `sendMethodCall`: the call is kept, unless it cannot be encoded. -/
def callEncoded (c : Client) (call : ObusCall) : Except Exc (List UInt8) →
    Except Exc (List UInt8) × Client
  | .ok packet =>
    (.ok packet, { c with handleCall := call.handle, pendingCalls := putCall c.pendingCalls call })
  | .error e =>
    (.error e, { c with
      handleCall := call.handle
      pendingCalls := (putCall c.pendingCalls call).filter fun p => p.handle ≠ call.handle })

/-- `sendMethodCall`: the packet, or the exception that is raised. -/
def sendMethodCall (fl : Floats) (c : Client) (call : ObusCall) :
    Except Exc (List UInt8) × Client :=
  c.callEncoded { call with handle := c.nextHandle }
    (txPacketCall fl { call with handle := c.nextHandle })

/-- `_removePendingCalls`: the calls of the object are aborted, in order. -/
def removePendingCalls (c : Client) (obj : ObjRef) : Client :=
  (c.pendingCalls.filter fun call => call.obj.number = obj.number).foldl
    (fun c call =>
      let c := c.objectNote call.obj.desc (.objectCallAck call.handle .aborted)
      { c with pendingCalls := c.pendingCalls.filter fun p => p.handle ≠ call.handle }) c

/-! ## Bus events -/

/-- A registration. -/
def dispatchAdd (c : Client) (obj : ObusObject) : Client :=
  match c.bus.registerObject obj with
  | .ok bus =>
    ({ c with bus := bus } : Client).objectNote obj.desc
      (.objectAdd ⟨obj.desc, obj.handle, c.bus.registered + 1⟩)
  | .error _ => c

/-- An event, with `commit`. -/
def dispatchEvent (c : Client) (evt : ObusEvent) : Except Exc Client := do
  let c := c.objectNote evt.obj.desc (.objectEvent evt)
  let bus ← c.bus.mergeInto evt.obj.number evt.struct
  pure { c with bus := bus }

/-- An unregistration: the callback comes first, whether the object is still there or not. -/
def dispatchRemove (c : Client) (obj : ObjRef) : Client :=
  let c := (c.objectNote obj.desc (.objectRemove obj)).removePendingCalls obj
  match c.bus.unregisterObject obj with
  | .ok bus => { c with bus := bus }
  | .error _ => c

/-- `dispatchBusEvent`, of a bus event that has not been dispatched. -/
def dispatchBusEvent (c : Client) (busEvt : ObusBusEvent) : Except Exc Client := do
  let c ← busEvt.eventList.foldlM dispatchEvent (busEvt.addList.foldl dispatchAdd c)
  pure (busEvt.removeList.foldl dispatchRemove c)

/-- `_notifyBusEvent`. -/
def notifyBusEvent (c : Client) (busEvt : ObusBusEvent) : Except Exc Client :=
  (c.note (.busEvent busEvt.type)).dispatchBusEvent busEvt

/-! ## Packets -/

/-- `_recvConnectionResponse`. -/
def recvConnectionResponse (c : Client) (status : ℕ) (objects : List ObusObject) :
    Except Exc Client :=
  if c.state ≠ .connecting then .ok c
  else if status ≠ 0 then ({ c with state := .refused } : Client).notifyBusEvent
    { type := .connectionRefused }
  else ({ c with state := .connected } : Client).notifyBusEvent
    { type := .connected, addList := objects }

/-- `_recvAck`. -/
def recvAck (c : Client) (handle : ℕ) (ack : CallAck) : Client :=
  match c.pendingCalls.find? fun call => call.handle = handle with
  | none => c
  | some call =>
    let c := c.objectNote call.obj.desc (.objectCallAck handle ack)
    { c with pendingCalls := c.pendingCalls.filter fun p => p.handle ≠ handle }

/-- `_rxPacketHandlers`. -/
def handlePacket (c : Client) : RxPacket → Except Exc Client
  | .connResp status objects => c.recvConnectionResponse status objects
  | .add obj => c.notifyBusEvent { type := .objectRegistered, addList := [obj] }
  | .remove obj => c.notifyBusEvent { type := .objectUnregistered, removeList := [obj] }
  | .busEvent busEvt => c.notifyBusEvent busEvt
  | .event evt => c.notifyBusEvent { type := .objectEvent, eventList := [evt] }
  | .ack handle ack => .ok (c.recvAck handle ack)
  | .connReq _ _ _ _ | .call _ => .ok c

/-- `recvPacket`. -/
def recvPacket (fl : Floats) (c : Client) (packetType : PacketType) (payload : List UInt8) :
    Except Exc Client := do
  match ← rxRawPacketDecode fl c.bus packetType payload with
  | some packet => c.handlePacket packet
  | none => pure c

end Client

end Obus.Python
