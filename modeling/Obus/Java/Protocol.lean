import Obus.Java.Struct

/-!
# The decoding of payloads in the Java library

`RxRawPacket.decode` of `Protocol.java`, with the decoders of objects, events, calls and bus events.
An object, an event or a call whose content is refused is skipped: the decoder sets the position
behind the size that was read before the content, whatever that is, and what follows is decoded from
there.

Logging is left out, and so are the fields of descriptors that no decoder reads.
-/

namespace Obus.Java

open Fallible

/-! ## Descriptors and objects -/

/-- `MethodDesc`. -/
structure MethodDesc where
  uid : BitVec 32
  structDesc : StructDesc

/-- `EventDesc`. -/
structure EventDesc where
  uid : BitVec 32
  structDesc : StructDesc

/-- `ObjectDesc`. -/
structure ObjectDesc where
  uid : BitVec 32
  structDesc : StructDesc
  eventsDesc : BitVec 32 → Option EventDesc
  methodsDesc : BitVec 32 → Option MethodDesc

/-- `BusEventDesc`. -/
structure BusEventDesc where
  uid : BitVec 32

/-- `BusDesc`. -/
structure BusDesc where
  objectsDesc : BitVec 32 → Option ObjectDesc
  eventsDesc : BitVec 32 → Option BusEventDesc

/-- `ObusObject`. -/
structure ObusObject where
  desc : ObjectDesc
  handle : BitVec 32
  struct : ObusStruct

/-- `uid`. -/
def ObusObject.uid (obj : ObusObject) : BitVec 32 := obj.desc.uid

/-- `ObusEvent`. -/
structure ObusEvent where
  desc : EventDesc
  obj : ObusObject
  struct : ObusStruct

/-- `ObusCall`. -/
structure ObusCall where
  desc : MethodDesc
  obj : ObusObject
  struct : ObusStruct
  handle : BitVec 32

/-- `ObusBusEvent`. -/
structure ObusBusEvent where
  desc : BusEventDesc
  registerList : List ObusObject
  unregisterList : List ObusObject
  eventList : List ObusEvent

/-- `Bus`, with the objects that are registered. -/
structure Bus where
  desc : BusDesc
  findObject : BitVec 32 → Option ObusObject

/-! ## Decoders with a recovery -/

/-- The position behind a content, as an `int`. -/
def behind (posData : ℕ) (sizeData : BitVec 32) : ℤ :=
  ((posData : ℤ) + sizeData.toInt).bmod (2 ^ 32)

/-- The `try` around a content: a decoding error makes the decoder go on behind it. -/
def recovering {α : Type} (posData : ℕ) (sizeData : BitVec 32) (p : Read α) :
    Read (Option α) := fun b =>
  match p b with
  | .ok (a, b') => .ok (some a, b')
  | .error (.decodeError _) => ((fun _ => none) <$> setPos (behind posData sizeData)) b
  | .error e => .error e

/-- A content behind its size, with the descriptor of its structure and what is made of the
structure. -/
def decodeContent {α δ : Type} (cs : Charset) (desc : Except Exc δ) (structDesc : δ → StructDesc)
    (k : δ → ObusStruct → α) : Read (Option α) := do
  let sizeData ← readU32
  let posData ← getPos
  recovering posData sizeData (do
    let d ← eval desc
    let struct ← ObusStruct.decode cs (structDesc d)
    pure (k d struct))

/-- A descriptor, or the error that there is none. -/
def descriptorFor {δ : Type} (uid : BitVec 32) : Option δ → Except Exc δ
  | none => .error (.decodeError (.descriptorNotFound uid))
  | some d => .ok d

/-- The object of a handle, whose uid is checked. -/
def findChecked (bus : Bus) (uid handle : BitVec 32) : Except Exc ObusObject :=
  match bus.findObject handle with
  | none => .error (.decodeError (.notRegistered uid handle))
  | some obj =>
    if obj.uid ≠ uid then .error (.decodeError (.badInternalUid uid handle obj.uid)) else .ok obj

/-- `ObusObject.decode`. -/
def ObusObject.decode (cs : Charset) (bus : Bus) : Read (Option ObusObject) := do
  let uid ← readU16
  let handle ← readU16
  decodeContent cs (descriptorFor uid (bus.desc.objectsDesc uid)) ObjectDesc.structDesc
    fun d struct => ⟨d, handle, struct⟩

/-- The object and the descriptor of an event. -/
def eventDesc (bus : Bus) (uidObj handle uidEvt : BitVec 32) :
    Except Exc (ObusObject × EventDesc) := do
  let obj ← findChecked bus uidObj handle
  let d ← descriptorFor uidEvt (obj.desc.eventsDesc uidEvt)
  pure (obj, d)

/-- `ObusEvent.decode`. -/
def ObusEvent.decode (cs : Charset) (bus : Bus) : Read (Option ObusEvent) := do
  let uidObj ← readU16
  let handle ← readU16
  let uidEvt ← readU16
  decodeContent cs (eventDesc bus uidObj handle uidEvt) (fun d => d.2.structDesc) fun d struct =>
    ⟨d.2, d.1, struct⟩

/-- The object and the descriptor of a call. -/
def callDesc (bus : Bus) (uidObj handleObj uidCall : BitVec 32) :
    Except Exc (ObusObject × MethodDesc) := do
  let obj ← findChecked bus uidObj handleObj
  let d ← descriptorFor uidCall (obj.desc.methodsDesc uidCall)
  pure (obj, d)

/-- `ObusCall.decode`. -/
def ObusCall.decode (cs : Charset) (bus : Bus) : Read (Option ObusCall) := do
  let uidObj ← readU16
  let handleObj ← readU16
  let uidCall ← readU16
  let handleCall ← readU16
  decodeContent cs (callDesc bus uidObj handleObj uidCall) (fun d => d.2.structDesc)
    fun d struct => ⟨d.2, d.1, struct, handleCall⟩

/-! ## Bus events -/

/-- A loop that adds what is decoded to a list; its number may be negative. -/
def decodeList {α : Type} (p : Read (Option α)) (count : BitVec 32) : Read (List α) :=
  iter (fun l => do
    let a ← p
    pure (l ++ a.toList)) count.toInt.toNat []

/-- An unregistration, of an object that is there. -/
def decodeUnregistration (bus : Bus) : Read (Option ObusObject) := do
  let uidObj ← readU16
  let handle ← readU16
  pure (match findChecked bus uidObj handle with
    | .ok obj => some obj
    | .error _ => none)

/-- `ObusBusEvent.decode`.  The capacities of the lists may be negative, then nothing is reserved.
-/
def ObusBusEvent.decode (cs : Charset) (bus : Bus) : Read ObusBusEvent := do
  let uid ← readU16
  let desc ← eval (descriptorFor uid (bus.desc.eventsDesc uid))
  let regCount ← readU32
  let unregCount ← readU32
  let evtCount ← readU32
  let registerList ← decodeList (ObusObject.decode cs bus) regCount
  let unregisterList ← decodeList (decodeUnregistration bus) unregCount
  let eventList ← decodeList (ObusEvent.decode cs bus) evtCount
  pure ⟨desc, registerList, unregisterList, eventList⟩

/-! ## Packets -/

/-- `PacketType`. -/
inductive PacketType where
  | conreq | conresp | add | remove | busEvent | event | call | ack

/-- `ConnRespStatus`. -/
inductive ConnRespStatus where
  | accepted | refused

/-- `ConnRespStatus.fromInt`. -/
def ConnRespStatus.fromInt (val : BitVec 32) : Except Exc ConnRespStatus :=
  if val = 0 then .ok .accepted
  else if val = 1 then .ok .refused
  else .error (.decodeError (.invalidConnectionResponse val.toInt))

/-- `MethodCallAck`. -/
inductive MethodCallAck where
  | invalid | acked | aborted | methodDisabled | methodNotSupported | invalidArguments | refused

/-- The switch over the status of a call. -/
def ackOf (val : BitVec 32) : Except Exc MethodCallAck :=
  match val.toNat with
  | 0 => .ok .invalid
  | 1 => .ok .acked
  | 2 => .ok .aborted
  | 3 => .ok .methodDisabled
  | 4 => .ok .methodNotSupported
  | 5 => .ok .invalidArguments
  | 6 => .ok .refused
  | _ => .error (.decodeError (.invalidCallAck val.toInt))

/-- The packets that are decoded. -/
inductive RxPacket where
  | connReq (version : BitVec 32) (busName : Option JString) (crc : BitVec 32)
    (clientName : Option JString)
  | connResp (status : ConnRespStatus) (objects : List ObusObject)
  | add (obj : ObusObject)
  | remove (obj : ObusObject)
  | busEvent (busEvt : ObusBusEvent)
  | event (evt : ObusEvent)
  | call (call : ObusCall)
  | ack (handle : BitVec 32) (ack : MethodCallAck)

/-- The constructor of `RxPacketConnReq`. -/
def rxPacketConnReq (cs : Charset) : Read RxPacket := do
  let version ← readU8
  let busName ← readString cs
  let crc ← readU32
  let clientName ← readString cs
  pure (.connReq version busName crc clientName)

/-- The allocation of a list with a capacity. -/
def newArrayList (capacity : BitVec 32) : Read Unit :=
  if capacity.toInt < 0 then fail .illegalArgument else pure ()

/-- The constructor of `RxPacketConnResp`. -/
def rxPacketConnResp (cs : Charset) (bus : Bus) : Read RxPacket := do
  let val ← readU8
  let status ← eval (ConnRespStatus.fromInt val)
  let objCount ← readU32
  newArrayList objCount
  let objects ← decodeList (ObusObject.decode cs bus) objCount
  pure (.connResp status objects)

/-- What has been decoded, or the error that nothing has. -/
def decoded {α : Type} (a : Option α) : Except Exc α :=
  match a with
  | none => .error (.decodeError .nothingDecoded)
  | some a => .ok a

/-- The constructor of `RxPacketAdd`. -/
def rxPacketAdd (cs : Charset) (bus : Bus) : Read RxPacket := do
  let obj ← ObusObject.decode cs bus
  RxPacket.add <$> eval (decoded obj)

/-- The constructor of `RxPacketRemove`. -/
def rxPacketRemove (bus : Bus) : Read RxPacket := do
  let uid ← readU16
  let handle ← readU16
  RxPacket.remove <$> eval (findChecked bus uid handle)

/-- The constructor of `RxPacketBusEvent`. -/
def rxPacketBusEvent (cs : Charset) (bus : Bus) : Read RxPacket :=
  RxPacket.busEvent <$> ObusBusEvent.decode cs bus

/-- The constructor of `RxPacketEvent`. -/
def rxPacketEvent (cs : Charset) (bus : Bus) : Read RxPacket := do
  let evt ← ObusEvent.decode cs bus
  RxPacket.event <$> eval (decoded evt)

/-- The constructor of `RxPacketCall`. -/
def rxPacketCall (cs : Charset) (bus : Bus) : Read RxPacket := do
  let call ← ObusCall.decode cs bus
  RxPacket.call <$> eval (decoded call)

/-- The constructor of `RxPacketAck`. -/
def rxPacketAck : Read RxPacket := do
  let handle ← readU16
  let ackValue ← readU8
  RxPacket.ack handle <$> eval (ackOf ackValue)

/-- The switch over the type of the packet. -/
def rxPacket (cs : Charset) (bus : Bus) : PacketType → Read RxPacket
  | .conreq => rxPacketConnReq cs
  | .conresp => rxPacketConnResp cs bus
  | .add => rxPacketAdd cs bus
  | .remove => rxPacketRemove bus
  | .busEvent => rxPacketBusEvent cs bus
  | .event => rxPacketEvent cs bus
  | .call => rxPacketCall cs bus
  | .ack => rxPacketAck

/-- `RxRawPacket.decode`: a packet, or `null` after one of the two exceptions that are caught, or
another exception. -/
def RxRawPacket.decode (cs : Charset) (bus : Bus) (packetType : PacketType) (payload : List UInt8) :
    Except Exc (Option RxPacket) :=
  match rxPacket cs bus packetType ⟨payload, 0⟩ with
  | .ok (packet, _) => .ok (some packet)
  | .error (.decodeError _) => .ok none
  | .error .bufferUnderflow => .ok none
  | .error e => .error e

end Obus.Java
