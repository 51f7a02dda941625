import Obus.Packet
import Obus.Python.Struct

/-!
# Packets of the Python library

The decoders and encoders of objects, events, calls and bus events, with `RxRawPacket.decode` and
the packets that a client sends, of `protocol.py`.  An object, an event or a call whose content is
refused with a `DecodeError` is skipped: the decoder sets the position behind the size that was read
before the content, and what follows is decoded from there.  Other exceptions go on to
`RxRawPacket.decode`, which takes those of `struct` as well and lets the rest pass.

An object of the bus is referred to by its handle and by the number of its registration (`ObjRef`);
`call.obj == obj` compares the numbers.  Logging is left out, and so are names and the fields of
descriptors that only logging reads.
-/

namespace Obus.Python

open Fallible Cursor

/-! ## Descriptors and objects -/

/-- `EventDesc`. -/
structure EventDesc where
  uid : ℕ
  structDesc : StructDesc

/-- `MethodDesc`. -/
structure MethodDesc where
  uid : ℕ
  structDesc : StructDesc

/-- `ObjectDesc`. -/
structure ObjectDesc where
  uid : ℕ
  structDesc : StructDesc
  eventsDesc : ℕ → Option EventDesc
  methodsDesc : ℕ → Option MethodDesc

/-- `BusEventDesc`. -/
structure BusEventDesc where
  uid : ℕ

/-- `BusDesc`. -/
structure BusDesc where
  name : List UInt8
  crc : ℕ
  objectsDesc : ℕ → Option ObjectDesc
  eventsDesc : ℕ → Option BusEventDesc

/-- A reference to an object of the bus. -/
structure ObjRef where
  desc : ObjectDesc
  handle : ℕ
  number : ℕ

/-- `ObusObject`; its number is given when it is registered. -/
structure ObusObject where
  desc : ObjectDesc
  handle : ℕ
  number : ℕ := 0
  struct : ObusStruct

/-- `uid`. -/
def ObusObject.uid (obj : ObusObject) : ℕ := obj.desc.uid

/-- The reference to an object. -/
def ObusObject.ref (obj : ObusObject) : ObjRef := ⟨obj.desc, obj.handle, obj.number⟩

/-- `ObusEvent`. -/
structure ObusEvent where
  desc : EventDesc
  obj : ObjRef
  struct : ObusStruct

/-- `CallAck`. -/
inductive CallAck where
  | invalid | acked | aborted | methodDisabled | methodNotSupported | invalidArguments | refused
  deriving DecidableEq

/-- `CallAck.fromInt`. -/
def CallAck.fromInt (val : ℕ) : Except Exc CallAck :=
  match [invalid, acked, aborted, methodDisabled, methodNotSupported, invalidArguments,
    refused][val]? with
  | some ack => .ok ack
  | none => .error .keyError

/-- `ObusCall`. -/
structure ObusCall where
  desc : MethodDesc
  obj : ObjRef
  struct : ObusStruct
  handle : ℕ := 0
  ack : CallAck := .invalid

/-- The types of bus events: those of the library, and those of the bus. -/
inductive BusEventType where
  | connected | disconnected | connectionRefused
  | objectRegistered | objectUnregistered | objectEvent
  | ofBus (desc : BusEventDesc)

/-- `ObusBusEvent`. -/
structure ObusBusEvent where
  type : BusEventType
  addList : List ObusObject := []
  removeList : List ObjRef := []
  eventList : List ObusEvent := []

/-- `Bus`: the objects in the order of the dictionary, whose keys are their handles, and how many
were registered. -/
structure Bus where
  desc : BusDesc
  objects : List ObusObject := []
  registered : ℕ := 0

/-- `findObject`. -/
def Bus.findObject (bus : Bus) (handle : ℕ) : Option ObusObject :=
  bus.objects.find? fun obj => obj.handle = handle

/-! ## Decoders -/

/-- A content behind its size.  A decoding error sets the position behind it. -/
def decodeContent {α : Type} (p : Py α) : Py (Option α) := do
  let sizeData ← readU32
  let posData ← tell
  fun b =>
    match p b with
    | .ok (a, b') => .ok (some a, b')
    | .error (.decodeError _) => .ok (none, { b with pos := posData + sizeData })
    | .error e => .error e

/-- A descriptor that must be there. -/
def descriptorFor {δ : Type} (uid : ℕ) : Option δ → Except Exc δ
  | none => .error (.decodeError (.descriptorNotFound uid))
  | some d => .ok d

/-- The object of a handle, whose uid is checked. -/
def findChecked (bus : Bus) (uid handle : ℕ) : Except Exc ObusObject :=
  match bus.findObject handle with
  | none => .error (.decodeError (.notRegistered uid handle))
  | some obj =>
    if obj.uid ≠ uid then .error (.decodeError (.badInternalUid uid handle obj.uid)) else .ok obj

section Decoders

variable (fl : Floats) (bus : Bus)

/-- `ObusObject.decode`. -/
def ObusObject.decode : Py (Option ObusObject) := do
  let uid ← readU16
  let handle ← readU16
  decodeContent do
    let objDesc ← lift (descriptorFor uid (bus.desc.objectsDesc uid))
    let struct ← ObusStruct.decode fl objDesc.structDesc
    pure { desc := objDesc, handle := handle, struct := struct }

/-- `ObusEvent.decode`. -/
def ObusEvent.decode : Py (Option ObusEvent) := do
  let uidObj ← readU16
  let handle ← readU16
  let uidEvt ← readU16
  decodeContent do
    let obj ← lift (findChecked bus uidObj handle)
    let evtDesc ← lift (descriptorFor uidEvt (obj.desc.eventsDesc uidEvt))
    let struct ← ObusStruct.decode fl evtDesc.structDesc
    pure ⟨evtDesc, obj.ref, struct⟩

/-- `ObusCall.decode`. -/
def ObusCall.decode : Py (Option ObusCall) := do
  let uidObj ← readU16
  let handleObj ← readU16
  let uidCall ← readU16
  let handleCall ← readU16
  decodeContent do
    let obj ← lift (findChecked bus uidObj handleObj)
    let mtdDesc ← lift (descriptorFor uidCall (obj.desc.methodsDesc uidCall))
    let struct ← ObusStruct.decode fl mtdDesc.structDesc
    pure { desc := mtdDesc, obj := obj.ref, struct := struct, handle := handleCall }

/-- Decode objects or events, and keep those that are not refused. -/
def decodeMany {α : Type} (p : Py (Option α)) (count : ℕ) : Py (List α) :=
  iter (fun l => p >>= fun a => pure (l ++ a.toList)) count []

/-- An object that is unregistered, if it is known. -/
def decodeRemove : Py (Option ObjRef) := do
  let uidObj ← readU16
  let handle ← readU16
  match findChecked bus uidObj handle with
  | .ok obj => pure (some obj.ref)
  | .error _ => pure none

/-- `ObusBusEvent.decode`. -/
def ObusBusEvent.decode : Py ObusBusEvent := do
  let uid ← readU16
  let busEvtDesc ← lift (descriptorFor uid (bus.desc.eventsDesc uid))
  let addCount ← readU32
  let removeCount ← readU32
  let eventCount ← readU32
  let addList ← decodeMany (ObusObject.decode fl bus) addCount
  let removeList ← decodeMany (decodeRemove bus) removeCount
  let eventList ← decodeMany (ObusEvent.decode fl bus) eventCount
  pure ⟨.ofBus busEvtDesc, addList, removeList, eventList⟩

/-! ## Packets that are received -/

/-- The packets that a client receives. -/
inductive RxPacket where
  | connReq (version : ℕ) (busName : Value) (crc : ℕ) (clientName : Value)
  | connResp (status : ℕ) (objects : List ObusObject)
  | add (obj : ObusObject)
  | remove (obj : ObjRef)
  | busEvent (busEvt : ObusBusEvent)
  | event (evt : ObusEvent)
  | call (call : ObusCall)
  | ack (handle : ℕ) (ack : CallAck)

/-- `RxPacketConnReq`. -/
def rxPacketConnReq : Py RxPacket := do
  let version ← readU8
  let busName ← readString
  let crc ← readU32
  let clientName ← readString
  pure (.connReq version busName crc clientName)

/-- `RxPacketConnResp`. -/
def rxPacketConnResp : Py RxPacket := do
  let status ← readU8
  if 2 ≤ status then fail (.decodeError (.invalidStatus status))
  else do
    let objCount ← readU32
    let objects ← decodeMany (ObusObject.decode fl bus) objCount
    pure (.connResp status objects)

/-- What has been decoded must be there. -/
def decoded {α : Type} (packet : α → RxPacket) : Option α → Py RxPacket
  | some a => pure (packet a)
  | none => fail (.decodeError .nothingDecoded)

/-- `RxPacketAdd`. -/
def rxPacketAdd : Py RxPacket := ObusObject.decode fl bus >>= decoded .add

/-- `RxPacketRemove`. -/
def rxPacketRemove : Py RxPacket := do
  let uid ← readU16
  let handle ← readU16
  let obj ← lift (findChecked bus uid handle)
  pure (.remove obj.ref)

/-- `RxPacketBusEvent`. -/
def rxPacketBusEvent : Py RxPacket := RxPacket.busEvent <$> ObusBusEvent.decode fl bus

/-- `RxPacketEvent`. -/
def rxPacketEvent : Py RxPacket := ObusEvent.decode fl bus >>= decoded .event

/-- `RxPacketCall`. -/
def rxPacketCall : Py RxPacket := ObusCall.decode fl bus >>= decoded .call

/-- `RxPacketAck`: the `KeyError` becomes a decoding error. -/
def rxPacketAck : Py RxPacket := do
  let handle ← readU16
  let ackVal ← readU8
  match CallAck.fromInt ackVal with
  | .ok ack => pure (.ack handle ack)
  | .error _ => fail (.decodeError (.invalidCallAck ackVal))

/-- `_rxPacketClasses`. -/
def rxPacketClass : PacketType → Py RxPacket
  | .conreq => rxPacketConnReq
  | .conresp => rxPacketConnResp fl bus
  | .add => rxPacketAdd fl bus
  | .remove => rxPacketRemove bus
  | .busEvent => rxPacketBusEvent fl bus
  | .event => rxPacketEvent fl bus
  | .call => rxPacketCall fl bus
  | .ack => rxPacketAck

/-- `RxRawPacket.decode`, of a payload of this type; nothing if the payload is refused. -/
def rxRawPacketDecode (packetType : PacketType) (payload : List UInt8) :
    Except Exc (Option RxPacket) :=
  match rxPacketClass fl bus packetType ⟨payload, 0⟩ with
  | .ok (packet, _) => .ok (some packet)
  | .error (.decodeError _) => .ok none
  | .error .structError => .ok none
  | .error e => .error e

end Decoders

/-! ## Packets that are sent -/

section Encoders

variable (fl : Floats)

/-- `skip`. -/
def skip (count : ℕ) : Py Unit := do
  let pos ← tell
  seek (pos + count)

/-- `finalizeHeader`: the header is written in front of what is there. -/
def finalizeHeader (packetType : PacketType) : Py Unit := do
  let size ← length
  seek 0
  writeU32 0x6f627573
  writeU32 size
  writeU8 packetType.code.toNat

/-- `TxPacket`: the bytes of a packet with this body. -/
def txPacket (packetType : PacketType) (body : Py Unit) : Except Exc (List UInt8) :=
  match (do skip 9; body; finalizeHeader packetType : Py Unit) ⟨[], 0⟩ with
  | .ok (_, b) => .ok b.data
  | .error e => .error e

/-- `TxPacketConnReq`. -/
def txPacketConnReq (clientName busName : List UInt8) (crc : ℕ) : Except Exc (List UInt8) :=
  txPacket .conreq do
    writeU8 2
    writeString (.str busName)
    writeU32 crc
    writeString (.str clientName)

/-- `ObusCall.encode`. -/
def ObusCall.encode (call : ObusCall) : Py Unit := do
  writeU16 call.obj.desc.uid
  writeU16 call.obj.handle
  writeU16 call.desc.uid
  writeU16 call.handle
  let sizeMarker ← prepareSizeMarker
  call.struct.encode fl
  writeSizeMarker sizeMarker

/-- `TxPacketCall`. -/
def txPacketCall (call : ObusCall) : Except Exc (List UInt8) := txPacket .call (call.encode fl)

end Encoders

end Obus.Python
