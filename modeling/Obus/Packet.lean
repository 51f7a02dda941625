import Obus.Bus

/-!
# Packets

The encoders and decoders of `obus_object.c`, `obus_event.c`, `obus_call.c`, `obus_bus_event.c` and
`obus_packet.c`.  A packet is a header (magic, total size, type) and a body; the decoder of a body
is chosen by the type of the header and works on a bus, where it looks up objects and descriptors.

Objects, events and calls carry a data size in front of their struct.  Their encoders share
`encodeSized`, which writes that size back into reserved room, and their decoders share
`decodeSized`, which leaves the read position behind the announced data whatever became of it.
-/

namespace Obus

open Prog

/-- `OBUS_PROTOCOL_VERSION`. -/
def protocolVersion : UInt8 := 2

/-- `obus_magic`: the bytes `obus`. -/
def obusMagic : UInt32 := 0x6f627573

/-- `OBUS_PKT_HDR_SIZE`. -/
abbrev pktHdrSize : ℕ := 9

/-- `enum obus_packet_type`. -/
inductive PacketType where
  | conreq | conresp | add | remove | busEvent | event | call | ack
  deriving DecidableEq, Repr

/-- The number of a packet type. -/
def PacketType.code : PacketType → UInt8
  | conreq => 0 | conresp => 1 | add => 2 | remove => 3 | busEvent => 4 | event => 5 | call => 6
  | ack => 7

/-- The packet type with a given number; there are `OBUS_PKT_COUNT` of them. -/
def PacketType.ofCode? (c : UInt8) : Option PacketType :=
  [conreq, conresp, add, remove, busEvent, event, call, ack][c.toNat]?

lemma PacketType.ofCode?_code (t : PacketType) : ofCode? t.code = some t := by
  cases t <;> rfl

lemma PacketType.code_of_ofCode? {c : UInt8} {t : PacketType} (h : ofCode? c = some t) :
    t.code = c := by
  have hlt : c.toNat < 8 := (List.getElem?_eq_some_iff.mp h).1
  obtain ⟨n, hn⟩ : ∃ n, c.toNat = n := ⟨_, rfl⟩
  have hc : c = UInt8.ofNat n := by rw [← hn, UInt8.ofNat_toNat]
  rw [hn] at hlt
  subst hc
  interval_cases n <;> cases h <;> rfl

/-- `enum obus_conresp_status`. -/
inductive ConrespStatus where
  | accepted | refused | statusCount
  deriving DecidableEq, Repr

/-- The number of a connection status. -/
def ConrespStatus.code : ConrespStatus → UInt8
  | accepted => 0 | refused => 1 | statusCount => 2

/-- The connection status with a given number. -/
def ConrespStatus.ofCode? (c : UInt8) : Option ConrespStatus :=
  [accepted, refused, statusCount][c.toNat]?

/-- `struct obus_packet_conreq`. -/
structure Conreq where
  version : UInt8
  bus : Option CString
  crc : UInt32
  client : Option CString
  deriving DecidableEq

/-- `struct obus_packet_info`: the decoded content of a packet. -/
inductive PacketInfo where
  | conreq (req : Conreq)
  | conresp (status : ConrespStatus) (objects : List Object)
  | add (obj : Object)
  /-- The object is absent when the handle is unknown. -/
  | remove (obj : Option ObjectRef)
  | busEvent (event : BusEvent)
  | event (event : Event)
  | call (call : Call)
  | ack (ack : Ack)
  deriving DecidableEq

/-- The type of a packet. -/
def PacketInfo.type : PacketInfo → PacketType
  | .conreq _ => .conreq
  | .conresp _ _ => .conresp
  | .add _ => .add
  | .remove _ => .remove
  | .busEvent _ => .busEvent
  | .event _ => .event
  | .call _ => .call
  | .ack _ => .ack

/-! ## Encoding -/

/-- The common shape of the encoders of objects, events and calls: reserve a 32-bit word, encode,
and write the size of what was encoded into the word.  The outcome of that last write is ignored. -/
def encodeSized (p : Enc Unit) : Enc Unit := do
  let offset ← bufferLength
  reserve 4
  p
  let length ← bufferLength
  let _ ← (writeU32 (UInt32.ofNat (length - (offset + 4))) offset).attempt
  pure ()

/-- `obus_object_add_encode`. -/
def objectAddEncode (obj : Object) : Enc Unit := do
  appendU16 obj.desc.uid
  appendU16 obj.handle
  encodeSized (structEncode obj.info)

/-- `obus_object_remove_encode`. -/
def objectRemoveEncode (obj : ObjectRef) : Enc Unit := do
  appendU16 obj.desc.uid
  appendU16 obj.handle

/-- `obus_event_encode`. -/
def eventEncode (event : Event) : Enc Unit := do
  appendU16 event.obj.desc.uid
  appendU16 event.obj.handle
  appendU16 event.desc.uid
  encodeSized (structEncode event.info)

/-- `obus_call_encode`. -/
def callEncode (call : Call) : Enc Unit := do
  appendU16 call.obj.desc.uid
  appendU16 call.obj.handle
  appendU16 call.desc.uid
  appendU16 call.handle
  encodeSized (match call.args with
    | some args => structEncode args
    | none => pure ())

/-- `obus_bus_event_encode`. -/
def busEventEncode (event : BusEvent) : Enc Unit := do
  appendU16 event.desc.uid
  appendU32 (UInt32.ofNat event.addObjs.length)
  appendU32 (UInt32.ofNat event.removeObjs.length)
  appendU32 (UInt32.ofNat event.objEvents.length)
  each objectAddEncode event.addObjs
  each objectRemoveEncode event.removeObjs
  each eventEncode event.objEvents

/-- `obus_packet_encode_header`. -/
def packetEncodeHeader (type : UInt8) : Enc Unit := do
  writeU32 obusMagic 0
  let length ← bufferLength
  writeU32 (UInt32.ofNat length) 4
  writeU8 type 8

/-- The common shape of the packet encoders: clear the buffer, reserve room for the header, encode
the body, write the header. -/
def packetEncode (type : PacketType) (body : Enc Unit) : Enc Unit := do
  clear
  reserve pktHdrSize
  body
  packetEncodeHeader type.code

/-- `obus_packet_conreq_encode`. -/
def packetConreqEncode (client bus : Option CString) (crc : UInt32) : Enc Unit :=
  packetEncode .conreq do
    appendU8 protocolVersion
    appendString bus
    appendU32 crc
    appendString client

/-- `obus_packet_conresp_encode`. -/
def packetConrespEncode (status : ConrespStatus) (objects : List Object) : Enc Unit :=
  packetEncode .conresp do
    appendU8 status.code
    appendU32 (UInt32.ofNat objects.length)
    -- the source walks the list only when the 32-bit count is not zero
    if 0 < UInt32.ofNat objects.length then each objectAddEncode objects

/-- `obus_packet_add_encode`. -/
def packetAddEncode (obj : Object) : Enc Unit := packetEncode .add (objectAddEncode obj)

/-- `obus_packet_remove_encode`. -/
def packetRemoveEncode (obj : ObjectRef) : Enc Unit := packetEncode .remove (objectRemoveEncode obj)

/-- `obus_packet_event_encode`. -/
def packetEventEncode (event : Event) : Enc Unit := packetEncode .event (eventEncode event)

/-- `obus_packet_bus_event_encode`. -/
def packetBusEventEncode (event : BusEvent) : Enc Unit :=
  packetEncode .busEvent (busEventEncode event)

/-- `obus_packet_call_encode`. -/
def packetCallEncode (call : Call) : Enc Unit := packetEncode .call (callEncode call)

/-- `obus_packet_ack_encode`. -/
def packetAckEncode (ack : Ack) : Enc Unit :=
  packetEncode .ack do
    appendU16 ack.handle
    appendU8 ack.status

/-- The encoder of each kind of packet.  A connection request has no encoder for another version
than the own, and the removal of no object is refused. -/
def PacketInfo.encode : PacketInfo → Enc Unit
  | .conreq req => packetConreqEncode req.client req.bus req.crc
  | .conresp status objects => packetConrespEncode status objects
  | .add obj => packetAddEncode obj
  | .remove (some obj) => packetRemoveEncode obj
  | .remove none => .fail .einval
  | .busEvent e => packetBusEventEncode e
  | .event e => packetEventEncode e
  | .call c => packetCallEncode c
  | .ack a => packetAckEncode a

/-! ## Decoding -/

/-- The common tail of the decoders of objects, events and calls.  `check` is what the checks on the
head found, absent when one failed, and `body` decodes the data.  Data that could not be decoded is
eaten; a decoded struct whose end is not the announced end moves the read position there. -/
def decodeSized {α γ : Type} (size : UInt32) (check : Option γ) (body : γ → Dec α) :
    Dec (Option α) := do
  let offset ← getReadPosition
  let endPos := offset + size.toNat
  match check with
  | none =>
    let _ ← (setReadPosition endPos).attempt
    pure none
  | some c =>
    match ← (body c).attempt with
    | .error _ =>
      let _ ← (setReadPosition endPos).attempt
      pure none
    | .ok a =>
      let pos ← getReadPosition
      if pos ≠ endPos then
        let _ ← (setReadPosition endPos).attempt
      pure (some a)

/-- The checks of `obus_object_add_decode`. -/
def objectAddCheck (api : BusDesc) (uid handle : UInt16) : Option ObjectDesc :=
  if uid = 0 ∨ handle = 0 then none else api.object? uid

/-- `obus_object_add_decode`. -/
def objectAddDecode (api : BusDesc) : Dec (Option Object) := do
  match ← (do let uid ← readU16; let handle ← readU16; let size ← readU32
              pure (uid, handle, size) : Dec _).attempt with
  | .error _ => pure none
  | .ok (uid, handle, size) =>
    decodeSized size (objectAddCheck api uid handle) fun desc => do
      let info ← structDecode (structSetHasFields (structInit desc.infoDesc))
      pure ⟨desc, handle, false, info⟩

/-- `obus_object_remove_decode`. -/
def objectRemoveDecode (bus : Bus) : Dec (Option ObjectRef) := do
  match ← (do let uid ← readU16; let handle ← readU16; pure (uid, handle) : Dec _).attempt with
  | .error _ => pure none
  | .ok (_, handle) => pure ((bus.object? handle).map Object.ref)

/-- The checks of `obus_event_decode`. -/
def eventCheck (bus : Bus) (uid handle eventUid : UInt16) : Option (ObjectRef × EventDesc) :=
  if uid = 0 ∨ handle = 0 ∨ eventUid = 0 then none
  else
    match bus.object? handle with
    | none => none
    | some obj =>
      if obj.desc.uid ≠ uid then none
      else (bus.api.event? obj.desc.uid eventUid).map fun desc => (obj.ref, desc)

/-- `obus_event_decode`. -/
def eventDecode (bus : Bus) : Dec (Option Event) := do
  match ← (do let uid ← readU16; let handle ← readU16; let eventUid ← readU16; let size ← readU32
              pure (uid, handle, eventUid, size) : Dec _).attempt with
  | .error _ => pure none
  | .ok (uid, handle, eventUid, size) =>
    decodeSized size (eventCheck bus uid handle eventUid) fun (obj, desc) => do
      let info ← structDecode (structInit obj.desc.infoDesc)
      pure ⟨obj, desc, info⟩

/-- The checks of `obus_call_decode`. -/
def callCheck (bus : Bus) (uid handle mtdUid : UInt16) : Option (ObjectRef × MethodDesc) :=
  match bus.object? handle with
  | none => none
  | some obj =>
    if obj.desc.uid ≠ uid then none
    else (bus.api.method? obj.desc.uid mtdUid).map fun desc => (obj.ref, desc)

/-- Decode the arguments of a call, if its method has any. -/
def argsDecode : Option StructDesc → Dec (Option Struct)
  | some d => some <$> structDecode (structZero d)
  | none => pure none

/-- `obus_call_decode`. -/
def callDecode (bus : Bus) : Dec (Option Call) := do
  match ← (do let uid ← readU16; let handle ← readU16; let mtdUid ← readU16
              let callHandle ← readU16; let size ← readU32
              pure (uid, handle, mtdUid, callHandle, size) : Dec _).attempt with
  | .error _ => pure none
  | .ok (uid, handle, mtdUid, callHandle, size) =>
    decodeSized size (callCheck bus uid handle mtdUid) fun (obj, desc) => do
      let args ← argsDecode desc.argsDesc
      pure ⟨obj, desc, callHandle, args⟩

/-- A loop that decodes elements and keeps those that could be decoded. -/
def decodeMany {α : Type} (p : Dec (Option α)) (n : ℕ) : Dec (List α) :=
  iter (fun acc => do pure (acc ++ (← p).toList)) n []

/-- `obus_bus_event_decode`. -/
def busEventDecode (bus : Bus) : Dec (Option BusEvent) := do
  match ← (do let uid ← readU16; let nAdd ← readU32; let nRemove ← readU32; let nEvents ← readU32
              pure (uid, nAdd, nRemove, nEvents) : Dec _).attempt with
  | .error _ => pure none
  | .ok (uid, nAdd, nRemove, nEvents) =>
    match bus.api.busEvent? uid with
    | none => pure none
    | some desc =>
      let addObjs ← decodeMany (objectAddDecode bus.api) nAdd.toNat
      let removeObjs ← decodeMany (objectRemoveDecode bus) nRemove.toNat
      let objEvents ← decodeMany (eventDecode bus) nEvents.toNat
      pure (some ⟨desc, addObjs, removeObjs, objEvents⟩)

/-- Read a string into uninitialised memory. -/
def readNewString : Dec (Option CString) := do
  match ← readString none with
  | (.ok (), str) => pure str
  | (.error e, _) => .fail e

/-- `obus_packet_conreq_decode`. -/
def packetConreqDecode : Dec Conreq := do
  let version ← readU8
  let bus ← readNewString
  let crc ← readU32
  let client ← readNewString
  pure ⟨version, bus, crc, client⟩

/-- `obus_packet_conresp_decode`.  The status is refused only when it is above
`OBUS_CONRESP_STATUS_COUNT`. -/
def packetConrespDecode (bus : Bus) : Dec (ConrespStatus × List Object) := do
  let status ← readU8
  match ConrespStatus.ofCode? status with
  | none => .fail .einval
  | some status =>
    let nObjects ← readU32
    let objects ← decodeMany (objectAddDecode bus.api) nObjects.toNat
    pure (status, objects)

/-- The common shape of the packet decoders that report an undecodable element. -/
def decodeOrFail {α : Type} (p : Dec (Option α)) : Dec α := do
  match ← p with
  | some a => pure a
  | none => .fail .enoent

/-- `obus_packet_ack_decode`. -/
def packetAckDecode : Dec Ack := do
  let handle ← readU16
  let status ← readU8
  pure ⟨handle, status⟩

/-- The switch of `obus_packet_decoder_read`: decode the body of a packet of a given type. -/
def packetDecode (bus : Bus) : PacketType → Dec PacketInfo
  | .conreq => .conreq <$> packetConreqDecode
  | .conresp => (fun r => .conresp r.1 r.2) <$> packetConrespDecode bus
  | .add => .add <$> decodeOrFail (objectAddDecode bus.api)
  | .remove => .remove <$> objectRemoveDecode bus
  | .busEvent => .busEvent <$> decodeOrFail (busEventDecode bus)
  | .event => .event <$> decodeOrFail (eventDecode bus)
  | .call => .call <$> decodeOrFail (callDecode bus)
  | .ack => .ack <$> packetAckDecode

end Obus
