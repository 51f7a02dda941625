import Obus.Isolation
import Obus.Java.Buffer
import Obus.Lib.Framer

/-!
# The three stream decoders

The decoders of the Java and the Python library go through a stream byte by byte and never back.
They are one machine, `ByteDecoder`, with two ways to read a header: the size is an `int` in Java.
The decoder of the C library keeps bytes, and looks for a header at each of their positions.  What
it cuts off is modelled apart from what becomes of it (`cutOrWait_dec`), and memory is never short.

Each of them is a framer of the stream: `byteFramer` of the sizes that it accepts, or `scanFramer`.
-/

namespace Obus

/-- The type and the payload of a packet. -/
abbrev RawPacket := PacketType × List UInt8

/-! ## The byte-wise decoders -/

/-- `State`, with the header that there is in the last one. -/
inductive DecoderState where
  | idle
  | headerMagic (idx : Fin 4)
  | header
  | payload (size : ℕ) (type : PacketType)
  deriving DecidableEq

/-- `Decoder`. -/
structure ByteDecoder where
  state : DecoderState
  headerBuf : List UInt8
  payloadBuf : List UInt8

/-- A new `Decoder`. -/
def ByteDecoder.new : ByteDecoder := ⟨.idle, [], []⟩

/-- `OBUS_MAGIC_0` to `OBUS_MAGIC_3`. -/
def magicBytes : List UInt8 := [0x6f, 0x62, 0x75, 0x73]

/-- The variables of `decode`. -/
structure DecodeVars where
  dec : ByteDecoder
  src : List UInt8
  packet : Option RawPacket

/-- `PacketType.fromInt`. -/
def packetTypeFromInt (val : BitVec 32) : Option PacketType :=
  match val.toNat with
  | 0 => some .conreq
  | 1 => some .conresp
  | 2 => some .add
  | 3 => some .remove
  | 4 => some .busEvent
  | 5 => some .event
  | 6 => some .call
  | 7 => some .ack
  | _ => none

/-- The fields of a header are read. -/
def javaReadHeader : Java.Read (BitVec 32 × BitVec 32) := do
  let _magic ← Java.readU32
  let size ← Java.readU32
  let packetType ← Java.readU8
  pure (size, packetType)

/-- `decodeHeader` of Java: the header, or an error that is caught. -/
def javaDecodeHeader (headerBuf : List UInt8) : Option (ℕ × PacketType) :=
  match javaReadHeader ⟨headerBuf, 0⟩ with
  | .error _ => none
  | .ok ((size, packetType), _) =>
    match packetTypeFromInt packetType with
    | none => none
    | some type => if size.toInt < pktHdrSize then none else some (size.toNat, type)

/-- `_decodeHeader` of Python. -/
def pythonDecodeHeader (headerBuf : List UInt8) : Option (ℕ × PacketType) :=
  let size := ofBigEndian ((headerBuf.drop 4).take 4)
  let packetType := ofBigEndian ((headerBuf.drop 8).take 1)
  match PacketType.ofCode? (UInt8.ofNat packetType) with
  | none => none
  | some type => if size < pktHdrSize then none else some (size, type)

section Decoding

variable (decodeHeader : List UInt8 → Option (ℕ × PacketType))

/-- An iteration of the loop of `decode`. -/
def decodeIteration (s : DecodeVars) : DecodeVars :=
  match s.dec.state with
  | .idle => s
  | .headerMagic idx =>
    let headerBuf := (if idx = 0 then [] else s.dec.headerBuf) ++ s.src.take 1
    let payloadBuf := if idx = 0 then [] else s.dec.payloadBuf
    let state : DecoderState :=
      if headerBuf[idx]? ≠ magicBytes[idx]? then .headerMagic 0 else if idx = 3 then .header
        else .headerMagic (idx + 1)
    { s with dec := ⟨state, headerBuf, payloadBuf⟩, src := s.src.drop 1 }
  | .header =>
    let cpyLen := min s.src.length (pktHdrSize - s.dec.headerBuf.length)
    let headerBuf := s.dec.headerBuf ++ s.src.take cpyLen
    let dec : ByteDecoder :=
      if headerBuf.length = pktHdrSize then
        match decodeHeader headerBuf with
        | none => ⟨.headerMagic 0, headerBuf, s.dec.payloadBuf⟩
        | some (size, type) => ⟨.payload size type, headerBuf, []⟩
      else ⟨.header, headerBuf, s.dec.payloadBuf⟩
    { s with dec := dec, src := s.src.drop cpyLen }
  | .payload size type =>
    let cpyLen := min s.src.length (size - pktHdrSize - s.dec.payloadBuf.length)
    let payloadBuf := s.dec.payloadBuf ++ s.src.take cpyLen
    if payloadBuf.length = size - pktHdrSize then
      ⟨⟨.idle, s.dec.headerBuf, payloadBuf⟩, s.src.drop cpyLen, some (type, payloadBuf)⟩
    else
      { s with dec := ⟨.payload size type, s.dec.headerBuf, payloadBuf⟩, src := s.src.drop cpyLen }

/-- The loop of `decode`. -/
def decodeStep (s : DecodeVars) : Next DecodeVars DecodeVars :=
  if s.src = [] ∨ s.dec.state = .idle then .done s else .again (decodeIteration decodeHeader s)

/-- `decode`, with at most `fuel` iterations. -/
def byteDecode (fuel : ℕ) (dec : ByteDecoder) (src : List UInt8) : Option DecodeVars :=
  loop (decodeStep decodeHeader) fuel
    ⟨if dec.state = .idle then { dec with state := .headerMagic 0 } else dec, src, none⟩

/-- The decoder of a connection, the bytes of a read that are left, and the packets that have been
notified. -/
structure ReaderVars where
  dec : ByteDecoder
  src : List UInt8
  packets : List RawPacket

/-- The loop of a reader over the bytes of a read. -/
def readerStep (fuel : ℕ) (s : ReaderVars) : Next ReaderVars (Option ReaderVars) :=
  if s.src = [] then .done (some s)
  else
    match byteDecode decodeHeader fuel s.dec s.src with
    | none => .done none
    | some r => .again ⟨r.dec, r.src, s.packets ++ r.packet.toList⟩

/-- The bytes of a read are decoded. -/
def readChunk (fuel : ℕ) (s : ByteDecoder × List RawPacket) (chunk : List UInt8) :
    Option (ByteDecoder × List RawPacket) :=
  (loop (readerStep decodeHeader fuel) fuel ⟨s.1, chunk, s.2⟩).join.map fun r => (r.dec, r.packets)

/-- The packets of a connection whose reads give the chunks. -/
def received (chunks : List (List UInt8)) (fuel : ℕ) : Option (List RawPacket) :=
  (chunks.foldlM (readChunk decodeHeader fuel) (ByteDecoder.new, [])).map Prod.snd

end Decoding

/-! ## The framing of the C library -/

/-- The state of the loop of `obus_packet_decoder_read`, over its calls, with what has been cut off.
-/
structure FramingState extends ReadState where
  cut : List RawPacket

/-- `lookForPacket`, where the packet is only cut off.  The next call begins without a read. -/
def cutOrWait (s : FramingState) : FramingState :=
  let (valid, d) := if s.dec.hdrValid then (true, s.dec) else packetDecodeHeader s.dec
  if valid = false ∨ d.buf.length < d.hdr.size.toNat then { s with readMore := true, dec := d }
  else
    let payload := (d.buf.content.take d.hdr.size.toNat).drop pktHdrSize
    { s with
      readMore := false
      dec := { d with
        hdrValid := false
        buf := (bufferSetReadPosition 0 (bufferRemoveFirst d.hdr.size.toNat d.buf)).2 }
      cut := s.cut ++ (PacketType.ofCode? d.hdr.type).toList.map fun type => (type, payload) }

/-- A round of `obus_packet_decoder_read`, up to the cut. -/
def framingStep (fill : ℕ → ℕ → UInt8) (s : FramingState) : Next FramingState FramingState :=
  if s.readMore then
    match ioRead (fun n => some (fill n)) (readLength s.dec.buf) s.dec.buf s.io with
    | (.error _, buf, io) => .done { s with dec := { s.dec with buf := buf }, io := io }
    | (.ok 0, buf, io) => .done { s with dec := { s.dec with buf := buf }, io := io }
    | (.ok (_ + 1), buf, io) =>
      .again (cutOrWait { s with dec := { s.dec with buf := buf }, io := io })
  else .again (cutOrWait s)

/-- `OBUS_DEFAULT_BUFFER_SIZE`. -/
def defaultBufferSize : ℕ := 1024

/-- What is cut off the chunks that arrive on a connection. -/
def framing (fill : ℕ → ℕ → UInt8) (chunks : List (List UInt8)) (fuel : ℕ) :
    Option (List RawPacket) :=
  (loop (framingStep fill) fuel
    ⟨⟨false, packetDecoderInit (bufferNew defaultBufferSize (fill 0)), chunks.map .data⟩, []⟩).map
      FramingState.cut

/-- The decoder is left as the decoder that decodes the packets leaves it. -/
lemma cutOrWait_dec (bus : Bus) (s : FramingState) :
    (cutOrWait s).dec = match lookForPacket bus s.toReadState with
      | .again s' => s'.dec
      | .done (_, d, _) => d := by
  unfold cutOrWait lookForPacket
  generalize (if s.dec.hdrValid = true then (true, s.dec) else packetDecodeHeader s.dec) = search
  obtain ⟨valid, d⟩ := search
  simp only
  split_ifs with hwait
  · rfl
  · have hbuf : ∀ b : Buffer, b.data = d.buf.data → b.length = d.buf.length →
        (bufferSetReadPosition 0 (bufferRemoveFirst d.hdr.size.toNat b)).2 =
          (bufferSetReadPosition 0 (bufferRemoveFirst d.hdr.size.toNat d.buf)).2 := by
      intro b hdata hlength
      simp only [bufferSetReadPosition, Nat.not_lt_zero, if_false, bufferRemoveFirst,
        hdata, hlength]
      split_ifs <;> simp [hdata, hlength]
    unfold takePacket
    simp only
    cases PacketType.ofCode? d.hdr.type with
    | none => rfl
    | some type =>
      obtain ⟨hdata, hlength⟩ := Dec.on_frame (packetDecode bus type) d.buf
      cases hret : ((packetDecode bus type).on d.buf).1 with
      | ok info => simp only [hbuf _ hdata hlength]
      | error e => simp only [hbuf _ hdata hlength]

end Obus
