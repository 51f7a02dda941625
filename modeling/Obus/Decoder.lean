import Obus.Lib.Loop
import Obus.Packet

/-!
# The packet decoder

The stream side of `obus_packet.c`: the search for a packet header, the decoder that is fed by reads
of any size, and the two kinds of read events that it is driven by.  A decoder owns a buffer; the
bytes of the connection arrive in it through `obus_io_read`, and a packet is taken out of it once it
is complete.

A descriptor is modelled by what its next reads give: some bytes (`data`, no bytes at the end of the
stream), nothing yet (`again`), or an error.  When nothing is left, a read gives nothing yet.
-/

namespace Obus

/-- The outcome of the next `read` on a descriptor.  `data []` is the end of the stream. -/
inductive ReadEvent where
  | data (bs : List UInt8)
  | again
  | error (e : Errno)
  deriving DecidableEq

/-- `obus_io_read`: make room for `size` bytes and read at most as many. -/
def ioRead (mem : Realloc) (size : ℕ) (buf : Buffer) :
    List ReadEvent → Except Errno ℕ × Buffer × List ReadEvent
  | io =>
    if size = 0 then (.error .einval, buf, io)
    else
      match bufferEnsureRealloc mem (buf.length + size) buf with
      | (.error e, buf') => (.error e, buf', io)
      | (.ok (), buf') =>
        match io with
        | [] => (.error .eagain, buf', [])
        | .again :: io => (.error .eagain, buf', io)
        | .error e :: io => (.error e, buf', io)
        | .data bs :: io =>
          let got := bs.take size
          (.ok got.length,
            { buf'.store buf'.length got with length := buf'.length + got.length },
            if bs.length ≤ size then io else .data (bs.drop size) :: io)

/-- `struct obus_packet_header`. -/
structure Header where
  magic : UInt32
  size : UInt32
  type : UInt8
  deriving DecidableEq

/-- `struct obus_packet_decoder`; its bus and its io are passed to the functions that use them. -/
structure Decoder where
  hdr : Header
  hdrValid : Bool
  buf : Buffer
  deriving DecidableEq

/-- `obus_packet_decoder_init`. -/
def packetDecoderInit (buf : Buffer) : Decoder := ⟨⟨0, 0, 0⟩, false, bufferClear buf⟩

/-- `obus_packet_decoder_destroy`: the buffer as it is given back. -/
def packetDecoderDestroy (d : Decoder) : Buffer := bufferClear d.buf

/-- A word of the header, zero if it could not be read. -/
def wordOr0 {α : Type} [OfNat α 0] : Except Errno α → α
  | .ok v => v
  | .error _ => 0

/-- The loop of `obus_packet_decode_header`.  Every round moves the read position forward, so the
length of the content bounds the number of rounds. -/
def decodeHeaderLoop : ℕ → Decoder → Bool × Decoder
  | 0, d => (false, d)
  | n + 1, d =>
    if bufferReadLength d.buf < pktHdrSize then (false, d)
    else
      let pos := d.buf.pos
      let (magic, buf₁) := bufferReadU32 d.buf
      if wordOr0 magic ≠ obusMagic then
        -- bad magic, try again one byte later
        decodeHeaderLoop n
          { d with hdr := ⟨wordOr0 magic, 0, 0⟩, buf := (bufferSetReadPosition (pos + 1) buf₁).2 }
      else
        let (size, buf₂) := bufferReadU32 buf₁
        let (type, buf₃) := bufferReadU8 buf₂
        let hdr : Header := ⟨wordOr0 magic, wordOr0 size, wordOr0 type⟩
        if (PacketType.ofCode? (wordOr0 type)).isNone then
          decodeHeaderLoop n { d with hdr := hdr, buf := (bufferSetReadPosition (pos + 1) buf₃).2 }
        else (true, { hdr := hdr, hdrValid := true, buf := bufferRemoveFirst pos buf₃ })

/-- `obus_packet_decode_header`: whether a header was found.  If not, the last bytes are kept, which
may be the start of one. -/
def packetDecodeHeader (d : Decoder) : Bool × Decoder :=
  match decodeHeaderLoop (d.buf.length + 1) d with
  | (true, d') => (true, d')
  | (false, d') =>
    if pktHdrSize ≤ d'.buf.length then
      (false, { d' with buf := bufferRemoveFirst (d'.buf.length - (pktHdrSize - 1)) d'.buf })
    else (false, d')

/-- The state of the loop of `obus_packet_decoder_read`. -/
structure ReadState where
  readMore : Bool
  dec : Decoder
  io : List ReadEvent

/-- The room that is asked for before a read: what is left, or as much again when nothing is. -/
def readLength (buf : Buffer) : ℕ :=
  if buf.size - buf.length = 0 then buf.size else buf.size - buf.length

/-- The end of a round of `obus_packet_decoder_read`, once the whole packet is there: decode it and
remove it from the buffer. -/
def takePacket (bus : Bus) (s : ReadState) :
    Next ReadState (Except Errno PacketInfo × Decoder × List ReadEvent) :=
  let (ret, buf) :=
    match PacketType.ofCode? s.dec.hdr.type with
    | some type => (packetDecode bus type).on s.dec.buf
    | none => (.error .enoent, s.dec.buf)
  let buf' := (bufferSetReadPosition 0 (bufferRemoveFirst s.dec.hdr.size.toNat buf)).2
  let d := { s.dec with hdrValid := false, buf := buf' }
  match ret with
  | .ok info => .done (.ok info, d, s.io)
  | .error _ => .again { s with dec := d }

/-- The middle of a round: look for a header, and wait for the whole packet. -/
def lookForPacket (bus : Bus) (s : ReadState) :
    Next ReadState (Except Errno PacketInfo × Decoder × List ReadEvent) :=
  let (valid, d) := if s.dec.hdrValid then (true, s.dec) else packetDecodeHeader s.dec
  if valid = false ∨ d.buf.length < d.hdr.size.toNat
    then .again { s with readMore := true, dec := d }
  else takePacket bus { s with dec := d }

/-- A round of `obus_packet_decoder_read`. -/
def decoderStep (mem : Realloc) (bus : Bus) (s : ReadState) :
    Next ReadState (Except Errno PacketInfo × Decoder × List ReadEvent) :=
  if s.readMore then
    match ioRead mem (readLength s.dec.buf) s.dec.buf s.io with
    | (.error e, buf, io) => .done (.error e, { s.dec with buf := buf }, io)
    | (.ok 0, buf, io) => .done (.error .eio, { s.dec with buf := buf }, io)
    | (.ok (_ + 1), buf, io) =>
      lookForPacket bus { s with dec := { s.dec with buf := buf }, io := io }
  else lookForPacket bus s

/-- `obus_packet_decoder_read`, with at most `fuel` rounds. -/
def packetDecoderRead (mem : Realloc) (bus : Bus) (fuel : ℕ) (d : Decoder) (io : List ReadEvent) :
    Option (Except Errno PacketInfo × Decoder × List ReadEvent) :=
  loop (decoderStep mem bus) fuel ⟨false, d, io⟩

end Obus
