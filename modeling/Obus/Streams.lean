import Obus.Progress

/-!
# Streams of packets

A stream is a sequence of encoded packets with other bytes between them (`streamBytes`).  When no
header starts in these other bytes, the stream is cut exactly at its packets (`framed_streamBytes`),
and repeated calls of the decoder return what arrives of each packet on the bus, in order and
whatever the sizes of the reads (`decoderCalls_stream`).

Two kinds of packets are not delimited by their own bytes.  The size field of a packet of `2 ^ 32`
bytes says 0, and it is returned again and again.  A call without arguments of a method that has
some on the receiving side is completed with the bytes that follow it.
-/

namespace Obus

/-- A packet of a stream: the bytes before it, the packet and its own bytes. -/
structure Segment where
  junk : List UInt8
  info : PacketInfo
  bytes : List UInt8

/-- The bytes of a stream that ends with `tail`. -/
def streamBytes : List Segment → List UInt8 → List UInt8
  | [], tail => tail
  | s :: segs, tail => s.junk ++ (s.bytes ++ streamBytes segs tail)

/-- Outside the packets of the stream no nine bytes form a header. -/
def Separated : List Segment → List UInt8 → Prop
  | [], tail => ∀ i, headerOf (tail.drop i) = none
  | s :: segs, tail =>
    (∀ i < s.junk.length, headerOf ((streamBytes (s :: segs) tail).drop i) = none) ∧
    Separated segs tail

/-- The bytes of the packet are what its encoder leaves in a buffer. -/
def Segment.Encoded (s : Segment) : Prop :=
  ∃ mem b b', s.info.encode.on mem b = (.ok (), b') ∧ b'.content = s.bytes

/-- What arrives on the bus of the packets of a stream, without those that it cannot decode. -/
def arrivals (bus : Bus) (segs : List Segment) : List PacketInfo :=
  packetsOf (segs.map fun s => s.info.arrive bus)

/-- A stream of packets that can be carried is cut exactly at its packets. -/
lemma framed_streamBytes {segs : List Segment} {tail : List UInt8}
    (hsegs : ∀ s ∈ segs, s.bytes = s.info.bytes ∧ s.info.bytes.length < 2 ^ 32)
    (hsep : Separated segs tail) :
    Framed (streamBytes segs tail) (segs.map fun s => Frame.ofPacket s.info) := by
  induction segs with
  | nil => exact .idle hsep
  | cons s segs ih =>
    obtain ⟨hbytes, hlt⟩ := hsegs s List.mem_cons_self
    have hrest := ih (fun t ht => hsegs t (List.mem_cons_of_mem s ht)) hsep.2
    have hnone := hsep.1
    rw [streamBytes, hbytes] at hnone ⊢
    refine .frame (f := Frame.ofPacket s.info) hnone (headerOf_bytes _ _) hlt ?_ hrest
    change 0 < s.info.bytes.length
    rw [PacketInfo.bytes_length]
    change 0 < 9 + _
    omega

/-- The calls of a decoder on a stream of packets that can be carried return what arrives of them.
-/
lemma decoderCalls_stream (mem : Realloc) {bus : Bus} {segs : List Segment} {tail : List UInt8}
    (hsegs : ∀ s ∈ segs, s.bytes = s.info.bytes ∧ s.info.bytes.length < 2 ^ 32)
    (hok : ∀ s ∈ segs, s.info.Ok ∧ s.info.Compatible bus) (hsep : Separated segs tail) {b : Buffer}
    (hpos : b.pos = 0) (hsize : 0 < b.size) {io : List ReadEvent}
    (hio : ioBytes io = streamBytes segs tail) {fuel : ℕ}
    (hfuel : 3 * (ioBytes io).length + 1 < fuel) (n : ℕ) :
    ∃ rs, decoderCalls mem bus fuel n (packetDecoderInit b) io = some rs ∧
      packetsOf rs <+: arrivals bus segs ∧
      ((∀ m, mem m ≠ none) → segs.length + io.length ≤ n → packetsOf rs = arrivals bus segs) := by
  have hinv := packetDecoderInit_inv (s := ioBytes io) hsize (by
    rw [hpos, hio]
    exact framed_streamBytes hsegs hsep)
  have hlocal : ∀ f ∈ segs.map fun s => Frame.ofPacket s.info, f.Local bus := by
    intro f hf
    obtain ⟨s, hs, rfl⟩ := List.mem_map.mp hf
    exact (Frame.ofPacket_decode bus (hok s hs).1 (hok s hs).2).2
  have hdecoded : decodedOf bus (segs.map fun s => Frame.ofPacket s.info) = arrivals bus segs := by
    rw [decodedOf, arrivals, List.map_map]
    refine congrArg packetsOf (List.map_congr_left fun s hs => ?_)
    exact (Frame.ofPacket_decode bus (hok s hs).1 (hok s hs).2).1
  have hweight : readWeight (packetDecoderInit b) io + 1 < fuel := by
    simpa [readWeight, packetDecoderInit, bufferClear] using hfuel
  obtain ⟨rs, hcalls, hpre, hall⟩ := decoderCalls_spec mem n hinv hlocal hweight
  rw [hdecoded] at hpre hall
  exact ⟨rs, hcalls, hpre, fun hmem hn => hall hmem (by rwa [List.length_map])⟩

/-- Packets built on the descriptor of the bus all arrive with their content. -/
lemma arrivals_view {bus : Bus} (hapi : bus.api.Ok) {segs : List Segment}
    (h : ∀ s ∈ segs, s.info.BuiltOn bus) :
    (arrivals bus segs).map PacketInfo.view = segs.map fun s => s.info.view := by
  induction segs with
  | nil => rfl
  | cons s segs ih =>
    obtain ⟨info', harrive, hview⟩ := PacketInfo.arrive_view hapi (h s List.mem_cons_self)
    have hcons : arrivals bus (s :: segs) = info' :: arrivals bus segs := by
      simp [arrivals, packetsOf, harrive, Except.toOption]
    rw [hcons, List.map_cons, List.map_cons, hview, ih fun t ht => h t (List.mem_cons_of_mem s ht)]

/-- On a stream of encoded packets with other bytes between them, in which no header starts, the
calls of `obus_packet_decoder_read` return the packets of the stream in order, for every way in
which the stream is split into reads, without those that the bus cannot decode.  All of them are
returned unless an allocation fails, and packets that the bus knows are returned with their content.
-/
theorem stream_framing (bus : Bus) (mem : Realloc) (segs : List Segment) (tail : List UInt8)
    (hsegs : ∀ s ∈ segs, s.Encoded ∧ s.info.Valid ∧ s.info.bytes.length < 2 ^ 32 ∧
      s.info.Compatible bus)
    (hsep : Separated segs tail) (b : Buffer) (hpos : b.pos = 0) (hsize : 0 < b.size)
    (io : List ReadEvent) (hio : ioBytes io = streamBytes segs tail) (fuel : ℕ)
    (hfuel : 3 * (ioBytes io).length + 1 < fuel) (n : ℕ) :
    ∃ rs, decoderCalls mem bus fuel n (packetDecoderInit b) io = some rs ∧
      packetsOf rs <+: arrivals bus segs ∧
      ((∀ m, mem m ≠ none) → segs.length + io.length ≤ n → packetsOf rs = arrivals bus segs) ∧
      (bus.api.Ok → (∀ s ∈ segs, s.info.BuiltOn bus) →
        (arrivals bus segs).map PacketInfo.view = segs.map fun s => s.info.view) := by
  have hok : ∀ s ∈ segs, s.info.Ok ∧ s.info.Compatible bus := fun s hs =>
    ⟨(hsegs s hs).2.1.ok (hsegs s hs).2.2.1, (hsegs s hs).2.2.2⟩
  have hbytes : ∀ s ∈ segs, s.bytes = s.info.bytes ∧ s.info.bytes.length < 2 ^ 32 := by
    intro s hs
    obtain ⟨⟨mem', c, c', henc, hcont⟩, -, hlt, -⟩ := hsegs s hs
    rw [((hok s hs).1.content_of_encode henc).2] at hcont
    exact ⟨hcont.symm, hlt⟩
  obtain ⟨rs, hcalls, hpre, hall⟩ :=
    decoderCalls_stream mem hbytes hok hsep hpos hsize hio hfuel n
  exact ⟨rs, hcalls, hpre, hall, fun hapi hbuilt => arrivals_view hapi hbuilt⟩

/-- The event of the sample bus between other bytes. -/
def sampleSegment : Segment :=
  ⟨[111, 98], .event sampleEvent, (PacketInfo.event sampleEvent).bytes⟩

theorem stream_framing_sampleSegment :
    ∃ rs, decoderCalls zeroMem sampleBus 200 5 (packetDecoderInit smallBuffer)
        [.data [111], .again, .data (98 :: sampleSegment.bytes.take 7),
          .data (sampleSegment.bytes.drop 7 ++ [0])] = some rs ∧
      packetsOf rs = arrivals sampleBus [sampleSegment] := by
  have henc : sampleSegment.Encoded := ⟨zeroMem, ⟨[], 0, 0⟩,
    ((PacketInfo.event sampleEvent).encode.on zeroMem ⟨[], 0, 0⟩).2, by decide, by decide⟩
  have hsep : Separated [sampleSegment] [0] := by
    refine ⟨by decide, fun i => headerOf_eq_none_of_length_lt ?_⟩
    rw [List.length_drop, List.length_singleton]
    change 1 - i < 9
    omega
  obtain ⟨rs, hcalls, -, hall, -⟩ := stream_framing sampleBus zeroMem [sampleSegment] [0]
    (fun s hs => by
      rw [List.mem_singleton.mp hs]
      exact ⟨henc, sampleEvent_builtOn.valid sampleApi_ok, by decide, trivial⟩)
    hsep smallBuffer rfl (by decide) [.data [111], .again, .data (98 :: sampleSegment.bytes.take 7),
      .data (sampleSegment.bytes.drop 7 ++ [0])] (by decide) 200 (by decide) 5
  exact ⟨rs, hcalls, hall (by simp [zeroMem]) (by decide)⟩

/-! ## Packets that their own bytes do not delimit -/

/-- A packet of `2 ^ 32` bytes has the size 0 in its header, so that it stays in the buffer. -/
lemma lookForPacket_wrapped {bus : Bus} {info info' : PacketInfo} (h : info.Ok)
    (hcompat : info.Compatible bus) (harrive : info.arrive bus = .ok info')
    (hlen : info.bytes.length = 2 ^ 32) (st : ReadState) (hok : st.dec.buf.Ok)
    (hvalid : st.dec.hdrValid = false) (hpos : st.dec.buf.pos = 0)
    (hcont : st.dec.buf.content = info.bytes) :
    ∃ d', lookForPacket bus st = .done (.ok info', d', st.io) ∧ d'.buf.Ok ∧ d'.hdrValid = false ∧
      d'.buf.pos = 0 ∧ d'.buf.content = info.bytes := by
  have hhead := headerOf_bytes info []
  rw [List.append_nil, hlen] at hhead
  obtain ⟨d₁, hsearch, -, hsize, htype, hpos₁, hok₁, -, hcont₁⟩ :=
    packetDecodeHeader_found (i := 0) hok hpos (by simp)
      (by rw [List.drop_zero, hcont]; exact hhead)
  rw [List.drop_zero, hcont] at hcont₁
  have hzero : d₁.hdr.size.toNat = 0 := by
    rw [hsize]
    rfl
  have hlength : d₁.buf.length = info.bytes.length := by rw [← Buffer.content_length hok₁, hcont₁]
  have hnext : d₁.buf.HasNext info.bodyBytes := by
    refine ⟨hok₁, ?_, ?_⟩
    · rw [hpos₁, hlength, PacketInfo.bytes_length]
    · have hdrop : info.bytes.drop 9 = info.bodyBytes := by
        rw [PacketInfo.bytes, List.drop_left' (headerBytes_length _ _)]
      rw [hpos₁, ← hdrop, ← hcont₁, Buffer.content, List.drop_take]
      exact List.take_prefix _ _
  have hdecode := (decodes_packet bus h hcompat _ hnext).1
  rw [harrive] at hdecode
  obtain ⟨hdata, hlen₁⟩ := Dec.on_frame (packetDecode bus info.type) d₁.buf
  rcases hrun : (packetDecode bus info.type).on d₁.buf with ⟨ret, b'⟩
  rw [hrun] at hdecode hdata hlen₁
  change ret = _ at hdecode
  change b'.data = _ at hdata
  change b'.length = _ at hlen₁
  subst hdecode
  refine ⟨{ d₁ with hdrValid := false, buf := b'.seek 0 }, ?_, ?_, rfl, rfl, ?_⟩
  · unfold lookForPacket takePacket
    simp only [hvalid, Bool.false_eq_true, if_false, hsearch, hzero, Nat.not_lt_zero,
      or_false, htype,
      PacketType.ofCode?_code, hrun, bufferRemoveFirst, true_or, if_true, bufferSetReadPosition]
    rfl
  · change b'.length ≤ b'.data.length
    rw [hdata, hlen₁]
    exact hok₁
  · change b'.data.take b'.length = _
    rw [hdata, hlen₁]
    exact hcont₁

/-- A decoder with enough room that receives a packet of `2 ^ 32` bytes in one read returns it
twice. -/
lemma decoderCalls_wrapped {bus : Bus} {info info' : PacketInfo} (h : info.Ok)
    (hcompat : info.Compatible bus) (harrive : info.arrive bus = .ok info')
    (hlen : info.bytes.length = 2 ^ 32) {b : Buffer} (hpos : b.pos = 0) (hsize : b.size = 2 ^ 32)
    (mem : Realloc) :
    decoderCalls mem bus 2 2 (packetDecoderInit b) [.data info.bytes] =
      some [.ok info', .ok info'] := by
  have hempty : (packetDecoderInit b).buf.content = [] := List.take_zero
  -- nothing is there at first
  obtain ⟨d₁, hmiss, hvalid₁, hpos₁, hok₁, hsize₁, hcont₁⟩ :=
    packetDecodeHeader_missing (d := packetDecoderInit b) (Nat.zero_le _) hpos
      (fun j => headerOf_eq_none_of_length_lt (by rw [hempty]; simp))
  rw [hempty, List.drop_nil] at hcont₁
  have hlen₁ : d₁.buf.length = 0 := by rw [← Buffer.content_length hok₁, hcont₁, List.length_nil]
  have hroom : d₁.buf.size = 2 ^ 32 := hsize₁.trans hsize
  have hstep₁ : decoderStep mem bus ⟨false, packetDecoderInit b, [.data info.bytes]⟩ =
      .again ⟨true, d₁, [.data info.bytes]⟩ := by
    have hvalid : (packetDecoderInit b).hdrValid = false := rfl
    simp [decoderStep, lookForPacket, hmiss, hvalid]
  -- then the whole packet
  obtain ⟨buf, hbuf⟩ : ∃ buf, buf = { d₁.buf.store 0 info.bytes with length := 2 ^ 32 } := ⟨_, rfl⟩
  have hcont₂ : buf.content = info.bytes := by
    have hstore := Buffer.take_store_end hok₁ info.bytes
    rw [hlen₁, hcont₁, List.nil_append, Nat.zero_add, hlen] at hstore
    rw [hbuf]
    exact hstore
  have hok₂ : buf.Ok := by
    have hle : 0 + info.bytes.length ≤ d₁.buf.size := by rw [hroom, hlen, Nat.zero_add]
    have hstore := Buffer.store_length_of_le hle
    rw [hbuf]
    change 2 ^ 32 ≤ (d₁.buf.store 0 info.bytes).size
    rw [hstore, hroom]
  have hread : ioRead mem (readLength d₁.buf) d₁.buf [.data info.bytes] =
      (.ok (2 ^ 32), buf, []) := by
    have hlength : readLength d₁.buf = 2 ^ 32 := by
      rw [readLength, hroom, hlen₁]
      rfl
    have htake : info.bytes.take (2 ^ 32) = info.bytes := List.take_of_length_le (le_of_eq hlen)
    rw [hlength, ioRead, if_neg (by omega), bufferEnsureRealloc,
      if_neg (by rw [hroom, hlen₁]; omega)]
    simp only [htake, hlen, hlen₁, Nat.zero_add, le_refl, if_true, hbuf]
  obtain ⟨d₂, hlook₂, hok₂', hvalid₂, hpos₂, hcont₂'⟩ :=
    lookForPacket_wrapped h hcompat harrive hlen
    ⟨true, { d₁ with buf := buf }, []⟩ hok₂ hvalid₁ (by rw [hbuf]; exact hpos₁) hcont₂
  have hstep₂ : decoderStep mem bus ⟨true, d₁, [.data info.bytes]⟩ = .done (.ok info', d₂, []) := by
    have hpow : (2 ^ 32 : ℕ) = (2 ^ 32 - 1) + 1 := by omega
    rw [hpow] at hread
    simp only [decoderStep, if_true, hread]
    exact hlook₂
  -- the packet is still there at the second call
  obtain ⟨d₃, hlook₃, -⟩ := lookForPacket_wrapped h hcompat harrive hlen ⟨false, d₂, []⟩ hok₂'
    hvalid₂ hpos₂ hcont₂'
  have hcall₁ : packetDecoderRead mem bus 2 (packetDecoderInit b) [.data info.bytes] =
      some (.ok info', d₂, []) :=
    (loop_succ_again hstep₁ 1).trans (loop_succ_done hstep₂ 0)
  have hstep₃ : decoderStep mem bus ⟨false, d₂, []⟩ = .done (.ok info', d₃, []) := hlook₃
  have hcall₂ : packetDecoderRead mem bus 2 d₂ [] = some (.ok info', d₃, []) :=
    loop_succ_done hstep₃ 1
  simp [decoderCalls, hcall₁, hcall₂]

/-- The connection request of a client with a name of `n` characters. -/
def requestSegment (n : ℕ) : Segment :=
  ⟨[], requestOf (some (nameOf n)), (requestOf (some (nameOf n))).bytes⟩

/-- With a name of `2 ^ 32 - 23` characters the request has `2 ^ 32` bytes. -/
lemma requestSegment_wrapped {n : ℕ} (hn : n + 23 = 2 ^ 32) :
    (requestSegment n).Encoded ∧ (requestSegment n).info.Ok ∧ (requestSegment n).info.Valid ∧
      (requestSegment n).info.bytes.length = 2 ^ 32 := by
  have hname : (CString.memory (some (nameOf n))).length = n + 1 := by
    rw [CString.memory, List.length_append, nameOf_length, List.length_singleton]
  have hok : (requestSegment n).info.Ok := by
    refine ⟨rfl, Nat.two_pow_pos 32, ?_⟩
    change (CString.memory (some (nameOf n))).length < 2 ^ 32
    omega
  refine ⟨?_, hok, rfl, ?_⟩
  · rcases PacketInfo.encode_cases zeroMem hok ⟨[], 0, 0⟩ with ⟨b', hrun, -, hcont⟩ |
      ⟨e, b', -, k, ⟨⟩⟩
    exact ⟨zeroMem, ⟨[], 0, 0⟩, b', hrun, hcont⟩
  · rw [PacketInfo.bytes_length]
    simp only [requestSegment, requestOf, PacketInfo.bodyBytes, wholeStringBytes, sizedBytes,
      List.length_append, bigEndian_length, hname]
    change 9 + _ = _
    simp only [CString.memory, List.length_nil]
    omega

lemma decoderCalls_requestSegment {n : ℕ} (hn : n + 23 = 2 ^ 32) (b : Buffer) (hpos : b.pos = 0)
    (hsize : b.size = 2 ^ 32) :
    Separated [requestSegment n] [] ∧
      decoderCalls zeroMem sampleBus 2 2
        (packetDecoderInit b) [.data (streamBytes [requestSegment n] [])] =
        some [.ok (requestSegment n).info, .ok (requestSegment n).info] := by
  obtain ⟨-, hok, -, hlen⟩ := requestSegment_wrapped hn
  constructor
  · exact ⟨by simp [requestSegment], fun i => headerOf_eq_none_of_length_lt (by simp)⟩
  · have hbytes : streamBytes [requestSegment n] [] = (requestSegment n).info.bytes :=
      List.append_nil _
    rw [hbytes]
    exact decoderCalls_wrapped hok trivial rfl hlen hpos hsize zeroMem

/-- The sample bus with a method that takes an argument struct without fields. -/
def argsBus : Bus :=
  ⟨{ sampleApi with objects := [{ sampleDesc with methods := [⟨2, some []⟩] }] },
    [{ sampleObject with desc := { sampleDesc with methods := [⟨2, some []⟩] } }], [7]⟩

/-- A call of the method by a caller for whom it has no arguments. -/
def bareCall : Call := ⟨⟨sampleDesc, 7⟩, ⟨2, none⟩, 5, none⟩

theorem packets_not_delimited :
    -- a packet of `2 ^ 32` bytes is returned twice
    ((requestSegment (2 ^ 32 - 23)).Encoded ∧ (requestSegment (2 ^ 32 - 23)).info.Valid ∧
      (requestSegment (2 ^ 32 - 23)).info.Compatible sampleBus ∧
      Separated [requestSegment (2 ^ 32 - 23)] [] ∧
      decoderCalls zeroMem sampleBus 2 2 (packetDecoderInit ⟨List.replicate (2 ^ 32) 0, 0, 0⟩)
        [.data (streamBytes [requestSegment (2 ^ 32 - 23)] [])] =
          some [.ok (requestSegment (2 ^ 32 - 23)).info, .ok (requestSegment (2 ^ 32 - 23)).info]) ∧
      -- a call without arguments depends on the bytes behind it
      (decoderCalls zeroMem argsBus 10 2 (packetDecoderInit smallBuffer)
          [.data (PacketInfo.call bareCall).bytes] = some [.error .eagain, .error .eagain] ∧
        decoderCalls zeroMem argsBus 10 2 (packetDecoderInit smallBuffer)
          [.data ((PacketInfo.call bareCall).bytes ++ [0, 0])] =
            some [.ok (.call ⟨⟨{ sampleDesc with methods := [⟨2, some []⟩] }, 7⟩, ⟨2, some []⟩, 5,
              some []⟩), .error .eagain]) := by
  have hn : 2 ^ 32 - 23 + 23 = 2 ^ 32 := by omega
  obtain ⟨henc, -, hvalid, -⟩ := requestSegment_wrapped hn
  obtain ⟨hsep, hcalls⟩ := decoderCalls_requestSegment hn ⟨List.replicate (2 ^ 32) 0, 0, 0⟩ rfl
    List.length_replicate
  exact ⟨⟨henc, hvalid, trivial, hsep, hcalls⟩, by decide, by decide⟩

end Obus
