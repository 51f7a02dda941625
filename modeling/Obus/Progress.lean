import Obus.RoundTrip

/-!
# Progress of the read loops

The read loops of a server peer and of a client call the decoder until it reports that nothing more
can be read.  A stream that is cut into frames without meeting a header of size 0 keeps them from
running forever (`ioReadEvent_spec`): every packet that is taken out removes at least one byte.  The
stream is cut from the read position of the buffer on, which is not 0 in every buffer that is used
again.

A header of size 0 is accepted as well, and taking it out removes nothing.  The decoder then finds
the same header again, so that a call goes on forever if the packet does not decode, and the loop
around it does if the packet decodes.
-/

namespace Obus

/-! ## Headers of size 0 -/

/-- Cutting the stream at its headers meets a header of size 0. -/
inductive MeetsEmptyHeader : List UInt8 → Prop where
  /-- The first header has size 0. -/
  | here {junk s : List UInt8} {type : PacketType}
      (hnone : ∀ i < junk.length, headerOf ((junk ++ s).drop i) = none)
      (hsome : headerOf s = some (0, type)) : MeetsEmptyHeader (junk ++ s)
  /-- The first header is that of a complete frame, and what follows the frame meets one. -/
  | later {junk rest : List UInt8} {f : Frame}
      (hnone : ∀ i < junk.length, headerOf ((junk ++ (f.bytes ++ rest)).drop i) = none)
      (hsome : headerOf (f.bytes ++ rest) = some (UInt32.ofNat f.bytes.length, f.type))
      (hlt : f.bytes.length < 2 ^ 32) (hpos : 0 < f.bytes.length) (hrest : MeetsEmptyHeader rest) :
      MeetsEmptyHeader (junk ++ (f.bytes ++ rest))

/-- A stream that meets no header of size 0 is cut into frames. -/
lemma framed_of_not_meetsEmptyHeader {s : List UInt8} (h : ¬ MeetsEmptyHeader s) :
    ∃ frames, Framed s frames := by
  induction hn : s.length using Nat.strong_induction_on generalizing s with
  | _ n ih =>
    by_cases hall : ∀ i, headerOf (s.drop i) = none
    · exact ⟨[], .idle hall⟩
    push Not at hall
    obtain ⟨i, hi, hfirst⟩ : ∃ i, headerOf (s.drop i) ≠ none ∧
      ∀ j < i, headerOf (s.drop j) = none := by
      classical
      exact ⟨Nat.find hall, Nat.find_spec hall, fun j hj => not_not.mp (Nat.find_min hall hj)⟩
    obtain ⟨⟨size, type⟩, hsome⟩ := Option.ne_none_iff_exists'.mp hi
    have hlen := le_length_of_headerOf hsome
    rw [List.length_drop] at hlen
    change 9 ≤ _ at hlen
    have hjunk : (s.take i).length = i := List.length_take_of_le (by omega)
    have hsplit : s.take i ++ s.drop i = s := List.take_append_drop i s
    have hnone : ∀ j < (s.take i).length, headerOf ((s.take i ++ s.drop i).drop j) = none := by
      rw [hsplit, hjunk]
      exact hfirst
    by_cases hzero : size = 0
    · subst hzero
      refine absurd ?_ h
      rw [← hsplit]
      exact .here hnone hsome
    by_cases hwait : (s.drop i).length < size.toNat
    · rw [← hsplit]
      exact ⟨[], .waiting hnone hsome hwait⟩
    · -- the first frame is complete: go on behind it
      have hsize : ((s.drop i).take size.toNat).length = size.toNat :=
        List.length_take_of_le (by omega)
      have hlt : ((s.drop i).take size.toNat).length < 2 ^ 32 := by
        rw [hsize]
        exact size.toNat_lt
      have hpos : 0 < ((s.drop i).take size.toNat).length := by
        rw [hsize, Nat.pos_iff_ne_zero]
        exact fun h0 => hzero (UInt32.toNat_inj.mp h0)
      obtain ⟨rest, hrest⟩ : ∃ rest, rest = (s.drop i).drop size.toNat := ⟨_, rfl⟩
      have hcut : (s.drop i).take size.toNat ++ rest = s.drop i := by
        rw [hrest, List.take_append_drop]
      have hhead : headerOf ((s.drop i).take size.toNat ++ rest) =
          some (UInt32.ofNat ((s.drop i).take size.toNat).length, type) := by
        rw [hcut, hsome, hsize, UInt32.ofNat_toNat]
      rw [← hcut] at hnone hsplit
      have hmeets : ¬ MeetsEmptyHeader rest := by
        intro hm
        refine h ?_
        rw [← hsplit]
        exact .later (f := ⟨type, (s.drop i).take size.toNat⟩) hnone hhead hlt hpos hm
      obtain ⟨frames, hframed⟩ := ih rest.length (by
        rw [hrest, List.length_drop, List.length_drop]
        omega) hmeets rfl
      rw [← hsplit]
      exact ⟨_, .frame (f := ⟨type, (s.drop i).take size.toNat⟩) hnone hhead hlt hpos hframed⟩

/-- A stream that is cut into frames meets no header of size 0. -/
lemma MeetsEmptyHeader.not_framed {s : List UInt8} (h : MeetsEmptyHeader s) (frames : List Frame) :
    ¬ Framed s frames := by
  intro hframed
  induction h generalizing frames with
  | @here junk s type hnone hsome =>
    have hat := hframed.at_first hnone (by rw [List.drop_left]; exact hsome)
    obtain ⟨hlt, -⟩ | ⟨f, rest, fs, -, hsize, -, hpos, -⟩ := hat
    · exact absurd hlt (Nat.not_lt_zero _)
    · rw [hsize] at hpos
      exact absurd hpos (lt_irrefl _)
  | @later junk rest f hnone hsome hlt hpos hrest ih =>
    have hat := hframed.at_first hnone (by rw [List.drop_left]; exact hsome)
    rw [List.drop_left, UInt32.toNat_ofNat', Nat.mod_eq_of_lt hlt] at hat
    obtain ⟨hshort, -⟩ | ⟨g, rest', fs, hsplit, hsize, -, -, hrest', -⟩ := hat
    · rw [List.length_append] at hshort
      omega
    · obtain rfl : rest = rest' := (List.append_inj hsplit hsize.symm).2
      exact ih fs hrest'

/-- Taking a packet out of the buffer removes as many bytes as its header says. -/
lemma takePacket_length (bus : Bus) (st : ReadState) (hok : st.dec.buf.Ok) :
    ∃ d', (takePacket bus st = .again { st with dec := d' } ∨
        ∃ r, takePacket bus st = .done (r, d', st.io)) ∧
      d'.buf.length = st.dec.buf.length - st.dec.hdr.size.toNat := by
  have hlength : ∀ b' : Buffer, b'.data = st.dec.buf.data → b'.length = st.dec.buf.length →
      (bufferSetReadPosition 0 (bufferRemoveFirst st.dec.hdr.size.toNat b')).2.length =
        st.dec.buf.length - st.dec.hdr.size.toNat := by
    intro b' hdata hlen
    have hok' : b'.Ok := by
      rw [Buffer.Ok, Buffer.size, hdata, hlen]
      exact hok
    rw [bufferSetReadPosition, if_neg (Nat.not_lt_zero _), ← hlen]
    exact (bufferRemoveFirst_content hok' st.dec.hdr.size.toNat).2.2.2
  unfold takePacket
  cases PacketType.ofCode? st.dec.hdr.type with
  | none => exact ⟨_, Or.inl rfl, hlength _ rfl rfl⟩
  | some type =>
    obtain ⟨hdata, hlen⟩ := Dec.on_frame (packetDecode bus type) st.dec.buf
    rcases hrun : (packetDecode bus type).on st.dec.buf with ⟨ret, b'⟩
    rw [hrun] at hdata hlen
    simp only [hrun]
    cases ret with
    | ok info =>
      exact ⟨{ st.dec with hdrValid := false, buf := _ }, Or.inr ⟨_, rfl⟩, hlength b' hdata hlen⟩
    | error e =>
      exact ⟨{ st.dec with hdrValid := false, buf := _ }, Or.inl rfl, hlength b' hdata hlen⟩

/-! ## The read loops -/

variable {σ : Type}

/-- What a read loop works on: the decoder of the connection, what will be read from it, and
everything that the handling of packets may change. -/
structure LoopState (σ : Type) where
  dec : Decoder
  io : List ReadEvent
  env : σ

/-- A round of the loops of `obus_peer_io_read_event` and `obus_client_io_read_event`: read a packet
and handle it.  The loop ends when no packet was read, or when the handler reports that the
connection is gone.  Inside the call of the decoder `fuel` bounds the rounds, and its exhaustion
ends everything. -/
def readLoopStep (mem : Realloc) (fuel : ℕ) (bus : σ → Bus) (handle : PacketInfo → σ → Bool × σ)
    (s : LoopState σ) : Next (LoopState σ) (Option (LoopState σ)) :=
  match packetDecoderRead mem (bus s.env) fuel s.dec s.io with
  | none => .done none
  | some (.error _, d, io) => .done (some ⟨d, io, s.env⟩)
  | some (.ok info, d, io) =>
    if (handle info s.env).1 then .again ⟨d, io, (handle info s.env).2⟩
    else .done (some ⟨d, io, (handle info s.env).2⟩)

/-- The common shape of `obus_peer_io_read_event` and `obus_client_io_read_event`, with at most
`fuel` rounds of each of its two loops. -/
def ioReadEvent (mem : Realloc) (fuel : ℕ) (bus : σ → Bus) (handle : PacketInfo → σ → Bool × σ)
    (s : LoopState σ) : Option (LoopState σ) :=
  (loop (readLoopStep mem fuel bus handle) fuel s).join

/-- Read events in a row.  Before each of them the rest of the program may change everything but the
decoder and what arrives. -/
def ioReadEvents (mem : Realloc) (fuel : ℕ) (bus : σ → Bus) (handle : PacketInfo → σ → Bool × σ) :
    List (σ → σ) → LoopState σ → Option (LoopState σ)
  | [], s => some s
  | f :: fs, s =>
    (ioReadEvent mem fuel bus handle { s with env := f s.env }).bind
      (ioReadEvents mem fuel bus handle fs)

/-- The invariant of a read loop: what is left is framed, and not more than at the start. -/
def LoopInv (w : ℕ) (s : LoopState σ) : Prop :=
  (∃ frames, DecInv s.dec (ioBytes s.io) frames) ∧ readWeight s.dec s.io ≤ w

/-- On a framed stream a read event comes to an end, and leaves a framed stream. -/
lemma ioReadEvent_spec (mem : Realloc) (bus : σ → Bus) (handle : PacketInfo → σ → Bool × σ)
    {s : LoopState σ} {frames : List Frame} (h : DecInv s.dec (ioBytes s.io) frames) {fuel : ℕ}
    (hfuel : readWeight s.dec s.io + 1 < fuel) :
    ∃ s' frames', ioReadEvent mem fuel bus handle s = some s' ∧
    DecInv s'.dec (ioBytes s'.io) frames' ∧
      readWeight s'.dec s'.io ≤ readWeight s.dec s.io := by
  have hagain : ∀ t t', LoopInv (readWeight s.dec s.io) t →
      readLoopStep mem fuel bus handle t = .again t' →
      LoopInv (readWeight s.dec s.io) t' ∧ readWeight t'.dec t'.io < readWeight t.dec t.io := by
    rintro t t' ⟨⟨fs, hinv⟩, hle⟩ hstep
    obtain ⟨⟨r, d', io'⟩, hread, -, -, hres⟩ :=
      packetDecoderRead_spec mem (bus t.env) hinv
        (lt_of_le_of_lt (Nat.add_le_add_right hle 1) hfuel)
    unfold readLoopStep at hstep
    simp only [hread] at hstep
    cases r with
    | error e => cases hstep
    | ok info =>
      obtain ⟨f, fs', -, -, hinv', hless⟩ := hres
      simp only at hstep
      split at hstep
      · cases hstep
        exact ⟨⟨⟨fs', hinv'⟩, le_trans hless.le hle⟩, hless⟩
      · cases hstep
  have hdone : ∀ t r, LoopInv (readWeight s.dec s.io) t →
      readLoopStep mem fuel bus handle t = .done r →
      ∃ s', r = some s' ∧ LoopInv (readWeight s.dec s.io) s' := by
    rintro t r ⟨⟨fs, hinv⟩, hle⟩ hstep
    obtain ⟨⟨r', d', io'⟩, hread, -, hweight, hres⟩ :=
      packetDecoderRead_spec mem (bus t.env) hinv
        (lt_of_le_of_lt (Nat.add_le_add_right hle 1) hfuel)
    unfold readLoopStep at hstep
    simp only [hread] at hstep
    cases r' with
    | error e =>
      obtain ⟨fs', -, hinv', -⟩ := hres
      cases hstep
      exact ⟨_, rfl, ⟨fs', hinv'⟩, le_trans hweight hle⟩
    | ok info =>
      obtain ⟨f, fs', -, -, hinv', -⟩ := hres
      simp only at hstep
      split at hstep
      · cases hstep
      · cases hstep
        exact ⟨_, rfl, ⟨fs', hinv'⟩, le_trans hweight hle⟩
  have hmeasure : readWeight s.dec s.io < fuel := by omega
  obtain ⟨r, hloop, s', rfl, ⟨frames', hinv⟩, hle⟩ :=
    loop_of_measure hagain hdone ⟨⟨frames, h⟩, le_rfl⟩ hmeasure
  exact ⟨s', frames', by rw [ioReadEvent, hloop]; rfl, hinv, hle⟩

/-- Read events in a row all come to an end on a framed stream. -/
lemma ioReadEvents_spec (mem : Realloc) (bus : σ → Bus) (handle : PacketInfo → σ → Bool × σ)
    (changes : List (σ → σ)) {s : LoopState σ} {frames : List Frame}
    (h : DecInv s.dec (ioBytes s.io) frames) {fuel : ℕ} (hfuel : readWeight s.dec s.io + 1 < fuel) :
    ∃ s', ioReadEvents mem fuel bus handle changes s = some s' := by
  induction changes generalizing s frames with
  | nil => exact ⟨s, rfl⟩
  | cons f fs ih =>
    obtain ⟨s', frames', hread, hinv, hle⟩ :=
      ioReadEvent_spec mem bus handle (s := { s with env := f s.env }) h hfuel
    obtain ⟨s'', hrest⟩ := ih hinv (by simp only at hle; omega)
    refine ⟨s'', ?_⟩
    rw [ioReadEvents, hread]
    exact hrest

/-- A decoder on a new connection holds nothing yet, and begins at the read position of its buffer.
-/
lemma packetDecoderInit_inv {b : Buffer} (hsize : 0 < b.size) {s : List UInt8} {frames : List Frame}
    (h : Framed (s.drop b.pos) frames) : DecInv (packetDecoderInit b) s frames :=
  ⟨Nat.zero_le _, hsize, Or.inl ⟨rfl, h⟩⟩

/-- A decoder whose buffer has no room at all. -/
structure Decoder.NoRoom (d : Decoder) : Prop where
  hdrValid : d.hdrValid = false
  size : d.buf.size = 0
  length : d.buf.length = 0

/-- Nothing can be read without room. -/
lemma Decoder.NoRoom.packetDecoderRead {d : Decoder} (h : d.NoRoom) (mem : Realloc) (bus : Bus)
    (io : List ReadEvent) {fuel : ℕ} (hfuel : 1 < fuel) :
    ∃ d', packetDecoderRead mem bus fuel d io = some (.error .einval, d', io) ∧ d'.NoRoom := by
  obtain ⟨n, rfl⟩ : ∃ n, fuel = n + 2 := ⟨fuel - 2, by omega⟩
  have hok : d.buf.Ok := h.length.trans_le (Nat.zero_le _)
  have hnil : d.buf.content = [] := by rw [Buffer.content, h.length, List.take_zero]
  obtain ⟨d', hsearch, hvalid, -, hok', hsize, -⟩ := packetDecodeHeader_misses hok fun j _ => by
    rw [hnil, List.drop_nil]
    exact headerOf_eq_none_of_length_lt (Nat.succ_pos _)
  have hsize' : d'.buf.size = 0 := hsize.trans h.size
  have hlength : d'.buf.length = 0 := Nat.le_zero.mp (hok'.trans_eq hsize')
  have hroom : readLength d'.buf = 0 := by
    rw [readLength, hsize', hlength]
    rfl
  have hfirst : decoderStep mem bus ⟨false, d, io⟩ = .again ⟨true, d', io⟩ := by
    simp [decoderStep, lookForPacket, h.hdrValid, hsearch]
  have hsecond : decoderStep mem bus ⟨true, d', io⟩ = .done (.error .einval, d', io) := by
    simp [decoderStep, ioRead, hroom]
  refine ⟨d', ?_, hvalid.trans h.hdrValid, hsize', hlength⟩
  rw [Obus.packetDecoderRead, loop_succ_again hfirst, loop_succ_done hsecond]

/-- Without room every read event ends at once. -/
lemma Decoder.NoRoom.ioReadEvents (mem : Realloc) (bus : σ → Bus)
    (handle : PacketInfo → σ → Bool × σ)
    (changes : List (σ → σ)) {s : LoopState σ} (h : s.dec.NoRoom) {fuel : ℕ} (hfuel : 1 < fuel) :
    ∃ s', ioReadEvents mem fuel bus handle changes s = some s' := by
  induction changes generalizing s with
  | nil => exact ⟨s, rfl⟩
  | cons f fs ih =>
    obtain ⟨d', hread, hd'⟩ := h.packetDecoderRead mem (bus (f s.env)) s.io hfuel
    obtain ⟨s', hrest⟩ := ih (s := ⟨d', s.io, f s.env⟩) hd'
    obtain ⟨n, rfl⟩ : ∃ n, fuel = n + 1 := ⟨fuel - 1, by omega⟩
    have hstep : readLoopStep mem (n + 1) bus handle { s with env := f s.env } =
        .done (some ⟨d', s.io, f s.env⟩) := by
      simp [readLoopStep, hread]
    refine ⟨s', ?_⟩
    rw [Obus.ioReadEvents, ioReadEvent, loop_succ_done hstep]
    exact hrest

/-- If cutting the received bytes at their headers, from the read position of the buffer on, meets
no header of size 0, every call of `obus_packet_decoder_read` and every read loop of a peer or a
client around it ends within a number of rounds that the number of bytes bounds, whatever the
handlers do.  Taking a packet out removes a byte exactly when its header does not say 0. -/
theorem read_loops_return (σ : Type) (mem : Realloc) (bus : σ → Bus)
    (handle : PacketInfo → σ → Bool × σ)
    (changes : List (σ → σ)) (b : Buffer) (io : List ReadEvent) (env : σ) (fuel : ℕ)
    (hmeets : ¬ MeetsEmptyHeader ((ioBytes io).drop b.pos))
    (hfuel : 3 * (ioBytes io).length + 1 < fuel) :
    (∃ s', ioReadEvents mem fuel bus handle changes ⟨packetDecoderInit b, io, env⟩ = some s') ∧
      ∀ (bus : Bus) (st : ReadState), st.dec.buf.Ok → pktHdrSize ≤ st.dec.buf.length →
        ∃ d', (takePacket bus st = .again { st with dec := d' } ∨
            ∃ r, takePacket bus st = .done (r, d', st.io)) ∧
          (d'.buf.length < st.dec.buf.length ↔ st.dec.hdr.size ≠ 0) := by
  constructor
  · by_cases hsize : b.size = 0
    · have hroom : (packetDecoderInit b).NoRoom := ⟨rfl, hsize, rfl⟩
      exact Decoder.NoRoom.ioReadEvents mem bus handle changes (s := ⟨_, io, env⟩) hroom (by omega)
    obtain ⟨frames, hframed⟩ := framed_of_not_meetsEmptyHeader hmeets
    refine ioReadEvents_spec mem bus handle changes
      (packetDecoderInit_inv (Nat.pos_of_ne_zero hsize) hframed) ?_
    simpa [readWeight, packetDecoderInit, bufferClear] using hfuel
  · intro bus st hok hlen
    obtain ⟨d', hout, hlength⟩ := takePacket_length bus st hok
    refine ⟨d', hout, ?_⟩
    change 9 ≤ _ at hlen
    have hzero : st.dec.hdr.size ≠ 0 ↔ st.dec.hdr.size.toNat ≠ 0 := by
      rw [Ne, ← UInt32.toNat_inj]
      rfl
    rw [hlength, hzero]
    omega

/-- The bytes of an acknowledgement. -/
def ackBytes : List UInt8 := [111, 98, 117, 115, 0, 0, 0, 12, 7, 0, 5, 1]

/-- A header of an acknowledgement with size 0. -/
def emptyHeader : List UInt8 := [111, 98, 117, 115, 0, 0, 0, 0, 7]

/-- A new buffer of sixteen bytes. -/
def smallBuffer : Buffer := ⟨List.replicate 16 0, 0, 0⟩

lemma framed_ackBytes : Framed ackBytes [⟨.ack, ackBytes⟩] := by
  have hrest : Framed [] [] := .idle fun i => headerOf_eq_none_of_length_lt (by simp)
  have hframe : Framed ([] ++ (ackBytes ++ [])) [⟨.ack, ackBytes⟩] :=
    .frame (f := ⟨.ack, ackBytes⟩) (by simp) (by decide) (by decide) (by decide) hrest
  exact hframe

/-- A buffer that was used before is read from behind the header of size 0. -/
theorem read_loops_return_ack :
    ∃ s', ioReadEvents zeroMem 100 (fun _ : Unit => sampleBus) (fun _ _ => (true, ())) [id, id]
      ⟨packetDecoderInit { smallBuffer with pos := 9 }, [.data (emptyHeader ++ ackBytes)], ()⟩ =
        some s' :=
  (read_loops_return Unit zeroMem _ _ [id, id] { smallBuffer with pos := 9 }
    [.data (emptyHeader ++ ackBytes)] () 100 (fun h => h.not_framed _ framed_ackBytes)
      (by decide)).1

/-- The decoder that has received the header of size 0 and nothing else. -/
def stuckDecoder : Decoder :=
  ⟨⟨obusMagic, 0, 7⟩, false, ⟨emptyHeader ++ List.replicate 7 0, 9, 0⟩⟩

theorem empty_header_never_returns :
    packetDecoderRead zeroMem sampleBus 3 (packetDecoderInit smallBuffer) [.data emptyHeader] =
        some (.error .eagain, stuckDecoder, []) ∧
      ∀ fuel, packetDecoderRead zeroMem sampleBus fuel stuckDecoder [] = none := by
  refine ⟨by decide, fun fuel => ?_⟩
  refine loop_eq_none (I := fun st => st = ⟨false, stuckDecoder, []⟩) ?_ rfl fuel
  rintro st rfl
  exact ⟨_, rfl, rfl⟩

end Obus
