import Obus.Lib.Run
import Obus.Streams

/-!
# Earlier connections

A new connection should not depend on earlier ones.  Their decoders take buffers from a common pool
and give them back, cleared but with the read position that they had (`Buffers`).  As long as no
decoder is given up between the header and the end of a packet, every buffer of the pool is like new
(`poolPeek_like_new`).
-/

namespace Obus

/-- `obus_buffer_new`: a block of `n` uninitialised bytes. -/
def bufferNew (n : ℕ) (fill : ℕ → UInt8) : Buffer := ⟨(List.range n).map fill, 0, 0⟩

/-- `obus_buffer_pool_peek`: the first free buffer, or a new one. -/
def poolPeek (n : ℕ) (fill : ℕ → UInt8) : List Buffer → Buffer × List Buffer
  | [] => (bufferNew n fill, [])
  | b :: free => (b, free)

/-- The buffers of a server or of a client: the free ones of the pool, those of the decoders of the
open connections, and those that hold packets to be sent. -/
structure Buffers where
  free : List Buffer
  decoders : List Decoder
  sending : List Buffer

/-- What happens to these buffers. -/
inductive BufferOp where
  /-- A connection is opened: `obus_server_accept` or `obus_client_socket_connected`. -/
  | connect (fill : ℕ → UInt8)
  /-- A decoder reads a packet, on any bus and from any input. -/
  | read (i : ℕ) (mem : Realloc) (bus : Bus) (fuel : ℕ) (io : List ReadEvent)
  /-- A connection is closed. -/
  | disconnect (i : ℕ)
  /-- A packet is encoded to be sent. -/
  | encode (fill : ℕ → UInt8) (mem : Realloc) (p : Enc Unit)
  /-- A packet has been sent, or is given up. -/
  | sent (i : ℕ)

/-- The effect on the buffers, with a pool of buffers of `n` bytes.  A buffer is given back to the
end of the free list. -/
def BufferOp.step (n : ℕ) (s : Buffers) : BufferOp → Option Buffers
  | .connect fill =>
    let (b, free) := poolPeek n fill s.free
    some { s with free := free, decoders := s.decoders ++ [packetDecoderInit b] }
  | .read i mem bus fuel io => do
    let d ← s.decoders[i]?
    let (_, d', _) ← packetDecoderRead mem bus fuel d io
    some { s with decoders := s.decoders.set i d' }
  | .disconnect i => do
    let d ← s.decoders[i]?
    some { s with free := s.free ++ [packetDecoderDestroy d], decoders := s.decoders.eraseIdx i }
  | .encode fill mem p =>
    let (b, free) := poolPeek n fill s.free
    some { s with free := free, sending := s.sending ++ [(p.on mem b).2] }
  | .sent i => do
    let b ← s.sending[i]?
    some { s with free := s.free ++ [b], sending := s.sending.eraseIdx i }

/-- A connection is not closed between the header and the end of a packet. -/
def BufferOp.Clean (s : Buffers) : BufferOp → Prop
  | .disconnect i => ∀ d ∈ s.decoders[i]?, d.hdrValid = false
  | _ => True

/-- A buffer at its start with at least `n` bytes. -/
def Buffer.LikeNew (n : ℕ) (b : Buffer) : Prop := b.pos = 0 ∧ n ≤ b.size

/-- A decoder outside its calls: it stands at the start of the buffer, or behind the header that it
has read. -/
structure Decoder.Settled (n : ℕ) (d : Decoder) : Prop where
  ok : d.buf.Ok
  size : n ≤ d.buf.size
  pos : d.buf.pos = if d.hdrValid then pktHdrSize else 0

/-- The search for a header settles the decoder. -/
lemma Decoder.Settled.packetDecodeHeader {n : ℕ} {d : Decoder} (h : d.Settled n)
    (hvalid : d.hdrValid = false) :
    (packetDecodeHeader d).2.Settled n ∧ (packetDecodeHeader d).2.hdrValid =
      (packetDecodeHeader d).1 := by
  have hpos : d.buf.pos = 0 := by
    rw [h.pos, hvalid]
    rfl
  by_cases hall : ∀ i, headerOf (d.buf.content.drop i) = none
  · obtain ⟨d', hrun, hvalid', hpos', hok', hsize', -⟩ := packetDecodeHeader_missing h.ok hpos hall
    rw [hrun]
    refine ⟨⟨hok', hsize' ▸ h.size, ?_⟩, hvalid'.trans hvalid⟩
    rw [hpos', hvalid', hvalid]
    rfl
  · push Not at hall
    classical
    obtain ⟨⟨size, type⟩, hsome⟩ := Option.ne_none_iff_exists'.mp (Nat.find_spec hall)
    obtain ⟨d', hrun, hvalid', -, -, hpos', hok', hsize', -⟩ := packetDecodeHeader_found h.ok hpos
      (fun j hj => not_not.mp (Nat.find_min hall hj)) hsome
    rw [hrun]
    refine ⟨⟨hok', hsize' ▸ h.size, ?_⟩, hvalid'⟩
    rw [hpos', hvalid']
    rfl

/-- Taking a packet out puts the decoder back to the start of the buffer. -/
lemma takePacket_settled {n : ℕ} (bus : Bus) (st : ReadState) (hok : st.dec.buf.Ok)
    (hsize : n ≤ st.dec.buf.size) :
    (∀ st', takePacket bus st = .again st' → st'.dec.Settled n) ∧
      ∀ r, takePacket bus st = .done r → r.2.1.Settled n := by
  have hbuf : ∀ b' : Buffer, b'.data = st.dec.buf.data → b'.length = st.dec.buf.length →
      Decoder.Settled n { st.dec with hdrValid := false, buf :=
        (bufferSetReadPosition 0 (bufferRemoveFirst st.dec.hdr.size.toNat b')).2 } := by
    intro b' hdata hlen
    have hok' : b'.Ok := by
      rw [Buffer.Ok, Buffer.size, hdata, hlen]
      exact hok
    obtain ⟨-, hokR, hsizeR, -⟩ := bufferRemoveFirst_content hok' st.dec.hdr.size.toNat
    rw [bufferSetReadPosition, if_neg (Nat.not_lt_zero _)]
    refine ⟨hokR, ?_, rfl⟩
    change n ≤ (bufferRemoveFirst st.dec.hdr.size.toNat b').size
    rw [hsizeR, Buffer.size, hdata]
    exact hsize
  unfold takePacket
  cases PacketType.ofCode? st.dec.hdr.type with
  | none =>
    refine ⟨?_, by simp⟩
    rintro st' hst'
    cases hst'
    exact hbuf _ rfl rfl
  | some type =>
    obtain ⟨hdata, hlen⟩ := Dec.on_frame (packetDecode bus type) st.dec.buf
    rcases hrun : (packetDecode bus type).on st.dec.buf with ⟨ret, b'⟩
    rw [hrun] at hdata hlen
    simp only [hrun]
    cases ret with
    | ok info =>
      refine ⟨by simp, ?_⟩
      rintro r hr
      cases hr
      exact hbuf b' hdata hlen
    | error e =>
      refine ⟨?_, by simp⟩
      rintro st' hst'
      cases hst'
      exact hbuf b' hdata hlen

/-- The rest of a round settles the decoder. -/
lemma lookForPacket_settled {n : ℕ} (bus : Bus) {st : ReadState} (h : st.dec.Settled n) :
    (∀ st', lookForPacket bus st = .again st' → st'.dec.Settled n) ∧
      ∀ r, lookForPacket bus st = .done r → r.2.1.Settled n := by
  obtain ⟨valid, d, hsearch, hd⟩ : ∃ valid d,
      (if st.dec.hdrValid then (true, st.dec) else packetDecodeHeader st.dec) = (valid, d) ∧
        d.Settled n := by
    cases hvalid : st.dec.hdrValid with
    | true => exact ⟨true, st.dec, rfl, h⟩
    | false => exact ⟨_, _, rfl, (h.packetDecodeHeader hvalid).1⟩
  unfold lookForPacket
  simp only [hsearch]
  split
  · refine ⟨?_, by simp⟩
    rintro st' hst'
    cases hst'
    exact hd
  · exact takePacket_settled bus { st with dec := d } hd.ok hd.size

/-- A read leaves the decoder settled. -/
lemma Decoder.Settled.ioRead {n : ℕ} {d : Decoder} (h : d.Settled n) (mem : Realloc) (size : ℕ)
    (io : List ReadEvent) : Decoder.Settled n { d with buf := (ioRead mem size d.buf io).2.1 } := by
  rcases ioRead_cases mem size h.ok io with
    ⟨e, buf', io', hread, hok', -, hpos, -, hsz, -⟩ | ⟨got, buf', io', hread, hok', -, hpos,
      -, hsz, -⟩
  · rw [hread]
    exact ⟨hok', le_trans h.size hsz, hpos.trans h.pos⟩
  · rw [hread]
    exact ⟨hok', le_trans h.size hsz, hpos.trans h.pos⟩

/-- A call of the decoder that returns leaves it settled, whatever it has read. -/
lemma Decoder.Settled.packetDecoderRead {n : ℕ} {d : Decoder} (h : d.Settled n) {mem : Realloc}
    {bus : Bus} {fuel : ℕ} {io : List ReadEvent}
    {r : Except Errno PacketInfo × Decoder × List ReadEvent}
    (hread : packetDecoderRead mem bus fuel d io = some r) : r.2.1.Settled n := by
  refine loop_invariant (I := fun st => st.dec.Settled n)
    (Q := fun r => r.2.1.Settled n) ?_ ?_ h hread
  · intro st st' hst hstep
    unfold decoderStep at hstep
    split at hstep
    · have hio := hst.ioRead mem (readLength st.dec.buf) st.io
      rcases hread : Obus.ioRead mem (readLength st.dec.buf) st.dec.buf st.io with ⟨e | k, buf, io'⟩
        <;> rw [hread] at hio hstep
      · cases hstep
      · cases k with
        | zero => cases hstep
        | succ k => exact (lookForPacket_settled bus hio).1 st' hstep
    · exact (lookForPacket_settled bus hst).1 st' hstep
  · intro st r hst hstep
    unfold decoderStep at hstep
    split at hstep
    · have hio := hst.ioRead mem (readLength st.dec.buf) st.io
      rcases hread : Obus.ioRead mem (readLength st.dec.buf) st.dec.buf st.io with ⟨e | k, buf, io'⟩
        <;> rw [hread] at hio hstep
      · cases hstep
        exact hio
      · cases k with
        | zero =>
          cases hstep
          exact hio
        | succ k => exact (lookForPacket_settled bus hio).2 r hstep
    · exact (lookForPacket_settled bus hst).2 r hstep

/-- Writing to a block never makes it smaller. -/
lemma Buffer.size_le_store (b : Buffer) (offset : ℕ) (bs : List UInt8) :
    b.size ≤ (b.store offset bs).size := by
  simp only [Buffer.size, Buffer.store, List.length_append, List.length_take, List.length_drop]
  omega

lemma bufferEnsureRealloc_frame (mem : Realloc) (size : ℕ) (b : Buffer) :
    (bufferEnsureRealloc mem size b).2.pos = b.pos ∧
    b.size ≤ (bufferEnsureRealloc mem size b).2.size := by
  rcases bufferEnsureRealloc_cases mem size b with ⟨tail, h, -⟩ | ⟨h, -⟩
  · rw [h]
    exact ⟨rfl, by simp [Buffer.size]⟩
  · rw [h]
    exact ⟨rfl, le_rfl⟩

lemma bufferAppend_frame (mem : Realloc) (bs : List UInt8) (b : Buffer) :
    (bufferAppend mem bs b).2.pos = b.pos ∧ b.size ≤ (bufferAppend mem bs b).2.size := by
  obtain ⟨hpos, hsize⟩ := bufferEnsureRealloc_frame mem (b.length + bs.length) b
  unfold bufferAppend
  generalize bufferEnsureRealloc mem (b.length + bs.length) b = r at hpos hsize ⊢
  obtain ⟨_ | ⟨⟩, b'⟩ := r
  · exact ⟨hpos, hsize⟩
  · exact ⟨hpos, le_trans hsize (b'.size_le_store _ _)⟩

lemma bufferWriteAt_frame (mem : Realloc) (bs : List UInt8) (offset : ℕ) (b : Buffer) :
    (bufferWriteAt mem bs offset b).2.pos = b.pos ∧
    b.size ≤ (bufferWriteAt mem bs offset b).2.size := by
  obtain ⟨hpos, hsize⟩ := bufferEnsureRealloc_frame mem (offset + bs.length) b
  unfold bufferWriteAt
  generalize bufferEnsureRealloc mem (offset + bs.length) b = r at hpos hsize ⊢
  obtain ⟨_ | ⟨⟩, b'⟩ := r
  · exact ⟨hpos, hsize⟩
  · exact ⟨hpos, le_trans hsize (b'.size_le_store _ _)⟩

lemma bufferReserve_frame (mem : Realloc) (length : ℕ) (b : Buffer) :
    (bufferReserve mem length b).2.pos = b.pos ∧ b.size ≤ (bufferReserve mem length b).2.size := by
  obtain ⟨hpos, hsize⟩ := bufferEnsureRealloc_frame mem (b.length + length) b
  unfold bufferReserve
  generalize bufferEnsureRealloc mem (b.length + length) b = r at hpos hsize ⊢
  obtain ⟨_ | ⟨⟩, b'⟩ := r
  · exact ⟨hpos, hsize⟩
  · exact ⟨hpos, hsize⟩

lemma bufferAppendString_frame (mem : Realloc) (str : Option CString) (b : Buffer) :
    (bufferAppendString mem str b).2.pos = b.pos ∧
    b.size ≤ (bufferAppendString mem str b).2.size := by
  unfold bufferAppendString
  generalize CString.memory str = bytes
  simp only
  generalize UInt32.ofNat bytes.length = size
  obtain ⟨hpos, hsize⟩ := bufferEnsureRealloc_frame mem (b.length + (size + 4).toNat) b
  generalize bufferEnsureRealloc mem (b.length + (size + 4).toNat) b = r at hpos hsize ⊢
  obtain ⟨_ | ⟨⟩, b'⟩ := r
  · exact ⟨hpos, hsize⟩
  · obtain ⟨hpos', hsize'⟩ := bufferAppend_frame mem (bigEndian 4 size.toNat) b'
    simp only
    split
    · obtain ⟨hpos'', hsize''⟩ := bufferAppend_frame mem (bytes.take size.toNat)
        (bufferAppend mem (bigEndian 4 size.toNat) b').2
      exact ⟨hpos''.trans (hpos'.trans hpos), le_trans hsize (le_trans hsize' hsize'')⟩
    · exact ⟨hpos'.trans hpos, le_trans hsize hsize'⟩

/-- Encoding does not move the read position. -/
lemma Enc.on_likeNew {n : ℕ} {b : Buffer} (h : b.LikeNew n) (mem : Realloc) (p : Enc Unit) :
    (p.on mem b).2.LikeNew n := by
  have hframe : ∀ (o : WriteOp) (c : Buffer),
      (writeHandler mem o c).2.pos = c.pos ∧ c.size ≤ (writeHandler mem o c).2.size := by
    intro o c
    cases o with
    | clear | length => exact ⟨rfl, le_rfl⟩
    | reserve length => exact bufferReserve_frame mem length c
    | appendU8 v | appendU16 v | appendU32 v | appendU64 v => exact bufferAppend_frame mem _ c
    | appendString str => exact bufferAppendString_frame mem str c
    | writeU8 v offset | writeU32 v offset => exact bufferWriteAt_frame mem _ offset c
  refine Prog.run_invariant (writeHandler mem) (I := Buffer.LikeNew n) ?_ p h
  rintro o c ⟨hpos, hsize⟩
  exact ⟨(hframe o c).1.trans hpos, le_trans hsize (hframe o c).2⟩

/-- Every buffer that is not in use by a decoder is like new, and every decoder is settled. -/
structure Buffers.Inv (n : ℕ) (s : Buffers) : Prop where
  free : ∀ b ∈ s.free, b.LikeNew n
  decoders : ∀ d ∈ s.decoders, d.Settled n
  sending : ∀ b ∈ s.sending, b.LikeNew n

lemma bufferNew_likeNew (n : ℕ) (fill : ℕ → UInt8) : (bufferNew n fill).LikeNew n :=
  ⟨rfl, by simp [bufferNew, Buffer.size]⟩

lemma poolPeek_likeNew {n : ℕ} {free : List Buffer} (h : ∀ b ∈ free, b.LikeNew n)
    (fill : ℕ → UInt8) :
    (poolPeek n fill free).1.LikeNew n ∧ ∀ b ∈ (poolPeek n fill free).2, b.LikeNew n := by
  cases free with
  | nil => exact ⟨bufferNew_likeNew n fill, by simp [poolPeek]⟩
  | cons b free => exact ⟨h b List.mem_cons_self, fun c hc => h c (List.mem_cons_of_mem b hc)⟩

lemma Buffer.LikeNew.settled {n : ℕ} {b : Buffer} (h : b.LikeNew n) :
    (packetDecoderInit b).Settled n :=
  ⟨Nat.zero_le _, h.2, h.1⟩

/-- A decoder that is not inside a packet gives its buffer back like new. -/
lemma Decoder.Settled.destroy {n : ℕ} {d : Decoder} (h : d.Settled n)
    (hvalid : d.hdrValid = false) : (packetDecoderDestroy d).LikeNew n := by
  refine ⟨?_, h.size⟩
  change d.buf.pos = 0
  rw [h.pos, hvalid]
  rfl

/-- Every use of the buffers that closes no connection inside a packet keeps the invariant. -/
lemma Buffers.Inv.step {n : ℕ} {s s' : Buffers} {op : BufferOp} (h : s.Inv n) (hclean : op.Clean s)
    (hstep : op.step n s = some s') : s'.Inv n := by
  have happend : ∀ {α : Type} {P : α → Prop} {l : List α} {a : α}, (∀ x ∈ l, P x) → P a →
      ∀ x ∈ l ++ [a], P x := by
    intro α P l a hl ha x hx
    rcases List.mem_append.mp hx with hx | hx
    · exact hl x hx
    · rw [List.mem_singleton.mp hx]
      exact ha
  cases op with
  | connect fill =>
    obtain ⟨hpeek, hfree⟩ := poolPeek_likeNew h.free fill
    cases hstep
    exact ⟨hfree, happend h.decoders hpeek.settled, h.sending⟩
  | read i mem bus fuel io =>
    obtain ⟨d, hd, hrest⟩ := Option.bind_eq_some_iff.mp hstep
    obtain ⟨⟨r, d', io'⟩, hread, hrest⟩ := Option.bind_eq_some_iff.mp hrest
    cases hrest
    have hd' : d'.Settled n := (h.decoders d (List.mem_of_getElem? hd)).packetDecoderRead hread
    refine ⟨h.free, fun c hc => ?_, h.sending⟩
    rcases List.mem_or_eq_of_mem_set hc with hc | rfl
    · exact h.decoders c hc
    · exact hd'
  | disconnect i =>
    obtain ⟨d, hd, hrest⟩ := Option.bind_eq_some_iff.mp hstep
    cases hrest
    have hbuf := (h.decoders d (List.mem_of_getElem? hd)).destroy (hclean d hd)
    exact ⟨happend h.free hbuf, fun c hc => h.decoders c (List.mem_of_mem_eraseIdx hc), h.sending⟩
  | encode fill mem p =>
    obtain ⟨hpeek, hfree⟩ := poolPeek_likeNew h.free fill
    cases hstep
    exact ⟨hfree, h.decoders, happend h.sending (Enc.on_likeNew hpeek mem p)⟩
  | sent i =>
    obtain ⟨b, hb, hrest⟩ := Option.bind_eq_some_iff.mp hstep
    cases hrest
    exact ⟨happend h.free (h.sending b (List.mem_of_getElem? hb)), h.decoders,
      fun c hc => h.sending c (List.mem_of_mem_eraseIdx hc)⟩

/-- A block that is like new cannot be told from a new one with the same uninitialised bytes. -/
lemma Buffer.LikeNew.init_eq {n : ℕ} {b : Buffer} (h : b.LikeNew n) :
    packetDecoderInit b = packetDecoderInit (bufferNew b.size fun i => b.data.getD i 0) := by
  have hdata : (List.range b.size).map (fun i => b.data.getD i 0) = b.data := by
    refine List.ext_getElem (by simp [Buffer.size]) fun i h₁ h₂ => ?_
    simp [h₂]
  have hpos := h.1
  cases b with
  | mk data length pos =>
    change pos = 0 at hpos
    subst hpos
    simp only [packetDecoderInit, bufferClear, bufferNew, hdata]

/-- The decoder on a buffer like new returns the decodable frames of a framed stream. -/
lemma Buffer.LikeNew.decoderCalls {n : ℕ} (hn : 0 < n) {b : Buffer} (h : b.LikeNew n)
    {mem : Realloc}
    (hmem : ∀ m, mem m ≠ none) {bus : Bus} {frames : List Frame} {io : List ReadEvent}
    (hframed : Framed (ioBytes io) frames) (hlocal : ∀ f ∈ frames, f.Local bus) {fuel k : ℕ}
    (hfuel : 3 * (ioBytes io).length + 1 < fuel) (hk : frames.length + io.length ≤ k) :
    ∃ rs, decoderCalls mem bus fuel k (packetDecoderInit b) io = some rs ∧
      packetsOf rs = decodedOf bus frames := by
  have hinv := packetDecoderInit_inv (s := ioBytes io) (lt_of_lt_of_le hn h.2) (by
    rw [h.1]
    exact hframed)
  have hweight : readWeight (packetDecoderInit b) io + 1 < fuel := by
    simpa [readWeight, packetDecoderInit, bufferClear] using hfuel
  obtain ⟨rs, hcalls, -, hall⟩ := decoderCalls_spec mem k hinv hlocal hweight
  exact ⟨rs, hcalls, hall hmem hk⟩

/-- After every history of connections none of which was closed between the header and the end of a
packet, a decoder on a buffer from the pool is in the state of a decoder on a new buffer of the same
size, so that it decodes everything as that one would.  On a stream of packets that their own bytes
delimit it returns the same packets, the first one included, as a decoder on a new buffer of the
pool. -/
theorem reused_buffer_like_new (n : ℕ) (hn : 0 < n) (ops : List BufferOp) (s : Buffers)
    (hclean : MeetsAll (BufferOp.step n) BufferOp.Clean ops ⟨[], [], []⟩)
    (hrun : runs (BufferOp.step n) ops ⟨[], [], []⟩ = some s) (fill : ℕ → UInt8) :
    (∃ fill', packetDecoderInit (poolPeek n fill s.free).1 =
        packetDecoderInit (bufferNew (poolPeek n fill s.free).1.size fill')) ∧
      ∀ (fill' : ℕ → UInt8) (mem : Realloc) (bus : Bus) (frames : List Frame) (io : List ReadEvent)
        (fuel k : ℕ), (∀ m, mem m ≠ none) → Framed (ioBytes io) frames →
        (∀ f ∈ frames, f.Local bus) →
        3 * (ioBytes io).length + 1 < fuel → frames.length + io.length ≤ k →
        ∃ rs rs', decoderCalls mem bus fuel k (packetDecoderInit (poolPeek n fill s.free).1)
          io = some rs ∧
          decoderCalls mem bus fuel k (packetDecoderInit (bufferNew n fill')) io = some rs' ∧
          packetsOf rs = packetsOf rs' ∧ packetsOf rs = decodedOf bus frames := by
  have hinit : Buffers.Inv n ⟨[], [], []⟩ := ⟨by simp, by simp, by simp⟩
  have hinv : s.Inv n := runs_invariant (I := Buffers.Inv n)
    (fun _ _ _ h hc hs => h.step hc hs) hinit
    hclean hrun
  have hpeek := (poolPeek_likeNew hinv.free fill).1
  refine ⟨⟨_, hpeek.init_eq⟩, ?_⟩
  intro fill' mem bus frames io fuel k hmem hframed hlocal hfuel hk
  obtain ⟨rs, hcalls, hrs⟩ := hpeek.decoderCalls hn hmem hframed hlocal hfuel hk
  obtain ⟨rs', hcalls', hrs'⟩ :=
    (bufferNew_likeNew n fill').decoderCalls hn hmem hframed hlocal hfuel hk
  exact ⟨rs, rs', hcalls, hcalls', hrs.trans hrs'.symm, hrs⟩

/-- The calls of a decoder on the next buffer of the pool that receives the request of a client. -/
def nextRequest (s : Buffers) : Option (List (Except Errno PacketInfo)) :=
  decoderCalls zeroMem sampleBus 100 2 (packetDecoderInit (poolPeek 1024 (fun _ => 0) s.free).1)
    [.data (requestOf (some (nameOf 1))).bytes]

/-- A connection that is closed after an acknowledgement. -/
def ackHistory : List BufferOp :=
  [.connect fun _ => 0, .read 0 zeroMem sampleBus 50 [.data ackBytes], .disconnect 0]

theorem reused_buffer_like_new_ack :
    ∃ s rs rs', runs (BufferOp.step 1024) ackHistory ⟨[], [], []⟩ = some s ∧
    nextRequest s = some rs ∧
      decoderCalls zeroMem sampleBus 100 2 (packetDecoderInit (bufferNew 1024 fun _ => 0))
        [.data (requestOf (some (nameOf 1))).bytes] = some rs' ∧ packetsOf rs = packetsOf rs' ∧
      packetsOf rs = [requestOf (some (nameOf 1))] := by
  have hok : (requestOf (some (nameOf 1))).Ok := ⟨rfl, by decide, by decide⟩
  obtain ⟨hdecode, hlocal⟩ := Frame.ofPacket_decode sampleBus hok trivial
  have hframed : Framed (ioBytes [.data (requestOf (some (nameOf 1))).bytes])
      [Frame.ofPacket (requestOf (some (nameOf 1)))] := by
    have hrest : Framed [] [] := .idle fun i => headerOf_eq_none_of_length_lt (by simp)
    have hframe : Framed ([] ++ ((requestOf (some (nameOf 1))).bytes ++ []))
        [Frame.ofPacket (requestOf (some (nameOf 1)))] :=
      .frame (f := Frame.ofPacket (requestOf (some (nameOf 1)))) (by simp) (headerOf_bytes _ _)
        (by decide) (by decide) hrest
    exact hframe
  have hclean : MeetsAll (BufferOp.step 1024) BufferOp.Clean ackHistory ⟨[], [], []⟩ := by
    refine ⟨trivial, fun s₁ h₁ => ⟨trivial, fun s₂ h₂ => ⟨fun d hd => ?_, fun _ _ => trivial⟩⟩⟩
    have hs₁ : (BufferOp.step 1024 ⟨[], [], []⟩ (.connect fun _ => 0)).bind
        (fun s => BufferOp.step 1024 s (.read 0 zeroMem sampleBus 50 [.data ackBytes])) =
          some s₂ := by
      rw [h₁]
      exact h₂
    have hvalid : ((BufferOp.step 1024 ⟨[], [], []⟩ (.connect fun _ => 0)).bind
        (fun s => BufferOp.step 1024 s (.read 0 zeroMem sampleBus 50 [.data ackBytes]))).map
        (fun s => s.decoders.all fun d => !d.hdrValid) = some true := by decide +kernel
    rw [hs₁] at hvalid
    simp only [Option.map_some, Option.some.injEq, List.all_eq_true] at hvalid
    simpa using hvalid d (List.mem_of_getElem? hd)
  obtain ⟨s, hs⟩ : ∃ s, runs (BufferOp.step 1024) ackHistory ⟨[], [], []⟩ = some s :=
    Option.isSome_iff_exists.mp (by decide +kernel)
  obtain ⟨-, hcalls⟩ := reused_buffer_like_new 1024 (by decide) ackHistory s hclean hs fun _ => 0
  obtain ⟨rs, rs', h, h', heq, hdec⟩ := hcalls (fun _ => 0) zeroMem sampleBus _
    [.data (requestOf (some (nameOf 1))).bytes] 100 2 (by simp [zeroMem]) hframed
    (fun f hf => by rw [List.mem_singleton.mp hf]; exact hlocal) (by decide) (by decide)
  refine ⟨s, rs, rs', hs, h, h', heq, hdec.trans ?_⟩
  simp only [decodedOf, List.map_cons, List.map_nil, hdecode]
  rfl

/-- A connection that is closed when only the header of its first packet has been received. -/
def cutHistory : List BufferOp :=
  [.connect fun _ => 0, .read 0 zeroMem sampleBus 50 [.data [111, 98, 117, 115, 0, 0, 0, 20, 0]],
    .disconnect 0]

theorem cut_connection_loses_request :
    ((runs (BufferOp.step 1024) cutHistory ⟨[], [], []⟩).bind nextRequest =
        some [.error .eagain, .error .eagain]) ∧
      decoderCalls zeroMem sampleBus 100 2 (packetDecoderInit (bufferNew 1024 fun _ => 0))
        [.data (requestOf (some (nameOf 1))).bytes] =
          some [.ok (requestOf (some (nameOf 1))), .error .eagain] := by
  decide +kernel

end Obus
