import Obus.DecoderLemmas
import Obus.PacketCodec

/-!
# Framing of a byte stream

A byte stream is cut into frames: a frame starts at the first position at which nine bytes form a
header and has the size that this header announces (`Framed`).  The decoder keeps the rest of the
stream, what it has buffered and what is still to come, framed in the same way (`DecInv`); a call
takes frames off it in order, passes over those that do not decode and returns the first that does
(`packetDecoderRead_spec`).  Hence repeated calls return exactly the decodable frames, whatever the
sizes of the reads (`decoderCalls_spec`).

What a frame decodes to is read off the frame alone (`Frame.decode`).  The decoder agrees with it on
every frame whose decoding stays inside the frame (`Frame.Local`).
-/

namespace Obus

open Prog

/-! ## Frames -/

/-- A frame of the stream: the type and the bytes of a packet, its header included. -/
structure Frame where
  type : PacketType
  bytes : List UInt8

namespace Frame

/-- A buffer that holds the frame and nothing else, read up to the end of the header. -/
def buffer (f : Frame) : Buffer := ⟨f.bytes, f.bytes.length, pktHdrSize⟩

/-- What the frame decodes to when nothing follows it. -/
def decode (bus : Bus) (f : Frame) : Except Errno PacketInfo :=
  ((packetDecode bus f.type).on f.buffer).1

/-- Decoding the frame asks for no byte behind it. -/
def Local (bus : Bus) (f : Frame) : Prop :=
  (packetDecode bus f.type).InFrame f.bytes.length f.buffer

instance (bus : Bus) (f : Frame) : Decidable (f.Local bus) :=
  inferInstanceAs (Decidable ((packetDecode bus f.type).InFrame f.bytes.length f.buffer))

/-- The outcome `r` of decoding is what the frame alone decodes to, as long as nothing behind it
matters. -/
def Yields (bus : Bus) (f : Frame) (r : Except Errno PacketInfo) : Prop :=
  f.Local bus → f.decode bus = r

/-- On any buffer that starts with the frame, decoding gives what the frame alone decodes to. -/
lemma Local.on_eq {bus : Bus} {f : Frame} (h : f.Local bus) {b : Buffer} (hok : b.Ok)
    (hpos : b.pos = pktHdrSize) (hle : f.bytes.length ≤ b.length) (hpre : f.bytes <+: b.data) :
    ((packetDecode bus f.type).on b).1 = f.decode bus := by
  have hagree : f.buffer.AgreeOn f.bytes.length b := by
    refine ⟨hpos.symm, ?_, le_rfl, hok, le_rfl, hle⟩
    obtain ⟨t, ht⟩ := hpre
    rw [← ht, List.take_left]
    exact List.take_length
  exact (Dec.on_eq_of_inFrame hagree h).1.symm

end Frame

/-- The stream consists of the given frames with bytes between them at which no header starts; it
may end in the middle of a frame. -/
inductive Framed : List UInt8 → List Frame → Prop where
  /-- No header is left. -/
  | idle {s : List UInt8} (hnone : ∀ i, headerOf (s.drop i) = none) : Framed s []
  /-- The last frame is not complete. -/
  | waiting {junk s : List UInt8} {size : UInt32} {type : PacketType}
      (hnone : ∀ i < junk.length, headerOf ((junk ++ s).drop i) = none)
      (hsome : headerOf s = some (size, type)) (hlt : s.length < size.toNat) : Framed (junk ++ s) []
  /-- A complete frame and what follows it. -/
  | frame {junk rest : List UInt8} {f : Frame} {fs : List Frame}
      (hnone : ∀ i < junk.length, headerOf ((junk ++ (f.bytes ++ rest)).drop i) = none)
      (hsome : headerOf (f.bytes ++ rest) = some (UInt32.ofNat f.bytes.length, f.type))
      (hlt : f.bytes.length < 2 ^ 32) (hpos : 0 < f.bytes.length) (hrest : Framed rest fs) :
      Framed (junk ++ (f.bytes ++ rest)) (f :: fs)

/-- The stream starts with a header of the given size and type: its frame is complete or it ends the
stream. -/
def FramedAt (size : ℕ) (type : PacketType) (s : List UInt8) (frames : List Frame) : Prop :=
  (s.length < size ∧ frames = []) ∨
    ∃ f rest fs, s = f.bytes ++ rest ∧ f.bytes.length = size ∧ f.type = type ∧
      0 < f.bytes.length ∧ Framed rest fs ∧ frames = f :: fs

/-- The first header of a stream that is not in the first `k` bytes is behind them. -/
private lemma le_of_first {s : List UInt8} {k n : ℕ} {p : UInt32 × PacketType}
    (hk : ∀ i < k, headerOf (s.drop i) = none) (hn : headerOf (s.drop n) = some p) : k ≤ n := by
  by_contra hlt
  rw [hk n (by omega)] at hn
  cases hn

/-- Bytes before the first header may be dropped. -/
lemma Framed.drop {s : List UInt8} {frames : List Frame} (h : Framed s frames) {k : ℕ}
    (hk : ∀ i < k, headerOf (s.drop i) = none) : Framed (s.drop k) frames := by
  cases h with
  | idle hnone =>
    refine .idle fun i => ?_
    rw [List.drop_drop]
    exact hnone _
  | @waiting junk s size type hnone hsome hlt =>
    have hle : k ≤ junk.length := le_of_first hk (by rw [List.drop_left]; exact hsome)
    rw [List.drop_append_of_le_length hle]
    refine .waiting (fun i hi => ?_) hsome hlt
    rw [← List.drop_append_of_le_length hle, List.drop_drop]
    rw [List.length_drop] at hi
    exact hnone _ (by omega)
  | @frame junk rest f fs hnone hsome hlt hpos' hrest =>
    have hle : k ≤ junk.length := le_of_first hk (by rw [List.drop_left]; exact hsome)
    rw [List.drop_append_of_le_length hle]
    refine .frame (fun i hi => ?_) hsome hlt hpos' hrest
    rw [← List.drop_append_of_le_length hle, List.drop_drop]
    rw [List.length_drop] at hi
    exact hnone _ (by omega)

/-- At the first header the stream starts with the first frame. -/
lemma Framed.at_first {s : List UInt8} {frames : List Frame} (h : Framed s frames) {k : ℕ}
    (hk : ∀ i < k, headerOf (s.drop i) = none) {size : UInt32} {type : PacketType}
    (hsome : headerOf (s.drop k) = some (size, type)) :
    FramedAt size.toNat type (s.drop k) frames := by
  cases h with
  | idle hnone =>
    rw [hnone k] at hsome
    cases hsome
  | @waiting junk s size' type' hnone hsome' hlt =>
    have hle : k ≤ junk.length := le_of_first hk (by rw [List.drop_left]; exact hsome')
    have hge : junk.length ≤ k := le_of_first hnone hsome
    obtain rfl : k = junk.length := le_antisymm hle hge
    rw [List.drop_left] at hsome ⊢
    rw [hsome'] at hsome
    obtain ⟨rfl, rfl⟩ : size' = size ∧ type' = type := by simpa using hsome
    exact Or.inl ⟨hlt, rfl⟩
  | @frame junk rest f fs hnone hsome' hlt hpos' hrest =>
    have hle : k ≤ junk.length := le_of_first hk (by rw [List.drop_left]; exact hsome')
    have hge : junk.length ≤ k := le_of_first hnone hsome
    obtain rfl : k = junk.length := le_antisymm hle hge
    rw [List.drop_left] at hsome ⊢
    rw [hsome'] at hsome
    obtain ⟨rfl, rfl⟩ : UInt32.ofNat f.bytes.length = size ∧ f.type = type := by simpa using hsome
    refine Or.inr ⟨f, rest, fs, rfl, ?_, rfl, hpos', hrest, rfl⟩
    rw [UInt32.toNat_ofNat', Nat.mod_eq_of_lt hlt]

/-! ## The invariant of the decoder -/

/-- The decoder is between two frames or inside one, and what it holds and what is still to come is
framed, from the read position on. -/
structure DecInv (d : Decoder) (bytes : List UInt8) (frames : List Frame) : Prop where
  ok : d.buf.Ok
  size_pos : 0 < d.buf.size
  framed : (d.hdrValid = false ∧ Framed ((d.buf.content ++ bytes).drop d.buf.pos) frames) ∨
    ∃ type, d.hdrValid = true ∧ d.buf.pos = pktHdrSize ∧ d.hdr.type = PacketType.code type ∧
      FramedAt d.hdr.size.toNat type (d.buf.content ++ bytes) frames

/-- Received bytes move from what is to come to what the decoder holds. -/
lemma DecInv.read {d : Decoder} {g bytes : List UInt8} {frames : List Frame}
    (h : DecInv d (g ++ bytes) frames) {buf : Buffer} (hok : buf.Ok)
    (hcont : buf.content = d.buf.content ++ g) (hpos : buf.pos = d.buf.pos)
    (hsize : d.buf.size ≤ buf.size) : DecInv { d with buf := buf } bytes frames := by
  have happ : buf.content ++ bytes = d.buf.content ++ (g ++ bytes) := by
    rw [hcont, List.append_assoc]
  refine ⟨hok, lt_of_lt_of_le h.size_pos hsize, ?_⟩
  simp only [happ, hpos]
  exact h.framed

/-- A header in the bytes that the decoder holds is a header of the stream. -/
private lemma headerOf_drop_append {c bytes : List UInt8} {i : ℕ} {p : UInt32 × PacketType}
    (h : headerOf (c.drop i) = some p) : headerOf ((c ++ bytes).drop i) = some p := by
  have hlen := le_length_of_headerOf h
  have hi : i ≤ c.length := by
    rw [List.length_drop] at hlen
    change 9 ≤ _ at hlen
    omega
  rw [List.drop_append_of_le_length hi, headerOf_append hlen, h]

/-- Where the decoder holds nine bytes without a header, the stream has none. -/
private lemma headerOf_drop_append_none {c bytes : List UInt8} {i : ℕ}
    (hi : i + pktHdrSize ≤ c.length)
    (h : headerOf (c.drop i) = none) : headerOf ((c ++ bytes).drop i) = none := by
  have hlen : pktHdrSize ≤ (c.drop i).length := by
    rw [List.length_drop]
    omega
  rw [List.drop_append_of_le_length (by omega), headerOf_append hlen, h]

/-- The header search keeps the invariant: it ends inside a frame, or between frames with no header
in what the decoder holds. -/
lemma packetDecodeHeader_spec {d : Decoder} {bytes : List UInt8} {frames : List Frame}
    (h : DecInv d bytes frames) (hvalid : d.hdrValid = false) :
    ∃ found d', packetDecodeHeader d = (found, d') ∧ DecInv d' bytes frames ∧ d'.hdrValid = found ∧
      d'.buf.length ≤ d.buf.length ∧ (found = false → bytes = [] → frames = []) := by
  obtain ⟨-, hframed⟩ | ⟨type, hvalid', -⟩ := h.framed
  swap
  · rw [hvalid] at hvalid'
    cases hvalid'
  have hlen : d.buf.content.length = d.buf.length := Buffer.content_length h.ok
  by_cases hall : ∀ i, d.buf.pos ≤ i → headerOf (d.buf.content.drop i) = none
  · -- nothing found: all but the last eight bytes are dropped
    obtain ⟨d', hrun, hvalid', hpos', hok', hsize', hcont'⟩ := packetDecodeHeader_misses h.ok hall
    have hle : d.buf.length - 8 ≤ d.buf.content.length := by omega
    have hframed' : Framed ((d'.buf.content ++ bytes).drop d'.buf.pos) frames := by
      rw [hcont', hpos', ← List.drop_append_of_le_length hle, List.drop_drop]
      have hdrop := hframed.drop (k := d.buf.length - 8 - d.buf.pos) fun i hi => by
        rw [List.drop_drop]
        refine headerOf_drop_append_none ?_ (hall _ (Nat.le_add_right _ _))
        change _ + 9 ≤ _
        omega
      rw [List.drop_drop] at hdrop
      rwa [show d.buf.length - 8 + (d.buf.pos - (d.buf.length - 8)) =
        d.buf.pos + (d.buf.length - 8 - d.buf.pos) by omega]
    refine ⟨false, d', hrun, ⟨hok', hsize' ▸ h.size_pos, Or.inl ⟨?_, hframed'⟩⟩, ?_, ?_, ?_⟩
    · rw [hvalid', hvalid]
    · rw [hvalid', hvalid]
    · rw [← Buffer.content_length hok', hcont', List.length_drop]
      omega
    · intro _ hnil
      rw [hnil, List.append_nil] at hframed
      have hnone : ∀ i, headerOf ((d.buf.content.drop d.buf.pos).drop i) = none := by
        intro i
        rw [List.drop_drop]
        exact hall _ (Nat.le_add_right _ _)
      generalize d.buf.content.drop d.buf.pos = c at hframed hnone
      cases hframed with
      | idle hnone => rfl
      | waiting hnone hsome hlt => rfl
      | @frame junk rest f fs _ hsome hlt hpos' hrest =>
        have hhead := hnone junk.length
        rw [List.drop_left, hsome] at hhead
        cases hhead
  · -- the first header in what the decoder holds is the first header of the stream
    push Not at hall
    obtain ⟨i, ⟨hpos, hi⟩, hfirst⟩ :
        ∃ i, (d.buf.pos ≤ i ∧ headerOf (d.buf.content.drop i) ≠ none) ∧
          ∀ j, d.buf.pos ≤ j → j < i → headerOf (d.buf.content.drop j) = none := by
      classical
      refine ⟨Nat.find hall, Nat.find_spec hall, fun j hpos hj => ?_⟩
      exact not_not.mp fun hsome => Nat.find_min hall hj ⟨hpos, hsome⟩
    obtain ⟨⟨size, type⟩, hsome⟩ := Option.ne_none_iff_exists'.mp hi
    obtain ⟨d', hrun, hvalid', hsize, htype, hpos', hok', hsz, hcont'⟩ :=
      packetDecodeHeader_finds h.ok hpos hfirst hsome
    have hlen' := le_length_of_headerOf hsome
    rw [List.length_drop] at hlen'
    change 9 ≤ _ at hlen'
    have hbefore : ∀ j < i - d.buf.pos,
        headerOf (((d.buf.content ++ bytes).drop d.buf.pos).drop j) = none := by
      intro j hj
      rw [List.drop_drop]
      refine headerOf_drop_append_none ?_ (hfirst _ (Nat.le_add_right _ _) (by omega))
      change _ + 9 ≤ _
      omega
    have hdrop : ((d.buf.content ++ bytes).drop d.buf.pos).drop (i - d.buf.pos) =
        (d.buf.content ++ bytes).drop i := by
      rw [List.drop_drop, Nat.add_sub_cancel' hpos]
    have hat := hframed.at_first hbefore (by rw [hdrop]; exact headerOf_drop_append hsome)
    rw [hdrop, List.drop_append_of_le_length (by omega), ← hcont', ← hsize] at hat
    refine ⟨true, d', hrun, ⟨hok', hsz ▸ h.size_pos, Or.inr ⟨type, hvalid', hpos', htype, hat⟩⟩,
      hvalid', ?_, by simp⟩
    rw [← Buffer.content_length hok', hcont', List.length_drop, Buffer.content_length h.ok]
    omega

/-- A frame at the front of the buffer is taken off it, with the outcome that the frame yields. -/
lemma takePacket_frame (bus : Bus) (st : ReadState) {f : Frame} {rest : List UInt8}
    (hok : st.dec.buf.Ok)
    (hpos : st.dec.buf.pos = pktHdrSize) (htype : st.dec.hdr.type = f.type.code)
    (hsize : f.bytes.length = st.dec.hdr.size.toNat)
    (hcont : st.dec.buf.content = f.bytes ++ rest) :
    ∃ d', d'.buf.Ok ∧ d'.buf.size = st.dec.buf.size ∧ d'.hdrValid = false ∧ d'.buf.pos = 0 ∧
      d'.buf.content = rest ∧
      ((∃ info, f.Yields bus (.ok info) ∧ takePacket bus st = .done (.ok info, d', st.io)) ∨
        ∃ e, f.Yields bus (.error e) ∧ takePacket bus st = .again { st with dec := d' }) := by
  have hlen : f.bytes.length ≤ st.dec.buf.length := by
    rw [← Buffer.content_length hok, hcont, List.length_append]
    omega
  have hdata : f.bytes <+: st.dec.buf.data := by
    refine List.IsPrefix.trans ?_ (List.take_prefix st.dec.buf.length _)
    exact ⟨rest, hcont.symm⟩
  have hcode : PacketType.ofCode? st.dec.hdr.type = some f.type := by
    rw [htype, PacketType.ofCode?_code]
  obtain ⟨hdata', hlength'⟩ := Dec.on_frame (packetDecode bus f.type) st.dec.buf
  -- the buffer after decoding has the same content
  obtain ⟨ret, b', hrun⟩ : ∃ ret b', (packetDecode bus f.type).on st.dec.buf = (ret, b') :=
    ⟨_, _, rfl⟩
  have hout : f.Yields bus ret := by
    intro hlocal
    rw [← hlocal.on_eq hok hpos hlen hdata, hrun]
  rw [hrun] at hdata' hlength'
  change b'.data = _ at hdata'
  change b'.length = _ at hlength'
  have hok' : b'.Ok := by
    rw [Buffer.Ok, Buffer.size, hdata', hlength']
    exact hok
  have hcont' : b'.content = st.dec.buf.content := by
    rw [Buffer.content, hdata', hlength']
    rfl
  obtain ⟨hcontR, hokR, hsizeR, -⟩ := bufferRemoveFirst_content hok' st.dec.hdr.size.toNat
  have hset : ∀ b : Buffer, bufferSetReadPosition 0 b = (.ok (), b.seek 0) := by
    intro b
    rw [bufferSetReadPosition, if_neg (Nat.not_lt_zero _)]
    rfl
  refine ⟨{ st.dec with hdrValid := false, buf :=
      (bufferRemoveFirst st.dec.hdr.size.toNat b').seek 0 }, hokR, ?_, rfl, rfl, ?_, ?_⟩
  · rw [Buffer.seek_size, hsizeR, Buffer.size, hdata']
    rfl
  · rw [Buffer.seek_content, hcontR, hcont', ← hsize, hcont, List.drop_left]
  · unfold takePacket
    simp only [hcode, hrun, hset]
    cases ret with
    | ok info => exact Or.inl ⟨info, hout, rfl⟩
    | error e => exact Or.inr ⟨e, hout, rfl⟩

/-- A complete frame is taken off the front of the stream. -/
lemma takePacket_spec (bus : Bus) (st : ReadState) {bytes : List UInt8} {frames : List Frame}
    (h : DecInv st.dec bytes frames) (hvalid : st.dec.hdrValid = true)
    (hle : st.dec.hdr.size.toNat ≤ st.dec.buf.length) :
    ∃ f fs d', frames = f :: fs ∧ DecInv d' bytes fs ∧ d'.buf.length < st.dec.buf.length ∧
      ((∃ info, f.Yields bus (.ok info) ∧ takePacket bus st = .done (.ok info, d', st.io)) ∨
        ∃ e, f.Yields bus (.error e) ∧ takePacket bus st = .again { st with dec := d' }) := by
  obtain ⟨hvalid', -⟩ | ⟨type, -, hpos, htype, hat⟩ := h.framed
  · rw [hvalid] at hvalid'
    cases hvalid'
  have hclen := Buffer.content_length h.ok
  obtain ⟨hlt, -⟩ | ⟨f, rest, fs, hsplit, hsize, rfl, hne, hrest, rfl⟩ := hat
  · rw [List.length_append, hclen] at hlt
    omega
  have hfle : f.bytes.length ≤ st.dec.buf.content.length := by omega
  obtain ⟨tail, htail⟩ : f.bytes <+: st.dec.buf.content := by
    have hboth : f.bytes <+: st.dec.buf.content ++ bytes := ⟨rest, hsplit.symm⟩
    exact List.prefix_of_prefix_length_le hboth (List.prefix_append _ _) hfle
  have hrest' : rest = tail ++ bytes := by
    rw [← htail, List.append_assoc] at hsplit
    exact (List.append_cancel_left hsplit).symm
  obtain ⟨d', hok', hsize', hvalid', hpos', hcont', hout⟩ := takePacket_frame bus st h.ok hpos htype
    hsize htail.symm
  refine ⟨f, fs, d', rfl, ⟨hok', hsize' ▸ h.size_pos, Or.inl ⟨hvalid', ?_⟩⟩, ?_, hout⟩
  · rw [hcont', ← hrest', hpos', List.drop_zero]
    exact hrest
  · rw [← Buffer.content_length hok', hcont', ← hclen, ← htail, List.length_append]
    omega

/-- The rest of a round after a possible read: more bytes are needed, or the first frame is taken.
-/
lemma lookForPacket_spec (bus : Bus) {st : ReadState} {bytes : List UInt8} {frames : List Frame}
    (h : DecInv st.dec bytes frames) :
    (∃ d', lookForPacket bus st = .again { st with readMore := true, dec := d' } ∧
        DecInv d' bytes frames ∧ d'.buf.length ≤ st.dec.buf.length ∧ (bytes = [] → frames = [])) ∨
      ∃ f fs d', frames = f :: fs ∧ DecInv d' bytes fs ∧
        d'.buf.length < st.dec.buf.length ∧
        ((∃ info, f.Yields bus (.ok info) ∧ lookForPacket bus st = .done (.ok info, d', st.io)) ∨
          ∃ e, f.Yields bus (.error e) ∧ lookForPacket bus st = .again { st with dec := d' }) := by
  obtain ⟨valid, d, hsearch, hinv, hvalid, hlength, hmissing⟩ :
      ∃ valid d, (if st.dec.hdrValid then (true, st.dec) else packetDecodeHeader st.dec) =
        (valid, d) ∧
        DecInv d bytes frames ∧ d.hdrValid = valid ∧ d.buf.length ≤ st.dec.buf.length ∧
        (valid = false → bytes = [] → frames = []) := by
    cases hvalid : st.dec.hdrValid with
    | true => exact ⟨true, st.dec, rfl, h, hvalid, le_rfl, by simp⟩
    | false => exact packetDecodeHeader_spec h hvalid
  unfold lookForPacket
  simp only [hsearch]
  by_cases hwait : valid = false ∨ d.buf.length < d.hdr.size.toNat
  · rw [if_pos hwait]
    refine Or.inl ⟨d, rfl, hinv, hlength, fun hnil => ?_⟩
    rcases hwait with hfalse | hlt
    · exact hmissing hfalse hnil
    · -- the frame is not complete, and nothing more comes
      cases valid with
      | false => exact hmissing rfl hnil
      | true =>
        obtain ⟨hvalid', -⟩ | ⟨type, -, -, -, hat⟩ := hinv.framed
        · rw [hvalid] at hvalid'
          cases hvalid'
        · obtain ⟨-, hframes⟩ | ⟨f, rest, fs, hsplit, hsize, -⟩ := hat
          · exact hframes
          · have hlen := congrArg List.length hsplit
            rw [hnil, List.append_nil, Buffer.content_length hinv.ok, List.length_append] at hlen
            omega
  · rw [if_neg hwait]
    push Not at hwait
    have hvalid' : d.hdrValid = true := by
      rw [hvalid]
      exact Bool.eq_true_of_not_eq_false hwait.1
    obtain ⟨f, fs, d', rfl, hinv', hlen', hout⟩ := takePacket_spec bus { st with dec := d }
      hinv hvalid' hwait.2
    refine Or.inr ⟨f, fs, d', rfl, hinv', ?_, hout⟩
    simp only at hlen'
    omega

/-! ## A call of the decoder -/

/-- The bytes that a decoder may still have to handle, weighted so that both a read and the removal
of a packet decrease it. -/
def readWeight (d : Decoder) (io : List ReadEvent) : ℕ := 3 * (ioBytes io).length + 2 * d.buf.length

/-- The frames of `all` up to the remaining `frames` were passed over because they do not decode. -/
def PassedOver (bus : Bus) (all frames : List Frame) : Prop :=
  ∃ pre, all = pre ++ frames ∧ ∀ f ∈ pre, ∃ e, f.Yields bus (.error e)

lemma PassedOver.refl (bus : Bus) (frames : List Frame) : PassedOver bus frames frames :=
  ⟨[], rfl, by simp⟩

lemma PassedOver.cons {bus : Bus} {all fs : List Frame} {f : Frame}
    (h : PassedOver bus all (f :: fs))
    {e : Errno} (he : f.Yields bus (.error e)) : PassedOver bus all fs := by
  obtain ⟨pre, rfl, hpre⟩ := h
  refine ⟨pre ++ [f], by simp, ?_⟩
  intro g hg
  rcases List.mem_append.mp hg with hg | hg
  · exact hpre g hg
  · rw [List.mem_singleton.mp hg]
    exact ⟨e, he⟩

lemma PassedOver.mem {bus : Bus} {all frames : List Frame} (h : PassedOver bus all frames)
    {f : Frame} (hf : f ∈ frames) : f ∈ all := by
  obtain ⟨pre, rfl, -⟩ := h
  exact List.mem_append_right pre hf

lemma PassedOver.length_le {bus : Bus} {all frames : List Frame} (h : PassedOver bus all frames) :
    frames.length ≤ all.length := by
  obtain ⟨pre, rfl, -⟩ := h
  simp

/-- The invariant of the loop of a call that began with the frames `all` and the reads `io`. -/
structure CallInv (bus : Bus) (all : List Frame) (d : Decoder) (io : List ReadEvent)
    (st : ReadState) (frames : List Frame) : Prop where
  inv : DecInv st.dec (ioBytes st.io) frames
  passed : PassedOver bus all frames
  io_le : st.io.length ≤ io.length
  weight_le : readWeight st.dec st.io ≤ readWeight d io

/-- A read is made only when a frame was passed over, or when no complete frame is there. -/
def ReadNeeded (all : List Frame) (st : ReadState) (frames : List Frame) : Prop :=
  st.readMore = true → ioBytes st.io = [] → frames.length < all.length ∨ frames = []

/-- What a call has done when it returns. -/
def CallResult (mem : Realloc) (bus : Bus) (all : List Frame) (d : Decoder) (io : List ReadEvent)
    (r : Except Errno PacketInfo × Decoder × List ReadEvent) : Prop :=
  r.2.2.length ≤ io.length ∧ readWeight r.2.1 r.2.2 ≤ readWeight d io ∧
    match r.1 with
    | .ok info => ∃ f fs, PassedOver bus all (f :: fs) ∧ f.Yields bus (.ok info) ∧
        DecInv r.2.1 (ioBytes r.2.2) fs ∧ readWeight r.2.1 r.2.2 < readWeight d io
    | .error _ => ∃ frames, PassedOver bus all frames ∧ DecInv r.2.1 (ioBytes r.2.2) frames ∧
        ((∃ n, mem n = none) ∨ r.2.2.length < io.length ∨ frames.length < all.length ∨ frames = [])

/-- The rest of a round keeps the invariant of the loop or ends the call. -/
private lemma lookForPacket_callInv (mem : Realloc) {bus : Bus} {all frames : List Frame}
    {d : Decoder} {io : List ReadEvent} {st : ReadState} (h : CallInv bus all d io st frames) :
    (∀ st', lookForPacket bus st = .again st' →
        (∃ fs, CallInv bus all d io st' fs ∧ ReadNeeded all st' fs) ∧ st'.io = st.io ∧
        2 * st'.dec.buf.length + (if st'.readMore then 0 else 1) ≤ 2 * st.dec.buf.length) ∧
      ∀ r, lookForPacket bus st = .done r → CallResult mem bus all d io r := by
  have hweight := h.weight_le
  simp only [readWeight] at hweight
  rcases lookForPacket_spec bus h.inv with
    ⟨d', hlook, hinv, hlen, hneed⟩ | ⟨f, fs, d', rfl, hinv, hlen, hout⟩
  · rw [hlook]
    refine ⟨?_, by simp⟩
    rintro st' hst'
    cases hst'
    refine ⟨⟨frames, ⟨hinv, h.passed, h.io_le, ?_⟩, fun _ hnil => Or.inr (hneed hnil)⟩, rfl, ?_⟩
    · simp only [readWeight]
      omega
    · simp only [if_true]
      omega
  · rcases hout with ⟨info, hdecode, hlook⟩ | ⟨e, hdecode, hlook⟩
    · rw [hlook]
      refine ⟨by simp, ?_⟩
      rintro r hr
      cases hr
      have hless : readWeight d' st.io < readWeight d io := by
        simp only [readWeight]
        omega
      exact ⟨h.io_le, hless.le, f, fs, h.passed, hdecode, hinv, hless⟩
    · rw [hlook]
      refine ⟨?_, by simp⟩
      rintro st' hst'
      cases hst'
      have hless : fs.length < all.length := by
        have := h.passed.length_le
        rw [List.length_cons] at this
        omega
      refine ⟨⟨fs, ⟨hinv, h.passed.cons hdecode, h.io_le, ?_⟩, fun _ _ => Or.inl hless⟩, rfl, ?_⟩
      · simp only [readWeight]
        omega
      · simp only
        split <;> omega

/-- A round that reads: the call ends because no byte came, or the bytes that came are added. -/
private lemma decoderStep_read (mem : Realloc) {bus : Bus} {all frames : List Frame}
    {d dec : Decoder} {io sio : List ReadEvent} (h : CallInv bus all d io ⟨true, dec, sio⟩ frames) :
    (∃ e dec' io', decoderStep mem bus ⟨true, dec, sio⟩ = .done (.error e, dec', io') ∧
        DecInv dec' (ioBytes io') frames ∧ io'.length ≤ io.length ∧
        readWeight dec' io' ≤ readWeight d io ∧
        ((∃ n, mem n = none) ∨ sio = [] ∨ io'.length < io.length)) ∨
      ∃ dec' io', decoderStep mem bus ⟨true, dec, sio⟩ = lookForPacket bus ⟨true, dec', io'⟩ ∧
        CallInv bus all d io ⟨true, dec', io'⟩ frames ∧
        readWeight dec' io' < readWeight dec sio := by
  have hweight : readWeight dec sio ≤ readWeight d io := h.weight_le
  have hio : sio.length ≤ io.length := h.io_le
  have hdec : DecInv dec (ioBytes sio) frames := h.inv
  have hlength : readLength dec.buf ≠ 0 := by
    have hpos : 0 < dec.buf.size := hdec.size_pos
    unfold readLength
    split <;> omega
  simp only [readWeight] at hweight
  rcases ioRead_cases mem (readLength dec.buf) hdec.ok sio with
    ⟨e, buf', io', hread, hok', hcont, hpos, hlen, hsz, hbytes, hle, hused⟩ |
    ⟨got, buf', io', hread, hok', hcont, hpos, hlen, hsz, hbytes, hle, hnone⟩
  · refine Or.inl ⟨e, { dec with buf := buf' }, io', ?_, ?_, by omega, ?_, ?_⟩
    · simp only [decoderStep, if_true, hread]
    · rw [hbytes]
      exact DecInv.read (g := []) hdec hok' (by rw [hcont, List.append_nil]) hpos hsz
    · simp only [readWeight, hbytes, hlen]
      omega
    · rcases hused with h0 | hnone | hnil | hless
      · exact absurd h0 hlength
      · exact Or.inl hnone
      · exact Or.inr (Or.inl hnil)
      · exact Or.inr (Or.inr (by omega))
  · have hinv : DecInv { dec with buf := buf' } (ioBytes io') frames :=
      DecInv.read (hbytes ▸ hdec) hok' hcont hpos hsz
    have hlenIo : (ioBytes sio).length = got.length + (ioBytes io').length := by
      rw [hbytes, List.length_append]
    cases hgot : got.length with
    | zero =>
      refine Or.inl ⟨.eio, { dec with buf := buf' }, io', ?_, hinv, by omega, ?_, ?_⟩
      · simp only [decoderStep, if_true, hread, hgot]
      · simp only [readWeight]
        omega
      · have := hnone (List.length_eq_zero_iff.mp hgot)
        exact Or.inr (Or.inr (by omega))
    | succ k =>
      refine Or.inr ⟨{ dec with buf := buf' }, io', ?_,
        ⟨hinv, h.passed, by simp only; omega, ?_⟩, ?_⟩
      · simp only [decoderStep, if_true, hread, hgot]
      · simp only [readWeight]
        omega
      · simp only [readWeight]
        omega

/-- Every call of `obus_packet_decoder_read` on a framed stream ends.  It returns the first frame
that decodes, after passing over those before it that do not, or it passes over some frames and
reports why nothing more can be read. -/
lemma packetDecoderRead_spec (mem : Realloc) (bus : Bus) {all : List Frame} {d : Decoder}
    {io : List ReadEvent} (h : DecInv d (ioBytes io) all)
    {fuel : ℕ} (hfuel : readWeight d io + 1 < fuel) :
    ∃ r, packetDecoderRead mem bus fuel d io = some r ∧ CallResult mem bus all d io r := by
  refine loop_of_measure
    (I := fun st => ∃ frames, CallInv bus all d io st frames ∧ ReadNeeded all st frames)
    (m := fun st => 3 * (ioBytes st.io).length + 2 * st.dec.buf.length +
      (if st.readMore then 0 else 1)) ?_ ?_
    ⟨all, ⟨h, .refl bus all, le_rfl, le_rfl⟩, by simp [ReadNeeded]⟩ ?_
  · rintro ⟨more, dec, sio⟩ st' ⟨frames, hst, -⟩ hstep
    cases more with
    | false =>
      obtain ⟨hI, hio, hlen⟩ := (lookForPacket_callInv mem hst).1 st' hstep
      refine ⟨hI, ?_⟩
      rw [hio]
      simp only [Bool.false_eq_true, if_false] at hlen ⊢
      omega
    | true =>
      rcases decoderStep_read mem hst with
        ⟨e, dec', io', hstep', -⟩ | ⟨dec', io', hstep', hst', hless⟩
      · rw [hstep'] at hstep
        cases hstep
      · rw [hstep'] at hstep
        obtain ⟨hI, hio', hlen'⟩ := (lookForPacket_callInv mem hst').1 st' hstep
        refine ⟨hI, ?_⟩
        rw [hio']
        simp only [readWeight] at hless
        simp only [if_true] at hlen' ⊢
        omega
  · rintro ⟨more, dec, sio⟩ r ⟨frames, hst, hneed⟩ hstep
    cases more with
    | false => exact (lookForPacket_callInv mem hst).2 r hstep
    | true =>
      rcases decoderStep_read mem hst with
        ⟨e, dec', io', hstep', hinv, hio, hweight, hused⟩ | ⟨dec', io', hstep', hst', -⟩
      · rw [hstep'] at hstep
        cases hstep
        refine ⟨hio, hweight, frames, hst.passed, hinv, ?_⟩
        rcases hused with hfail | hnil | hless
        · exact Or.inl hfail
        · exact Or.inr (Or.inr (hneed rfl (by rw [hnil]; rfl)))
        · exact Or.inr (Or.inl hless)
      · rw [hstep'] at hstep
        exact (lookForPacket_callInv mem hst').2 r hstep
  · simp only [readWeight] at hfuel
    simp only [Bool.false_eq_true, if_false]
    omega

/-! ## Repeated calls -/

/-- The outcomes of `n` calls of `obus_packet_decoder_read` in a row. -/
def decoderCalls (mem : Realloc) (bus : Bus) (fuel : ℕ) :
    ℕ → Decoder → List ReadEvent → Option (List (Except Errno PacketInfo))
  | 0, _, _ => some []
  | n + 1, d, io => do
    let (r, d', io') ← packetDecoderRead mem bus fuel d io
    let rs ← decoderCalls mem bus fuel n d' io'
    return r :: rs

/-- The packets among the outcomes of calls. -/
def packetsOf (rs : List (Except Errno PacketInfo)) : List PacketInfo :=
  rs.filterMap Except.toOption

/-- The packets that the frames decode to, without the frames that do not decode. -/
def decodedOf (bus : Bus) (frames : List Frame) : List PacketInfo :=
  packetsOf (frames.map (Frame.decode bus))

lemma PassedOver.decodedOf_eq {bus : Bus} {all frames : List Frame} (h : PassedOver bus all frames)
    (hlocal : ∀ f ∈ all, f.Local bus) : decodedOf bus all = decodedOf bus frames := by
  obtain ⟨pre, rfl, hpre⟩ := h
  have hnil : decodedOf bus pre = [] := by
    rw [decodedOf, packetsOf, List.filterMap_eq_nil_iff]
    intro r hr
    obtain ⟨f, hf, rfl⟩ := List.mem_map.mp hr
    obtain ⟨e, he⟩ := hpre f hf
    rw [he (hlocal f (List.mem_append_left frames hf))]
    rfl
  rw [decodedOf, List.map_append, packetsOf, List.filterMap_append]
  change decodedOf bus pre ++ _ = _
  rw [hnil]
  rfl

/-- Calls in a row return the decodable frames of the stream in order, and all of them once there
were as many calls as frames and reads, unless an allocation fails. -/
lemma decoderCalls_spec (mem : Realloc) {bus : Bus} (n : ℕ) {frames : List Frame} {d : Decoder}
    {io : List ReadEvent} (h : DecInv d (ioBytes io) frames) (hlocal : ∀ f ∈ frames, f.Local bus)
    {fuel : ℕ} (hfuel : readWeight d io + 1 < fuel) :
    ∃ rs, decoderCalls mem bus fuel n d io = some rs ∧ packetsOf rs <+: decodedOf bus frames ∧
      ((∀ m, mem m ≠ none) → frames.length + io.length ≤ n →
        packetsOf rs = decodedOf bus frames) := by
  induction n generalizing frames d io with
  | zero =>
    refine ⟨[], rfl, List.nil_prefix, fun _ hn => ?_⟩
    have hnil : frames = [] := List.length_eq_zero_iff.mp (by omega)
    rw [hnil]
    rfl
  | succ n ih =>
    obtain ⟨⟨r, d', io'⟩, hread, hio, hweight, hres⟩ := packetDecoderRead_spec mem bus h hfuel
    simp only at hio hweight
    cases r with
    | ok info =>
      obtain ⟨f, fs, hpassed, hyields, hinv, -⟩ := hres
      change DecInv d' (ioBytes io') fs at hinv
      have hmem : ∀ g ∈ fs, g.Local bus := fun g hg =>
        hlocal g (hpassed.mem (List.mem_cons_of_mem f hg))
      obtain ⟨rs, hcalls, hpre, hall⟩ := ih hinv hmem (by omega)
      have hdecode : f.decode bus = .ok info :=
        hyields (hlocal f (hpassed.mem List.mem_cons_self))
      have hdecoded : decodedOf bus frames = info :: decodedOf bus fs := by
        rw [hpassed.decodedOf_eq hlocal]
        simp [decodedOf, packetsOf, hdecode, Except.toOption]
      refine ⟨.ok info :: rs, ?_, ?_, fun halloc hn => ?_⟩
      · simp [decoderCalls, hread, hcalls]
      · rw [hdecoded]
        exact List.cons_prefix_cons.mpr ⟨rfl, hpre⟩
      · have hlen := hpassed.length_le
        rw [List.length_cons] at hlen
        rw [hdecoded, ← hall halloc (by omega)]
        rfl
    | error e =>
      obtain ⟨frames', hpassed, hinv, hprogress⟩ := hres
      change DecInv d' (ioBytes io') frames' at hinv
      have hmem : ∀ g ∈ frames', g.Local bus := fun g hg => hlocal g (hpassed.mem hg)
      obtain ⟨rs, hcalls, hpre, hall⟩ := ih hinv hmem (by omega)
      refine ⟨.error e :: rs, ?_, ?_, fun halloc hn => ?_⟩
      · simp [decoderCalls, hread, hcalls]
      · rw [hpassed.decodedOf_eq hlocal]
        exact hpre
      · rw [hpassed.decodedOf_eq hlocal]
        change packetsOf rs = _
        have hlen := hpassed.length_le
        rcases hprogress with ⟨m, hm⟩ | hless | hless | rfl
        · exact absurd hm (halloc m)
        · simp only at hless
          exact hall halloc (by omega)
        · exact hall halloc (by omega)
        · exact List.prefix_nil.mp hpre

/-! ## Frames of encoded packets -/

/-- The frame of a packet. -/
def Frame.ofPacket (info : PacketInfo) : Frame := ⟨info.type, info.bytes⟩

lemma PacketInfo.bytes_length (info : PacketInfo) :
    info.bytes.length = pktHdrSize + info.bodyBytes.length := by
  rw [PacketInfo.bytes, List.length_append, headerBytes_length]

/-- The bytes of a header are a header. -/
lemma headerOf_headerBytes (size : ℕ) (type : PacketType) (rest : List UInt8) :
    headerOf (headerBytes size type ++ rest) = some (UInt32.ofNat size, type) := by
  have h9 : pktHdrSize ≤ (headerBytes size type).length :=
    le_of_eq (headerBytes_length size type).symm
  rw [headerOf_append h9, headerOf, if_neg (by rw [headerBytes_length]; exact lt_irrefl _)]
  have hlen : ∀ n : ℕ, (bigEndian 4 n).length = 4 := fun n => bigEndian_length 4 n
  have hmagic : (headerBytes size type).take 4 = bigEndian 4 obusMagic.toNat := by
    rw [headerBytes, List.take_left' (hlen _)]
  have hsize : ((headerBytes size type).drop 4).take 4 = bigEndian 4 size := by
    rw [headerBytes, List.drop_left' (hlen _), List.take_left' (hlen _)]
  have htype : ((headerBytes size type).drop 8).take 1 = bigEndian 1 type.code.toNat := by
    have h8 : (bigEndian 4 obusMagic.toNat ++ bigEndian 4 size).length = 8 := by
      rw [List.length_append, hlen, hlen]
    rw [headerBytes, ← List.append_assoc, List.drop_left' h8, List.take_of_length_le]
    rw [bigEndian_length]
  rw [hmagic, hsize, htype, ofBigEndian_bigEndian, ofBigEndian_bigEndian, ofBigEndian_bigEndian]
  have hcode : UInt8.ofNat (type.code.toNat % 256 ^ 1) = type.code := by simp
  have hsize' : UInt32.ofNat (size % 256 ^ 4) = UInt32.ofNat size := by
    apply UInt32.toNat_inj.mp
    simp
  rw [if_neg (by decide), hcode, hsize', PacketType.ofCode?_code]
  rfl

lemma headerOf_bytes (info : PacketInfo) (rest : List UInt8) :
    headerOf (info.bytes ++ rest) = some (UInt32.ofNat info.bytes.length, info.type) := by
  rw [PacketInfo.bytes_length, PacketInfo.bytes, List.append_assoc]
  exact headerOf_headerBytes _ _ _

/-- An encoded packet decodes from its own bytes to what arrives of it. -/
lemma Frame.ofPacket_decode (bus : Bus) {info : PacketInfo} (h : info.Ok)
    (hcompat : info.Compatible bus) :
    (Frame.ofPacket info).decode bus = info.arrive bus ∧ (Frame.ofPacket info).Local bus := by
  have hnext : (Frame.ofPacket info).buffer.HasNext info.bodyBytes := by
    have hle : pktHdrSize + info.bodyBytes.length ≤ info.bytes.length :=
      le_of_eq info.bytes_length.symm
    refine ⟨le_refl info.bytes.length, hle, [], ?_⟩
    change _ = List.drop pktHdrSize info.bytes
    rw [PacketInfo.bytes, List.drop_left' (headerBytes_length _ _), List.append_nil]
  obtain ⟨hdecode, hframe⟩ := decodes_packet bus h hcompat _ hnext
  refine ⟨hdecode, ?_⟩
  unfold Frame.Local
  have hlen : (Frame.ofPacket info).bytes.length =
      (Frame.ofPacket info).buffer.pos + info.bodyBytes.length := info.bytes_length
  rw [hlen]
  exact hframe

/-- A frame at the front of the buffer that decodes is returned at once, and exactly its bytes are
gone. -/
lemma packetDecoderRead_front (mem : Realloc) {bus : Bus} {f : Frame} (hlocal : f.Local bus)
    {d : Decoder}
    (hok : d.buf.Ok) (hvalid : d.hdrValid = false) (hpos : d.buf.pos = 0) {rest : List UInt8}
    (hcont : d.buf.content = f.bytes ++ rest)
    (hhead : headerOf (f.bytes ++ rest) = some (UInt32.ofNat f.bytes.length, f.type))
    (hlt : f.bytes.length < 2 ^ 32) {info : PacketInfo} (hdecode : f.decode bus = .ok info)
    (fuel : ℕ) (io : List ReadEvent) :
    ∃ d', packetDecoderRead mem bus (fuel + 1) d io = some (.ok info, d', io) ∧ d'.buf.Ok ∧
      d'.hdrValid = false ∧ d'.buf.pos = 0 ∧ d'.buf.content = rest := by
  obtain ⟨d₁, hsearch, -, hsize, htype, hpos₁, hok₁, -, hcont₁⟩ :=
    packetDecodeHeader_found (i := 0) hok hpos (by simp)
      (by rw [List.drop_zero, hcont]; exact hhead)
  rw [List.drop_zero, hcont] at hcont₁
  have hsize' : f.bytes.length = d₁.hdr.size.toNat := by
    rw [hsize, UInt32.toNat_ofNat', Nat.mod_eq_of_lt hlt]
  have hle : ¬ d₁.buf.length < d₁.hdr.size.toNat := by
    rw [← hsize', ← Buffer.content_length hok₁, hcont₁, List.length_append]
    omega
  have hlook : decoderStep mem bus ⟨false, d, io⟩ = takePacket bus ⟨false, d₁, io⟩ := by
    simp [decoderStep, lookForPacket, hvalid, hsearch, hle]
  obtain ⟨d₂, hok₂, -, hvalid₂, hpos₂, hcont₂, hout⟩ :=
    takePacket_frame bus ⟨false, d₁, io⟩ hok₁ hpos₁ htype hsize' hcont₁
  refine ⟨d₂, ?_, hok₂, hvalid₂, hpos₂, hcont₂⟩
  rcases hout with ⟨info', hinfo', hdone⟩ | ⟨e, he, -⟩
  · obtain rfl : info = info' := by simpa [hdecode] using hinfo' hlocal
    exact loop_succ_done (hlook.trans hdone) fuel
  · rw [he hlocal] at hdecode
    cases hdecode

end Obus
