import Obus.StreamFramers

/-!
# The framing of the C library as a framer

What the decoder of the C library cuts off a stream, in whatever chunks it arrives, is what
`scanFramer` cuts off it (`framing_cuts`); and where that comes to an end, so does the decoder
(`framing_spec`).
-/

namespace Obus

/-! ## The search for a header -/

/-- A header is found at the first position where there is one. -/
lemma finds_scan {s : List UInt8} {i : ℕ} (hnone : ∀ j < i, headerOf (s.drop j) = none)
    {size : UInt32} {type : PacketType} (hsome : headerOf (s.drop i) = some (size, type)) :
    Finds scanFramer s i type size.toNat (max size.toNat pktHdrSize) := by
  have hlen := le_length_of_headerOf hsome
  rw [List.length_drop] at hlen
  induction i generalizing s with
  | zero =>
    refine .here ?_
    change scanProbe s = _
    rw [List.drop_zero] at hsome
    rw [Nat.sub_zero] at hlen
    rw [scanProbe, if_neg (Nat.not_lt.mpr hlen), hsome]
  | succ i ih =>
    have hskip : scanFramer.probe s = .skip 1 := by
      have hfirst := hnone 0 (Nat.succ_pos i)
      rw [List.drop_zero] at hfirst
      change scanProbe s = _
      rw [scanProbe, if_neg (by omega), hfirst]
    have hrest : Finds scanFramer (s.drop 1) i type size.toNat (max size.toNat pktHdrSize) := by
      refine ih (fun j hj => ?_) ?_ ?_
      · rw [List.drop_drop, Nat.add_comm]
        exact hnone (j + 1) (by omega)
      · rwa [List.drop_drop, Nat.add_comm]
      · rw [List.length_drop]
        omega
    have hfinds := Finds.later hskip hrest
    rwa [Nat.add_comm] at hfinds

/-- Without a header all but the last eight bytes are passed over. -/
lemma cuts_scan {s : List UInt8} (hnone : ∀ j, headerOf (s.drop j) = none) :
    Cuts scanFramer s [] (s.drop (s.length - 8)) := by
  induction s with
  | nil => exact .more rfl
  | cons b s ih =>
    by_cases hlen : (b :: s).length < pktHdrSize
    · have h9 : (b :: s).length < 9 := hlen
      rw [Nat.sub_eq_zero_of_le (by omega), List.drop_zero]
      exact .more (if_pos hlen)
    · have hskip : scanFramer.probe (b :: s) = .skip 1 := by
        have hfirst := hnone 0
        rw [List.drop_zero] at hfirst
        change scanProbe _ = _
        rw [scanProbe, if_neg hlen, hfirst]
      have h9 : 9 ≤ (b :: s).length := Nat.not_lt.mp hlen
      have hdrop : (b :: s).drop ((b :: s).length - 8) = s.drop (s.length - 8) := by
        rw [List.length_cons] at h9 ⊢
        rw [show s.length + 1 - 8 = s.length - 8 + 1 by omega, List.drop_succ_cons]
      rw [hdrop]
      exact .skip hskip (ih fun j => hnone (j + 1))

/-! ## Cutting -/

/-- A decoder that looks for a header, or has one. -/
structure Searching (d : Decoder) : Prop where
  ok : d.buf.Ok
  size_pos : 0 < d.buf.size
  header : (d.hdrValid = false ∧ d.buf.pos = 0) ∨
    (d.hdrValid = true ∧ ∃ type, headerOf d.buf.content = some (d.hdr.size, type) ∧
      d.hdr.type = type.code)

/-- The search for a header, if there is none yet. -/
lemma search_spec {d : Decoder} (h : Searching d) :
    ∃ valid d', (if d.hdrValid then (true, d) else packetDecodeHeader d) = (valid, d') ∧ d'.buf.Ok ∧
    d'.buf.size = d.buf.size ∧
      ((valid = false ∧ d'.hdrValid = false ∧ d'.buf.pos = 0 ∧
        Cuts scanFramer d.buf.content [] d'.buf.content) ∨
        ∃ i type, valid = true ∧ d'.hdrValid = true ∧ d'.hdr.type = type.code ∧
        d'.buf.content = d.buf.content.drop i ∧
          headerOf (d.buf.content.drop i) = some (d'.hdr.size, type) ∧
          Finds scanFramer d.buf.content i type d'.hdr.size.toNat
            (max d'.hdr.size.toNat pktHdrSize)) := by
  obtain ⟨hvalid, hpos⟩ | ⟨hvalid, type, hhead, htype⟩ := h.header
  · rw [if_neg (by rw [hvalid]; exact Bool.false_ne_true)]
    by_cases hnone : ∀ j, headerOf (d.buf.content.drop j) = none
    · obtain ⟨d', hrun, hvalid', hpos', hok, hsize, hcontent⟩ :=
        packetDecodeHeader_missing h.ok hpos hnone
      refine ⟨false, d', hrun, hok, hsize, Or.inl ⟨rfl, hvalid'.trans hvalid, hpos', ?_⟩⟩
      rw [hcontent, ← Buffer.content_length h.ok]
      exact cuts_scan hnone
    · push Not at hnone
      obtain ⟨i, hi, hfirst⟩ : ∃ i, headerOf (d.buf.content.drop i) ≠ none ∧
          ∀ j < i, headerOf (d.buf.content.drop j) = none := by
        classical
        exact ⟨Nat.find hnone, Nat.find_spec hnone, fun j hj => not_not.mp (Nat.find_min hnone hj)⟩
      obtain ⟨⟨size, type⟩, hsome⟩ := Option.ne_none_iff_exists'.mp hi
      obtain ⟨d', hrun, hvalid', rfl, htype, -, hok, hsz, hcontent⟩ :=
        packetDecodeHeader_found h.ok hpos hfirst hsome
      exact ⟨true, d', hrun, hok, hsz,
        Or.inr ⟨i, type, rfl, hvalid', htype, hcontent, hsome, finds_scan hfirst hsome⟩⟩
  · refine ⟨true, d, if_pos hvalid, h.ok, rfl, Or.inr ⟨0, type, rfl, hvalid, htype, rfl, hhead, ?_⟩⟩
    exact finds_scan (fun j hj => absurd hj (Nat.not_lt_zero j)) hhead

/-- What `cutOrWait` does: it waits for the rest of a frame, or cuts a frame off. -/
lemma cutOrWait_cases {s : FramingState} (h : Searching s.dec) :
    Searching (cutOrWait s).dec ∧ (cutOrWait s).io = s.io ∧
      (((cutOrWait s).readMore = true ∧ (cutOrWait s).cut = s.cut ∧
          Cuts scanFramer s.dec.buf.content [] (cutOrWait s).dec.buf.content) ∨
        ∃ i type size need, (cutOrWait s).readMore = false ∧
        Finds scanFramer s.dec.buf.content i type size need ∧
          i + need ≤ s.dec.buf.content.length ∧
          (cutOrWait s).cut = s.cut ++ [rawPacket (type, (s.dec.buf.content.drop i).take size)] ∧
          (cutOrWait s).dec.buf.content = s.dec.buf.content.drop (i + size)) := by
  obtain ⟨valid, d, hsearch, hok, hsize, hcases⟩ := search_spec h
  have hpos : 0 < d.buf.size := hsize ▸ h.size_pos
  unfold cutOrWait
  rw [hsearch]
  simp only
  obtain ⟨rfl, hvalid, hpos', hcuts⟩ | ⟨i, type, rfl, hvalid, htype, hcontent, hhead, hfinds⟩ :=
    hcases
  · rw [if_pos (Or.inl rfl)]
    exact ⟨⟨hok, hpos, Or.inl ⟨hvalid, hpos'⟩⟩, rfl, Or.inl ⟨rfl, rfl, hcuts⟩⟩
  · have hlen := le_length_of_headerOf hhead
    rw [← hcontent, Buffer.content_length hok] at hlen
    have hlen' : d.buf.length = s.dec.buf.content.length - i := by
      rw [← Buffer.content_length hok, hcontent, List.length_drop]
    by_cases hwait : d.buf.length < d.hdr.size.toNat
    · rw [if_pos (Or.inr hwait)]
      refine ⟨⟨hok, hpos, Or.inr ⟨hvalid, type, hcontent ▸ hhead, htype⟩⟩, rfl,
        Or.inl ⟨rfl, rfl, ?_⟩⟩
      simp only [hcontent]
      refine hfinds.cuts_nil ?_
      have h9 : 9 ≤ d.buf.length := hlen
      omega
    · rw [if_neg (not_or.mpr ⟨by simp, hwait⟩)]
      obtain ⟨hcont, hok', hsz, -⟩ := bufferRemoveFirst_content hok d.hdr.size.toNat
      refine ⟨⟨hok', ?_, Or.inl ⟨rfl, rfl⟩⟩, rfl, Or.inr ⟨i, type, _, _, rfl, hfinds, ?_, ?_, ?_⟩⟩
      · change 0 < (bufferRemoveFirst d.hdr.size.toNat d.buf).size
        rwa [hsz]
      · have h9 : 9 ≤ d.buf.length := hlen
        have hneed : max d.hdr.size.toNat pktHdrSize ≤ d.buf.length :=
          max_le (Nat.not_lt.mp hwait) hlen
        omega
      · simp only [htype, PacketType.ofCode?_code, Option.toList_some, List.map_cons, List.map_nil,
          rawPacket, hcontent]
      · change (bufferRemoveFirst d.hdr.size.toNat d.buf).content = _
        rw [hcont, hcontent, List.drop_drop]

/-! ## The loop -/

/-- What has been cut off, together with what is held, is what the bytes up to here are cut into. -/
structure Framing (stream : List UInt8) (s : FramingState) : Prop where
  searching : Searching s.dec
  data : ∀ e ∈ s.io, ∃ bs, e = .data bs ∧ bs ≠ []
  cut : ∃ past frames, stream = past ++ ioBytes s.io ∧ s.cut = frames.map rawPacket ∧
    ∀ frames' r, Cuts scanFramer s.dec.buf.content frames' r →
    Cuts scanFramer past (frames ++ frames') r

/-- Nothing more can be cut off before a read. -/
def Exhausted (s : FramingState) : Prop :=
  s.readMore = true → Cuts scanFramer s.dec.buf.content [] s.dec.buf.content

/-- The cutting of what is left comes to an end. -/
def Ends (s : FramingState) : Prop :=
  ∃ frames r, Cuts scanFramer (s.dec.buf.content ++ ioBytes s.io) frames r

/-- A measure for the loop. -/
def framingWeight (s : FramingState) : ℕ :=
  3 * (ioBytes s.io).length + 2 * s.dec.buf.content.length + if s.readMore then 0 else 1

lemma cutOrWait_framing {stream : List UInt8} {s : FramingState} (h : Framing stream s) :
    Framing stream (cutOrWait s) ∧ Exhausted (cutOrWait s) := by
  obtain ⟨hsearching, hio, hcases⟩ := cutOrWait_cases h.searching
  obtain ⟨past, frames, hstream, hcut, hcuts⟩ := h.cut
  obtain ⟨-, hcut', hwait⟩ | ⟨i, type, size, need, hmore, hfinds, hle, hcut', hcontent⟩ := hcases
  · refine ⟨⟨hsearching, by rw [hio]; exact h.data, past, frames, by rw [hio]; exact hstream,
      hcut'.trans hcut, ?_⟩,
      fun _ => hwait.rest⟩
    intro frames' r hrest
    have happend := hwait.append (t := []) (by rwa [List.append_nil])
    rw [List.append_nil] at happend
    exact hcuts frames' r happend
  · refine ⟨⟨hsearching, by rw [hio]; exact h.data, past,
      frames ++ [(type, (s.dec.buf.content.drop i).take size)],
      by rw [hio]; exact hstream, by rw [hcut', hcut, List.map_append]; rfl, ?_⟩, ?_⟩
    · intro frames' r hrest
      rw [hcontent] at hrest
      rw [List.append_assoc]
      exact hcuts _ r (hfinds.cuts_cons hle hrest)
    · intro hmore'
      rw [hmore] at hmore'
      cases hmore'

lemma cutOrWait_ends {s : FramingState} (h : Searching s.dec) (hends : Ends s) :
    Ends (cutOrWait s) ∧
      framingWeight (cutOrWait s) < 3 * (ioBytes s.io).length +
        2 * s.dec.buf.content.length + 1 := by
  obtain ⟨-, hio, hcases⟩ := cutOrWait_cases h
  obtain ⟨frames, r, hcuts⟩ := hends
  obtain ⟨hmore, -, hwait⟩ | ⟨i, type, size, need, hmore, hfinds, hle, -, hcontent⟩ := hcases
  · constructor
    · obtain ⟨before, u, after, hbefore, hafter, -⟩ := hcuts.split
      obtain ⟨-, rfl⟩ := hbefore.unique hwait
      exact ⟨after, r, by rw [hio]; exact hafter⟩
    · have hlen := hwait.length_le
      rw [framingWeight, hmore, hio, if_pos rfl]
      omega
  · have hfinds' := hfinds.append (ioBytes s.io)
    have hle' : i + need ≤ (s.dec.buf.content ++ ioBytes s.io).length := by
      rw [List.length_append]
      omega
    have hhead := scanFramer.of_head _ _ _ _ hfinds.probe
    have hsize : 0 < size := by
      rcases Nat.eq_zero_or_pos size with rfl | hpos
      · exact absurd hcuts (not_cuts_of_empty_frame hfinds' hle')
      · exact hpos
    constructor
    · cases frames with
      | nil =>
        have hlt := cuts_nil_iff.mp ⟨r, hcuts⟩ _ _ _ _ hfinds'
        omega
      | cons f frames =>
        obtain ⟨j, type', size', need', hfinds'', -, -, hrest⟩ := cuts_cons_iff.mp hcuts
        obtain ⟨rfl, rfl, rfl, rfl⟩ := hfinds'.unique hfinds''
        rw [List.drop_append_of_le_length (by omega)] at hrest
        exact ⟨frames, r, by rw [hcontent, hio]; exact hrest⟩
    · rw [framingWeight, hmore, hio, hcontent, List.length_drop]
      simp only [Bool.false_eq_true, if_false]
      omega

/-- A read of bytes that are there gives some of them. -/
lemma ioRead_data (fill : ℕ → ℕ → UInt8) {buf : Buffer} (hok : buf.Ok) (hsize : 0 < buf.size)
    {bs : List UInt8} (hbs : bs ≠ [])
    (io : List ReadEvent) (hio : ∀ e ∈ io, ∃ bs, e = .data bs ∧ bs ≠ []) :
    ∃ n buf' io' got, ioRead (fun n => some (fill n)) (readLength buf) buf (.data bs :: io) =
      (.ok (n + 1), buf', io') ∧
      got.length = n + 1 ∧ buf'.Ok ∧ buf'.pos = buf.pos ∧ buf'.content = buf.content ++ got ∧
      buf.size ≤ buf'.size ∧
      ioBytes (.data bs :: io) = got ++ ioBytes io' ∧ ∀ e ∈ io', ∃ bs, e = .data bs ∧ bs ≠ [] := by
  have hlength : readLength buf ≠ 0 := by
    unfold readLength
    split_ifs <;> omega
  have hrun : ∃ buf', ioRead (fun n => some (fill n)) (readLength buf) buf (.data bs :: io) =
      (.ok (bs.take (readLength buf)).length, buf',
        if bs.length ≤ readLength buf then io else .data (bs.drop (readLength buf)) :: io) := by
    obtain ⟨buf', hensure⟩ : ∃ buf', bufferEnsureRealloc (fun n => some (fill n))
      (buf.length + readLength buf) buf =
        (.ok (), buf') := by
      unfold bufferEnsureRealloc
      split_ifs <;> exact ⟨_, rfl⟩
    rw [ioRead, if_neg hlength, hensure]
    exact ⟨_, rfl⟩
  obtain ⟨buf', hrun⟩ := hrun
  have hrest : ∀ e ∈ (if bs.length ≤ readLength buf then io
      else .data (bs.drop (readLength buf)) :: io),
      ∃ bs, e = .data bs ∧ bs ≠ [] := by
    split_ifs with hle
    · exact hio
    · intro e he
      rcases List.mem_cons.mp he with rfl | he
      · exact ⟨_, rfl, by rw [ne_eq, List.drop_eq_nil_iff]; exact hle⟩
      · exact hio e he
  rcases ioRead_cases (fun n => some (fill n)) (readLength buf) hok (.data bs :: io) with
    ⟨e, _, _, herror, -⟩ | ⟨got, _, _, hread, hok', hcontent, hpos, -, hsize', hbytes, -, -⟩
  · rw [hrun] at herror
    cases herror
  · rw [hrun] at hread
    obtain ⟨hgot, rfl, rfl⟩ : (bs.take (readLength buf)).length = got.length ∧ _ ∧ _ := by
      simpa only [Prod.mk.injEq, Except.ok.injEq] using hread
    have hpos' := List.length_pos_iff.mpr hbs
    have hlen : got.length = (got.length - 1) + 1 := by
      rw [List.length_take] at hgot
      omega
    refine ⟨got.length - 1, buf', _, got, ?_, hlen, hok', hpos, hcontent, hsize', hbytes, hrest⟩
    rw [hrun, hgot, ← hlen]

/-- A round goes on as `cutOrWait` does, after a read where one is needed, until there is nothing to
read. -/
lemma framingStep_cases {fill : ℕ → ℕ → UInt8} {stream : List UInt8} {s : FramingState}
    (h : Framing stream s) (hexhausted : Exhausted s) :
    (∃ t, framingStep fill s = .again (cutOrWait t) ∧ Framing stream t ∧
        (Ends s → Ends t) ∧ 3 * (ioBytes t.io).length + 2 * t.dec.buf.content.length + 1 ≤
          framingWeight s) ∨
      (∃ t, framingStep fill s = .done t ∧ t.cut = s.cut ∧ s.readMore = true ∧
        ioBytes s.io = []) := by
  unfold framingStep
  cases hmore : s.readMore with
  | false =>
    refine Or.inl ⟨s, rfl, h, id, ?_⟩
    rw [framingWeight, hmore]
    simp
  | true =>
    have hheld := hexhausted hmore
    obtain ⟨past, frames, hstream, hcut, hcuts⟩ := h.cut
    cases hio : s.io with
    | nil =>
      refine Or.inr ?_
      simp only [if_true]
      rcases ioRead_cases (fun n => some (fill n)) (readLength s.dec.buf) h.searching.ok [] with
        ⟨e, buf', io', hread, -⟩ | ⟨got, buf', io', hread, -, -, -, -, -, hbytes, -, hless⟩
      · rw [hread]
        exact ⟨_, rfl, rfl, trivial, rfl⟩
      · obtain ⟨hnil, -⟩ := List.append_eq_nil_iff.mp hbytes.symm
        exact absurd (hless hnil) (Nat.not_lt_zero _)
    | cons e io =>
      refine Or.inl ?_
      have hdata := h.data
      rw [hio] at hdata
      obtain ⟨bs, rfl, hbs⟩ := hdata e List.mem_cons_self
      obtain ⟨n, buf', io', got, hread, hgot, hok, hpos, hcontent, hsize, hbytes, hrest⟩ :=
        ioRead_data fill h.searching.ok h.searching.size_pos hbs io fun e he =>
          hdata e (List.mem_cons_of_mem _ he)
      simp only [if_true, hread]
      refine ⟨_, rfl, ⟨⟨hok, lt_of_lt_of_le h.searching.size_pos hsize, ?_⟩, hrest, past ++ got,
        frames, ?_, hcut, ?_⟩, ?_, ?_⟩
      · rcases h.searching.header with ⟨hvalid, hpos'⟩ | ⟨hvalid, type, hhead, htype⟩
        · exact Or.inl ⟨hvalid, hpos.trans hpos'⟩
        · refine Or.inr ⟨hvalid, type, ?_, htype⟩
          rw [hcontent, headerOf_append (le_length_of_headerOf hhead), hhead]
      · rw [hstream, hio, hbytes, List.append_assoc]
      · intro frames' r hrest'
        rw [hcontent] at hrest'
        have hpast := hcuts [] _ hheld
        rw [List.append_nil] at hpast
        exact hpast.append hrest'
      · rintro ⟨frames', r, hend⟩
        rw [hio, hbytes, ← List.append_assoc, ← hcontent] at hend
        exact ⟨frames', r, hend⟩
      · rw [framingWeight, hmore, hio, hbytes, if_pos rfl]
        simp only [hcontent, List.length_append]
        omega

/-! ## A connection -/

lemma ioBytes_data (chunks : List (List UInt8)) : ioBytes (chunks.map .data) = chunks.flatten := by
  induction chunks with
  | nil => rfl
  | cons chunk chunks ih => rw [List.map_cons, ioBytes, ih, List.flatten_cons]

section Connection

variable {fill : ℕ → ℕ → UInt8} {chunks : List (List UInt8)}

lemma framing_start (hchunks : ∀ chunk ∈ chunks, chunk ≠ []) :
    Framing chunks.flatten ⟨⟨false, packetDecoderInit (bufferNew defaultBufferSize (fill 0)),
      chunks.map .data⟩, []⟩ := by
  refine ⟨⟨Nat.zero_le _, ?_, Or.inl ⟨rfl, rfl⟩⟩, ?_, [], [], ?_, rfl, fun _ _ h => h⟩
  · simp [packetDecoderInit, bufferClear, bufferNew, Buffer.size, defaultBufferSize]
  · intro e he
    obtain ⟨chunk, hchunk, rfl⟩ := List.mem_map.mp he
    exact ⟨chunk, rfl, hchunks chunk hchunk⟩
  · exact (ioBytes_data chunks).symm

/-- What has been cut off when a round ends the loop is what the stream is cut into. -/
lemma framingStep_done {stream : List UInt8} {s t : FramingState} (h : Framing stream s)
    (hexhausted : Exhausted s) (hstep : framingStep fill s = .done t) :
    ∃ frames r, t.cut = frames.map rawPacket ∧ Cuts scanFramer stream frames r := by
  obtain ⟨u, hagain, -⟩ | ⟨u, hdone, hcut, hmore, hbytes⟩ :=
    @framingStep_cases fill _ _ h hexhausted
  · rw [hagain] at hstep
    cases hstep
  · rw [hdone] at hstep
    cases hstep
    obtain ⟨past, frames, hstream, hcut', hcuts⟩ := h.cut
    rw [hbytes, List.append_nil] at hstream
    have hpast := hcuts [] _ (hexhausted hmore)
    rw [List.append_nil, ← hstream] at hpast
    exact ⟨frames, _, hcut.trans hcut', hpast⟩

lemma framingStep_again {stream : List UInt8} {s s' : FramingState} (h : Framing stream s)
    (hexhausted : Exhausted s) (hstep : framingStep fill s = .again s') :
    (Framing stream s' ∧ Exhausted s') ∧
    (Ends s → Ends s' ∧ framingWeight s' < framingWeight s) := by
  obtain ⟨t, hagain, hframing, hends, hweight⟩ | ⟨u, hdone, -⟩ :=
    @framingStep_cases fill _ _ h hexhausted
  · rw [hagain] at hstep
    cases hstep
    refine ⟨cutOrWait_framing hframing, fun hend => ?_⟩
    obtain ⟨hend', hless⟩ := cutOrWait_ends hframing.searching (hends hend)
    exact ⟨hend', hless.trans_le hweight⟩
  · rw [hdone] at hstep
    cases hstep

/-- What is cut off is what the stream is cut into. -/
lemma framing_cuts (hchunks : ∀ chunk ∈ chunks, chunk ≠ []) {fuel : ℕ} {packets : List RawPacket}
    (hrun : framing fill chunks fuel = some packets) :
    ∃ frames r, packets = frames.map rawPacket ∧ Cuts scanFramer chunks.flatten frames r := by
  obtain ⟨s, hloop, rfl⟩ := Option.map_eq_some_iff.mp hrun
  refine loop_invariant (I := fun s => Framing chunks.flatten s ∧ Exhausted s)
    (Q := fun s : FramingState => ∃ frames r, s.cut = frames.map rawPacket ∧
      Cuts scanFramer chunks.flatten frames r)
    (fun s s' h hstep => (framingStep_again h.1 h.2 hstep).1)
      (fun s t h hstep => framingStep_done h.1 h.2 hstep)
    ⟨framing_start hchunks, fun h => by cases h⟩ hloop

/-- Where the cutting comes to an end, so does the loop. -/
lemma framing_spec (hchunks : ∀ chunk ∈ chunks, chunk ≠ [])
    {frames : List (PacketType × List UInt8)} {r : List UInt8}
    (hcuts : Cuts scanFramer chunks.flatten frames r) {fuel : ℕ}
    (hfuel : 3 * chunks.flatten.length + 1 < fuel) :
    framing fill chunks fuel = some (frames.map rawPacket) := by
  obtain ⟨s, hloop, frames', r', hcut, hcuts'⟩ := loop_of_measure
    (I := fun s => (Framing chunks.flatten s ∧ Exhausted s) ∧ Ends s) (m := framingWeight)
    (Q := fun s : FramingState => ∃ frames r, s.cut = frames.map rawPacket ∧
      Cuts scanFramer chunks.flatten frames r)
    (fun s s' h hstep => by
      obtain ⟨hframing, hrest⟩ := framingStep_again h.1.1 h.1.2 hstep
      obtain ⟨hends, hless⟩ := hrest h.2
      exact ⟨⟨hframing, hends⟩, hless⟩)
    (fun s t h hstep => @framingStep_done fill _ _ _ h.1.1 h.1.2 hstep)
    ⟨⟨@framing_start fill _ hchunks, fun h => by cases h⟩, frames,
      r, by rw [ioBytes_data]; exact hcuts⟩
    (show framingWeight _ < fuel by rw [framingWeight, ioBytes_data]; exact hfuel)
  obtain ⟨rfl, -⟩ := hcuts.unique hcuts'
  rw [framing, hloop, Option.map_some, hcut]

end Connection

end Obus
