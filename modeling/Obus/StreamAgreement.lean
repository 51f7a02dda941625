import Obus.ScanFraming

/-!
# Where the stream decoders agree

The byte-wise decoders do not look again at the bytes that they have passed over, so that they miss
a header behind a part of the magic, or inside of what they took for one.  They refuse sizes that
the decoder of the C library accepts, and they hold an empty payload back until the next byte.
`decoders_agree_iff` says that a stream on which none of this matters, in the sense of `WellFramed`,
is one on which the three decoders agree throughout, and that there are no others.
-/

namespace Obus

/-! ## Agreement -/

/-- The result of loops with a bound, once the bound is large. -/
def Produces (run : ℕ → Option (List RawPacket)) (packets : List RawPacket) : Prop :=
  ∃ n, ∀ fuel ≥ n, run fuel = some packets

/-- The three decoders have produced the same packets from the chunks that have arrived. -/
def Agree (fill : ℕ → ℕ → UInt8) (chunks : List (List UInt8)) : Prop :=
  ∃ packets, Produces (framing fill chunks) packets ∧
  Produces (received javaDecodeHeader chunks) packets ∧
    Produces (received pythonDecodeHeader chunks) packets

/-- A search that goes on behind a wrong byte of the magic, and behind nine bytes without a known
type, arrives at a position. -/
inductive Reaches : List UInt8 → ℕ → Prop where
  | start (s : List UInt8) : Reaches s 0
  | wrong {s : List UInt8} {k i : ℕ} (h : mismatch magicBytes s = some k)
    (hrest : Reaches (s.drop (k + 1)) i) :
      Reaches s (k + 1 + i)
  | unknown {s : List UInt8} {i : ℕ} (h : mismatch magicBytes s = none)
    (hlen : pktHdrSize ≤ s.length)
      (hnone : headerOf s = none) (hrest : Reaches (s.drop pktHdrSize) i) :
      Reaches s (pktHdrSize + i)

/-- The framers of the three decoders. -/
def framers : List (Framer UInt8 PacketType) :=
  [scanFramer, byteFramer javaAccepts, byteFramer pythonAccepts]

/-- From each end of a frame the byte-wise search arrives at the first header, which has a size that
is larger than the one of a header, and an `int`.  Behind the last frame none of the framers finds a
whole one. -/
inductive WellFramed : List UInt8 → Prop where
  | rest {s : List UInt8}
      (h : ∀ F ∈ framers, ∀ i type size need, Finds F s i type size need → s.length < i + need) :
      WellFramed s
  | frame {s : List UInt8} {i : ℕ} {size : UInt32} {type : PacketType}
    (hfirst : ∀ j < i, headerOf (s.drop j) = none)
      (hhead : headerOf (s.drop i) = some (size, type)) (hreach : Reaches s i)
      (hmin : pktHdrSize < size.toNat)
      (hmax : size.toNat < 2 ^ 31) (hle : i + size.toNat ≤ s.length)
      (hrest : WellFramed (s.drop (i + size.toNat))) : WellFramed s

/-! ## What the framers find -/

section Heads

variable {accepts : UInt32 → Bool} {s : List UInt8} {i size need : ℕ} {type : PacketType}

lemma headerOf_of_finds_scan (h : Finds scanFramer s i type size need) :
    (∀ j < i, headerOf (s.drop j) = none) ∧
      ∃ word, headerOf (s.drop i) = some (word, type) ∧ size = word.toNat ∧
      need = max size pktHdrSize := by
  induction h with
  | @here s type size need h =>
    refine ⟨fun j hj => absurd hj (Nat.not_lt_zero j), ?_⟩
    change scanProbe s = _ at h
    unfold scanProbe at h
    repeat' split at h
    all_goals cases h
    exact ⟨_, ‹_›, rfl, rfl⟩
  | @later s n i type size need h _ ih =>
    change scanProbe s = _ at h
    obtain ⟨rfl, hnone⟩ : n = 1 ∧ headerOf s = none := by
      unfold scanProbe at h
      repeat' split at h
      all_goals cases h
      exact ⟨rfl, ‹_›⟩
    obtain ⟨hfirst, hhead⟩ := ih
    refine ⟨fun j hj => ?_, by rwa [List.drop_drop] at hhead⟩
    cases j with
    | zero => exact hnone
    | succ j =>
      have hj' := hfirst j (by omega)
      rwa [List.drop_drop, Nat.add_comm] at hj'

lemma headerOf_of_finds_byte (h : Finds (byteFramer accepts) s i type size need) :
    ∃ word, headerOf (s.drop i) = some (word, type) ∧ accepts word = true ∧ size = word.toNat ∧
      need = max size (pktHdrSize + 1) :=
  byteFramer_head h.probe

/-- A header starts with the magic. -/
lemma mismatch_of_headerOf {word : UInt32} (h : headerOf s = some (word, type)) :
    mismatch magicBytes s = none := by
  have hlen := le_length_of_headerOf h
  rw [headerOf, if_neg (Nat.not_lt.mpr hlen)] at h
  split_ifs at h with hmagic
  obtain ⟨a, b, c, d, t, rfl⟩ : ∃ a b c d t, s = a :: b :: c :: d :: t := by
    rcases s with _ | ⟨a, _ | ⟨b, _ | ⟨c, _ | ⟨d, t⟩⟩⟩⟩
    iterate 4 simp [pktHdrSize] at hlen
    exact ⟨a, b, c, d, t, rfl⟩
  have hnum : ofBigEndian [a, b, c, d] = 0x6f627573 := by
    have hword : (UInt32.ofNat (ofBigEndian [a, b, c, d])).toNat = obusMagic.toNat :=
      congrArg UInt32.toNat (not_not.mp hmagic)
    rwa [toNat_ofBigEndian4 _ (by simp)] at hword
  have ha := a.toNat_lt
  have hb := b.toNat_lt
  have hc := c.toNat_lt
  have hd := d.toNat_lt
  simp only [ofBigEndian, List.foldl_cons, List.foldl_nil] at hnum
  have h0 : a = 0x6f := UInt8.toNat_inj.mp (show a.toNat = 0x6f by omega)
  have h1 : b = 0x62 := UInt8.toNat_inj.mp (show b.toNat = 0x62 by omega)
  have h2 : c = 0x75 := UInt8.toNat_inj.mp (show c.toNat = 0x75 by omega)
  have h3 : d = 0x73 := UInt8.toNat_inj.mp (show d.toNat = 0x73 by omega)
  simp [h0, h1, h2, h3, magicBytes, mismatch]

/-- The header that the search arrives at is found. -/
lemma Reaches.finds (h : Reaches s i) {word : UInt32}
    (hhead : headerOf (s.drop i) = some (word, type)) (haccepts : accepts word = true) :
    Finds (byteFramer accepts) s i type word.toNat (max word.toNat (pktHdrSize + 1)) := by
  induction h with
  | start s =>
    refine .here ?_
    rw [List.drop_zero] at hhead
    change byteProbe accepts s = _
    rw [byteProbe, mismatch_of_headerOf hhead]
    simp only [hhead, if_neg (Nat.not_lt.mpr (le_length_of_headerOf hhead)), if_pos haccepts]
  | @wrong s k i h _ ih =>
    refine .later ?_ (ih (by rwa [List.drop_drop]))
    change byteProbe accepts s = _
    rw [byteProbe, h]
  | @unknown s i h hlen hnone _ ih =>
    refine .later ?_ (ih (by rwa [List.drop_drop]))
    change byteProbe accepts s = _
    rw [byteProbe, h]
    simp only [hnone, if_neg (Nat.not_lt.mpr hlen)]

/-- Where there is no header before it, a header is found by the search. -/
lemma reaches_of_finds (h : Finds (byteFramer accepts) s i type size need)
    (hfirst : ∀ j < i, headerOf (s.drop j) = none) : Reaches s i := by
  induction h with
  | here => exact .start _
  | @later s n i type size need h hrest ih =>
    have hpos := ((byteFramer accepts).of_skip s n h).1
    have hnone : headerOf s = none := hfirst 0 (by omega)
    have hreach := ih fun j hj => by
      rw [List.drop_drop]
      exact hfirst (n + j) (by omega)
    change byteProbe accepts s = _ at h
    unfold byteProbe at h
    split at h
    · next k hk =>
      cases h
      exact .wrong hk hreach
    · next hmagic =>
      rw [hnone] at h
      split_ifs at h with hlen
      cases h
      exact .unknown hmagic (Nat.not_lt.mp hlen) hnone hreach

/-- The header of a frame of such a stream is found by all framers, and the frame needs no more than
its size. -/
lemma finds_framers {word : UInt32} (hfirst : ∀ j < i, headerOf (s.drop j) = none)
    (hhead : headerOf (s.drop i) = some (word, type)) (hreach : Reaches s i)
    (hmin : pktHdrSize < word.toNat)
    (hmax : word.toNat < 2 ^ 31) {F : Framer UInt8 PacketType} (hF : F ∈ framers) :
    Finds F s i type word.toNat word.toNat := by
  have hscan := finds_scan hfirst hhead
  have hjava := hreach.finds hhead (show javaAccepts word = true by
    rw [javaAccepts, decide_eq_true_eq]
    exact ⟨hmin.le, hmax⟩)
  have hpython :=
    hreach.finds hhead (show pythonAccepts word = true by simp [pythonAccepts, hmin.le])
  rw [max_eq_left hmin.le] at hscan
  rw [max_eq_left hmin] at hjava hpython
  simp only [framers, List.mem_cons, List.not_mem_nil, or_false] at hF
  rcases hF with rfl | rfl | rfl
  · exact hscan
  · exact hjava
  · exact hpython

/-- A frame of the C library and one of a byte-wise decoder that are complete at the same time, with
the same packet, have the same header. -/
lemma same_head {j size' need' : ℕ} {type' : PacketType}
    (hmin : ∀ size, accepts size = true → pktHdrSize ≤ size.toNat)
    (h : Finds scanFramer s i type size need)
    (h' : Finds (byteFramer accepts) s j type' size' need')
    (hend : i + need = j + need') (hle : i + need ≤ s.length)
    (hpacket : rawPacket (type, (s.drop i).take size) = rawPacket (type', (s.drop j).take size')) :
    i = j ∧ type = type' ∧ size = size' ∧ need = need' := by
  obtain ⟨hfirst, word, hhead, hsize, hneed⟩ := headerOf_of_finds_scan h
  obtain ⟨word', hhead', haccepts, hsize', hneed'⟩ := headerOf_of_finds_byte h'
  have hij : i ≤ j := by
    by_contra hji
    rw [hfirst j (by omega)] at hhead'
    cases hhead'
  have hsizes := congrArg (fun packet : RawPacket => packet.2.length) hpacket
  have hword' := hmin word' haccepts
  simp only [rawPacket, List.length_drop, List.length_take] at hsizes
  simp only [pktHdrSize] at hsizes hword' hneed hneed'
  have hi : i = j := by omega
  subst hi
  rw [hhead] at hhead'
  cases hhead'
  exact ⟨rfl, rfl, hsize.trans hsize'.symm, by omega⟩

end Heads

/-! ## Agreement of the framers -/

/-- What a framer makes of a stream. -/
def Gives (F : Framer UInt8 PacketType) (s : List UInt8) (packets : List RawPacket) : Prop :=
  ∃ frames r, Cuts F s frames r ∧ packets = frames.map rawPacket

section Framers

variable {F : Framer UInt8 PacketType} {s : List UInt8} {packets : List RawPacket}

lemma Gives.unique {packets' : List RawPacket} (h : Gives F s packets) (h' : Gives F s packets') :
    packets = packets' := by
  obtain ⟨frames, r, hcuts, rfl⟩ := h
  obtain ⟨frames', r', hcuts', rfl⟩ := h'
  rw [(hcuts.unique hcuts').1]

lemma gives_nil_iff : Gives F s [] ↔ ∀ i type size need, Finds F s i type size need →
    s.length < i + need := by
  rw [← cuts_nil_iff]
  constructor
  · rintro ⟨frames, r, hcuts, hnil⟩
    obtain rfl := List.map_eq_nil_iff.mp hnil.symm
    exact ⟨r, hcuts⟩
  · rintro ⟨r, hcuts⟩
    exact ⟨[], r, hcuts, rfl⟩

lemma gives_cons_iff {packet : RawPacket} : Gives F s (packet :: packets) ↔ ∃ i type size need,
    Finds F s i type size need ∧ i + need ≤ s.length ∧
    packet = rawPacket (type, (s.drop i).take size) ∧
      Gives F (s.drop (i + size)) packets := by
  constructor
  · rintro ⟨frames, r, hcuts, hpackets⟩
    obtain ⟨f, frames, rfl, rfl, rfl⟩ := List.map_eq_cons_iff.mp hpackets.symm
    obtain ⟨i, type, size, need, hfinds, hle, rfl, hrest⟩ := cuts_cons_iff.mp hcuts
    exact ⟨i, type, size, need, hfinds, hle, rfl, frames, r, hrest, rfl⟩
  · rintro ⟨i, type, size, need, hfinds, hle, rfl, frames, r, hrest, rfl⟩
    exact ⟨_, r, hfinds.cuts_cons hle hrest, rfl⟩

/-- Where a whole frame is found, its packet is the first. -/
lemma gives_of_finds {i size need : ℕ} {type : PacketType} (h : Finds F s i type size need)
    (hle : i + need ≤ s.length) (hgives : Gives F s packets) :
    ∃ rest, packets = rawPacket (type, (s.drop i).take size) :: rest ∧
    Gives F (s.drop (i + size)) rest := by
  cases packets with
  | nil =>
    have hlt := gives_nil_iff.mp hgives _ _ _ _ h
    omega
  | cons packet rest =>
    obtain ⟨j, type', size', need', h', -, rfl, hrest⟩ := gives_cons_iff.mp hgives
    obtain ⟨rfl, rfl, rfl, -⟩ := h.unique h'
    exact ⟨rest, rfl, hrest⟩

/-- On a well framed stream the framers agree, whatever has arrived of it. -/
lemma WellFramed.agree (h : WellFramed s) {t : List UInt8} (ht : t <+: s) :
    ∃ packets, ∀ F ∈ framers, Gives F t packets := by
  induction h generalizing t with
  | @rest s h =>
    obtain ⟨u, rfl⟩ := ht
    refine ⟨[], fun F hF => gives_nil_iff.mpr fun i type size need hfinds => ?_⟩
    have hlt := h F hF i type size need (hfinds.append u)
    rw [List.length_append] at hlt
    omega
  | @frame s i size type hfirst hhead hreach hmin hmax hle _ ih =>
    have hfinds : ∀ F ∈ framers, Finds F s i type size.toNat size.toNat := fun F hF =>
      finds_framers hfirst hhead hreach hmin hmax hF
    by_cases hthere : i + size.toNat ≤ t.length
    · obtain ⟨packets, hpackets⟩ := ih (ht.drop (i + size.toNat))
      refine ⟨rawPacket (type, (t.drop i).take size.toNat) :: packets, fun F hF => ?_⟩
      obtain ⟨u, rfl⟩ := ht
      exact gives_cons_iff.mpr ⟨i, type, _, _, (hfinds F hF).of_append hthere, hthere, rfl,
        hpackets F hF⟩
    · refine ⟨[], fun F hF => gives_nil_iff.mpr fun j type' size' need hfinds' => ?_⟩
      obtain ⟨u, rfl⟩ := ht
      obtain ⟨rfl, -, -, rfl⟩ := (hfinds F hF).unique (hfinds'.append u)
      omega

/-- Where the framers agree, whatever has arrived of a stream, they find their first frame in the
same place. -/
lemma exists_frame_of_agree (hagree : ∀ t, t <+: s → ∃ packets, ∀ F ∈ framers, Gives F t packets)
    (hwhole : ¬∀ F ∈ framers, ∀ i type size need, Finds F s i type size need →
      s.length < i + need) :
    ∃ i size type, (∀ j < i, headerOf (s.drop j) = none) ∧ headerOf (s.drop i) = some (size, type) ∧
    Reaches s i ∧
      pktHdrSize < size.toNat ∧ size.toNat < 2 ^ 31 ∧ i + size.toNat ≤ s.length := by
  classical
  -- the first moment at which one of them has a whole frame
  have hex : ∃ e, e ≤ s.length ∧ ∃ F ∈ framers, ∃ i type size need, Finds F s i type size need ∧
      i + need = e := by
    push Not at hwhole
    obtain ⟨F, hF, i, type, size, need, hfinds, hle⟩ := hwhole
    exact ⟨i + need, hle, F, hF, i, type, size, need, hfinds, rfl⟩
  obtain ⟨hle, F₀, hF₀, i₀, type₀, size₀, need₀, hfinds₀, hend₀⟩ := Nat.find_spec hex
  have hleast : ∀ F ∈ framers, ∀ i type size need, Finds F s i type size need →
      i + need ≤ s.length →
      Nat.find hex ≤ i + need := fun F hF i type size need hfinds hle' =>
    Nat.find_min' hex ⟨hle', F, hF, i, type, size, need, hfinds, rfl⟩
  generalize Nat.find hex = e at hle hend₀ hleast
  have hlen : (s.take e).length = e := by
    rw [List.length_take]
    omega
  obtain ⟨packets, hpackets⟩ := hagree (s.take e) (List.take_prefix e s)
  have hfinds₀' : Finds F₀ (s.take e) i₀ type₀ size₀ need₀ := by
    refine Finds.of_append (t := s.drop e) ?_ (by rw [hlen]; omega)
    rwa [List.take_append_drop]
  obtain ⟨rest, rfl, -⟩ := gives_of_finds hfinds₀' (by rw [hlen]; omega) (hpackets F₀ hF₀)
  -- at that moment all of them have one
  have hall : ∀ F ∈ framers, ∃ i type size need, Finds F (s.take e) i type size need ∧
      i + need = e ∧
      rawPacket (type₀, ((s.take e).drop i₀).take size₀) =
        rawPacket (type, ((s.take e).drop i).take size) := by
    intro F hF
    obtain ⟨i, type, size, need, hfinds, hle', hpacket, -⟩ := gives_cons_iff.mp (hpackets F hF)
    have hfinds' := hfinds.append (s.drop e)
    rw [List.take_append_drop] at hfinds'
    rw [hlen] at hle'
    have hge := hleast F hF i type size need hfinds' (by omega)
    exact ⟨i, type, size, need, hfinds, by omega, hpacket⟩
  obtain ⟨i, type, size, need, hscan, hend, hpacket⟩ := hall scanFramer (by simp [framers])
  obtain ⟨j, type', size', need', hjava, hend', hpacket'⟩ :=
    hall (byteFramer javaAccepts) (by simp [framers])
  obtain ⟨rfl, rfl, rfl, rfl⟩ :=
    same_head (fun size h => by simp only [javaAccepts, decide_eq_true_eq] at h; exact h.1)
    hscan hjava (by omega) (by rw [hlen]; omega) (hpacket.symm.trans hpacket')
  have hscan' := hscan.append (s.drop e)
  have hjava' := hjava.append (s.drop e)
  rw [List.take_append_drop] at hscan' hjava'
  obtain ⟨hfirst, word, hhead, hsize, hneed⟩ := headerOf_of_finds_scan hscan'
  obtain ⟨word', hhead', haccepts, -, hneed'⟩ := headerOf_of_finds_byte hjava'
  rw [hhead] at hhead'
  cases hhead'
  simp only [javaAccepts, decide_eq_true_eq] at haccepts
  simp only [pktHdrSize] at hneed hneed' haccepts
  refine ⟨i, word, type, hfirst, hhead, reaches_of_finds hjava' hfirst, ?_, haccepts.2, ?_⟩
  · change 9 < word.toNat
    omega
  · omega

/-- Only on a well framed stream the framers agree, whatever has arrived of it. -/
lemma wellFramed_of_agree (hagree : ∀ t, t <+: s → ∃ packets, ∀ F ∈ framers, Gives F t packets) :
    WellFramed s := by
  induction hlen : s.length using Nat.strong_induction_on generalizing s with
  | _ n ih =>
    subst hlen
    by_cases hwhole : ∀ F ∈ framers, ∀ i type size need, Finds F s i type size need →
      s.length < i + need
    · exact .rest hwhole
    obtain ⟨i, size, type, hfirst, hhead, hreach, hmin, hmax, hle⟩ :=
      exists_frame_of_agree hagree hwhole
    refine .frame hfirst hhead hreach hmin hmax hle (ih _ ?_ ?_ rfl)
    · rw [List.length_drop]
      omega
    · intro t ht
      have hprefix : s.take (i + size.toNat) ++ t <+: s := by
        obtain ⟨u, hu⟩ := ht
        exact ⟨u, by rw [List.append_assoc, hu, List.take_append_drop]⟩
      have hlen : (s.take (i + size.toNat)).length = i + size.toNat := by
        rw [List.length_take]
        omega
      obtain ⟨packets, hpackets⟩ := hagree _ hprefix
      refine ⟨packets.tail, fun F hF => ?_⟩
      obtain ⟨u, hu⟩ := hprefix
      have hthere : i + size.toNat ≤ (s.take (i + size.toNat) ++ t).length := by
        rw [List.length_append, hlen]
        omega
      have hfinds := finds_framers hfirst hhead hreach hmin hmax hF
      rw [← hu] at hfinds
      obtain ⟨rest, hrest, hgives⟩ :=
        gives_of_finds (hfinds.of_append hthere) hthere (hpackets F hF)
      rw [List.drop_left' hlen] at hgives
      rwa [hrest]

end Framers

/-! ## Agreement of the decoders -/

/-- The decoders agree on chunks exactly if their framers agree on the stream of these chunks. -/
lemma agree_iff {fill : ℕ → ℕ → UInt8} {chunks : List (List UInt8)}
    (hchunks : ∀ chunk ∈ chunks, chunk ≠ []) :
    Agree fill chunks ↔ ∃ packets, ∀ F ∈ framers, Gives F chunks.flatten packets := by
  have hbyte : ∀ {decodeHeader accepts}, ReadsHeader decodeHeader accepts →
      (∀ size, accepts size = true → pktHdrSize ≤ size.toNat) →
      ∃ packets, Gives (byteFramer accepts) chunks.flatten packets ∧
        ∀ fuel ≥ 2 * chunks.flatten.length + 2, received decodeHeader chunks fuel =
          some packets := by
    intro decodeHeader accepts hreads hmin
    obtain ⟨frames, r, -, hcuts⟩ := received_spec hreads hmin chunks (Nat.lt_succ_self _)
    refine ⟨frames.map rawPacket, ⟨frames, r, hcuts, rfl⟩, fun fuel hfuel => ?_⟩
    obtain ⟨frames', r', hrun, hcuts'⟩ :=
      received_spec hreads hmin chunks (show 2 * chunks.flatten.length + 1 < fuel by omega)
    rw [hrun, (hcuts.unique hcuts').1]
  obtain ⟨java, hjava, hjavaRun⟩ := hbyte readsHeader_java fun size h => by
    simp only [javaAccepts, decide_eq_true_eq] at h
    exact h.1
  obtain ⟨python, hpython, hpythonRun⟩ := hbyte readsHeader_python fun size h => by
    simpa only [pythonAccepts, decide_eq_true_eq] using h
  constructor
  · rintro ⟨packets, ⟨n, hc⟩, ⟨m, hj⟩, ⟨k, hp⟩⟩
    obtain rfl : java = packets := Option.some.inj
      ((hjavaRun (max m (2 * chunks.flatten.length + 2)) (le_max_right _ _)).symm.trans
        (hj _ (le_max_left _ _)))
    obtain rfl : python = java := Option.some.inj
      ((hpythonRun (max k (2 * chunks.flatten.length + 2)) (le_max_right _ _)).symm.trans
        (hp _ (le_max_left _ _)))
    obtain ⟨frames, r, hframes, hcuts⟩ := framing_cuts hchunks (hc n le_rfl)
    refine ⟨python, fun F hF => ?_⟩
    simp only [framers, List.mem_cons, List.not_mem_nil, or_false] at hF
    rcases hF with rfl | rfl | rfl
    · exact ⟨frames, r, hcuts, hframes⟩
    · exact hjava
    · exact hpython
  · rintro ⟨packets, hall⟩
    obtain ⟨frames, r, hcuts, rfl⟩ := hall scanFramer (by simp [framers])
    obtain rfl := hjava.unique (hall _ (by simp [framers]))
    obtain rfl := hpython.unique (hall _ (by simp [framers]))
    refine ⟨_, ⟨3 * chunks.flatten.length + 2, fun fuel hfuel => ?_⟩, ⟨_, hjavaRun⟩,
      ⟨_, hpythonRun⟩⟩
    exact framing_spec hchunks hcuts (by omega)

/-- On a stream the three decoders agree throughout, in whatever chunks it arrives, exactly if it is
well framed. -/
theorem decoders_agree_iff (fill : ℕ → ℕ → UInt8) (stream : List UInt8) :
    (∀ chunks : List (List UInt8), (∀ chunk ∈ chunks, chunk ≠ []) → chunks.flatten = stream →
      ∀ past, past <+: chunks → Agree fill past) ↔ WellFramed stream := by
  constructor
  · intro hagree
    refine wellFramed_of_agree fun t ht => ?_
    obtain ⟨u, rfl⟩ := ht
    -- the stream arrives in two parts
    have hparts : ∀ parts : List (List UInt8), (parts.filter (· ≠ [])).flatten = parts.flatten := by
      intro parts
      induction parts with
      | nil => rfl
      | cons part parts ih =>
        by_cases hpart : part = []
        · simpa [hpart] using ih
        · simpa [hpart] using ih
    have hne : ∀ parts : List (List UInt8), ∀ part ∈ parts.filter (· ≠ []), part ≠ [] :=
      fun parts part hpart => by
      simpa using (List.mem_filter.mp hpart).2
    have hchunks := hagree ([t, u].filter (· ≠ [])) (hne _) (by rw [hparts]; simp)
      ([t].filter (· ≠ []))
      (List.IsPrefix.filter _ ⟨[u], rfl⟩)
    rw [agree_iff (hne _), hparts] at hchunks
    simpa using hchunks
  · rintro hframed chunks hchunks rfl past ⟨rest, rfl⟩
    rw [agree_iff fun chunk hchunk => hchunks chunk (List.mem_append_left rest hchunk)]
    exact hframed.agree ⟨rest.flatten, by rw [List.flatten_append]⟩

/-- The acknowledgement of a call behind a first byte of the magic. -/
def partialMagic : List UInt8 := [0x6f, 0x6f, 0x62, 0x75, 0x73, 0, 0, 0, 12, 7, 0, 5, 1]

/-- The byte-wise decoders do not find it. -/
theorem not_decoders_agree : ¬∀ fill stream, ∀ chunks : List (List UInt8),
    (∀ chunk ∈ chunks, chunk ≠ []) →
    chunks.flatten = stream → ∀ past, past <+: chunks → Agree fill past := by
  intro h
  have hagree := h (fun _ _ => 0) partialMagic [partialMagic] (by decide) rfl _ (List.prefix_refl _)
  rw [agree_iff (by decide)] at hagree
  obtain ⟨packets, hall⟩ := hagree
  have hscan : Gives scanFramer partialMagic [(.ack, [0, 5, 1])] := by
    have hprobe : scanFramer.probe (partialMagic.drop 1) = .head .ack 12 12 := rfl
    exact ⟨_, _, .skip rfl (.frame hprobe (by decide) (.more rfl)), rfl⟩
  have hjava : Gives (byteFramer javaAccepts) partialMagic [] := by
    refine ⟨[], [], ?_, rfl⟩
    repeat' first | exact .more rfl | refine .skip rfl ?_
  have hc := hscan.unique (hall _ (by simp [framers]))
  have hj := hjava.unique (hall _ (by simp [framers]))
  rw [← hj] at hc
  cases hc

end Obus
