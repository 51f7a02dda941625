import Obus.Java.BufferLemmas
import Obus.StreamDecoders

/-!
# The stream decoders as framers

The framers of the three decoders: `byteFramer` with the sizes that it accepts, and `scanFramer`,
which accepts every size and does not come to an end where a frame has none.  What a byte-wise
decoder makes of a stream, in whatever chunks it arrives, is what its framer cuts off
(`received_spec`).
-/

namespace Obus

/-! ## Framers -/

/-- The position of the first byte of a stream that is not the one of a pattern. -/
def mismatch : List UInt8 → List UInt8 → Option ℕ
  | m :: ms, b :: bs => if b = m then (mismatch ms bs).map (· + 1) else some 0
  | _, _ => none

lemma mismatch_append {ms s : List UInt8} {k : ℕ} (h : mismatch ms s = some k) (t : List UInt8) :
    mismatch ms (s ++ t) = some k := by
  induction ms generalizing s k with
  | nil => simp [mismatch] at h
  | cons m ms ih =>
    cases s with
    | nil => simp [mismatch] at h
    | cons b s =>
      simp only [List.cons_append, mismatch] at h ⊢
      split_ifs at h ⊢
      · obtain ⟨j, hj, rfl⟩ := Option.map_eq_some_iff.mp h
        rw [ih hj]
        rfl
      · exact h

lemma mismatch_append_none {ms s : List UInt8} (hlen : ms.length ≤ s.length)
    (h : mismatch ms s = none) (t : List UInt8) : mismatch ms (s ++ t) = none := by
  induction ms generalizing s with
  | nil => simp [mismatch]
  | cons m ms ih =>
    cases s with
    | nil => simp at hlen
    | cons b s =>
      simp only [List.cons_append, mismatch] at h ⊢
      split_ifs at h ⊢
      rw [Option.map_eq_none_iff] at h ⊢
      exact ih (by simpa using hlen) h

lemma mismatch_lt {ms s : List UInt8} {k : ℕ} (h : mismatch ms s = some k) : k < s.length := by
  induction ms generalizing s k with
  | nil => simp [mismatch] at h
  | cons m ms ih =>
    cases s with
    | nil => simp [mismatch] at h
    | cons b s =>
      simp only [mismatch] at h
      split_ifs at h
      · obtain ⟨j, hj, rfl⟩ := Option.map_eq_some_iff.mp h
        have hlt := ih hj
        simpa using hlt
      · cases h
        simp

/-- What a byte-wise decoder sees: a wrong byte of the magic, up to which it passes over everything,
or a header, which it also passes over when it does not accept it.  It asks for a byte behind the
header before it looks for the payload. -/
def byteProbe (accepts : UInt32 → Bool) (s : List UInt8) : Probe PacketType :=
  match mismatch magicBytes s with
  | some k => .skip (k + 1)
  | none =>
    if s.length < pktHdrSize then .more
    else
      match headerOf s with
      | none => .skip pktHdrSize
      | some (size, type) =>
        if accepts size then .head type size.toNat (max size.toNat (pktHdrSize + 1))
          else .skip pktHdrSize

/-- The framer of a byte-wise decoder. -/
def byteFramer (accepts : UInt32 → Bool) : Framer UInt8 PacketType where
  probe := byteProbe accepts
  width := pktHdrSize
  stable s t hmore := by
    unfold byteProbe at hmore ⊢
    cases hmismatch : mismatch magicBytes s with
    | some k => rw [mismatch_append hmismatch]
    | none =>
      rw [hmismatch] at hmore
      simp only at hmore ⊢
      by_cases hlen : s.length < pktHdrSize
      · rw [if_pos hlen] at hmore
        exact absurd rfl hmore
      · have h9 : 9 ≤ s.length := Nat.not_lt.mp hlen
        rw [mismatch_append_none (by simp [magicBytes]; omega) hmismatch, if_neg hlen,
          if_neg (by simp; omega),
          headerOf_append (Nat.not_lt.mp hlen)]
  lt_of_more s hmore := by
    unfold byteProbe at hmore
    repeat' split at hmore
    all_goals first | assumption | cases hmore
  of_skip s n hskip := by
    unfold byteProbe at hskip
    split at hskip
    · next k hk =>
      cases hskip
      exact ⟨Nat.succ_pos k, mismatch_lt hk⟩
    · split_ifs at hskip with hlen
      have h9 := Nat.not_lt.mp hlen
      split at hskip
      · cases hskip
        exact ⟨by decide, h9⟩
      · split_ifs at hskip
        cases hskip
        exact ⟨by decide, h9⟩
  of_head s info size need hhead := by
    unfold byteProbe at hhead
    repeat' split at hhead
    all_goals cases hhead
    exact ⟨le_max_of_le_right (by decide), le_max_left _ _⟩

/-- What the decoder of the C library sees: a header, or a byte to pass over. -/
def scanProbe (s : List UInt8) : Probe PacketType :=
  if s.length < pktHdrSize then .more
  else
    match headerOf s with
    | none => .skip 1
    | some (size, type) => .head type size.toNat (max size.toNat pktHdrSize)

/-- The framer of the C library. -/
def scanFramer : Framer UInt8 PacketType where
  probe := scanProbe
  width := pktHdrSize
  stable s t hmore := by
    unfold scanProbe at hmore ⊢
    by_cases hlen : s.length < pktHdrSize
    · rw [if_pos hlen] at hmore
      exact absurd rfl hmore
    · have h9 : 9 ≤ s.length := Nat.not_lt.mp hlen
      rw [if_neg hlen, if_neg (by simp; omega), headerOf_append (Nat.not_lt.mp hlen)]
  lt_of_more s hmore := by
    unfold scanProbe at hmore
    repeat' split at hmore
    all_goals first | assumption | cases hmore
  of_skip s n hskip := by
    unfold scanProbe at hskip
    split_ifs at hskip with hlen
    have h9 : 9 ≤ s.length := Nat.not_lt.mp hlen
    split at hskip
    · cases hskip
      exact ⟨by decide, by omega⟩
    · cases hskip
  of_head s info size need hhead := by
    unfold scanProbe at hhead
    repeat' split at hhead
    all_goals cases hhead
    exact ⟨le_max_right _ _, le_max_left _ _⟩

/-- The packet of a frame. -/
def rawPacket (frame : PacketType × List UInt8) : RawPacket := (frame.1, frame.2.drop pktHdrSize)

/-- The sizes that the header of Java accepts. -/
def javaAccepts (size : UInt32) : Bool := pktHdrSize ≤ size.toNat ∧ size.toNat < 2 ^ 31

/-- The sizes that the header of Python accepts. -/
def pythonAccepts (size : UInt32) : Bool := pktHdrSize ≤ size.toNat

/-! ## Headers -/

lemma take_of_mismatch_none {ms s : List UInt8} (hlen : ms.length ≤ s.length)
    (h : mismatch ms s = none) : s.take ms.length = ms := by
  induction ms generalizing s with
  | nil => simp
  | cons m ms ih =>
    cases s with
    | nil => simp at hlen
    | cons b s =>
      simp only [mismatch] at h
      split_ifs at h with hb
      rw [Option.map_eq_none_iff] at h
      rw [List.length_cons, List.take_succ_cons, ih (by simpa using hlen) h, hb]

/-- Where there is the magic, it is the type that decides whether there is a header. -/
lemma headerOf_of_magic {s : List UInt8} (hlen : pktHdrSize ≤ s.length)
    (hmagic : mismatch magicBytes s = none) :
    headerOf s = (PacketType.ofCode? (UInt8.ofNat (ofBigEndian ((s.drop 8).take 1)))).map
      fun type =>
      (UInt32.ofNat (ofBigEndian ((s.drop 4).take 4)), type) := by
  have h9 : 9 ≤ s.length := hlen
  have htake : s.take 4 = magicBytes := take_of_mismatch_none (by simp [magicBytes]; omega) hmagic
  rw [headerOf, if_neg (Nat.not_lt.mpr hlen), htake, if_neg (by decide)]

/-- A decoder of headers reads the ones that it accepts. -/
def ReadsHeader (decodeHeader : List UInt8 → Option (ℕ × PacketType))
    (accepts : UInt32 → Bool) : Prop :=
  ∀ headerBuf, headerBuf.length = pktHdrSize → mismatch magicBytes headerBuf = none →
  decodeHeader headerBuf =
    (headerOf headerBuf).bind fun header =>
      if accepts header.1 then some (header.1.toNat, header.2) else none

lemma toNat_ofBigEndian4 (bs : List UInt8) (h : bs.length ≤ 4) :
    (UInt32.ofNat (ofBigEndian bs)).toNat = ofBigEndian bs := by
  have hlt := ofBigEndian_lt bs
  have hpow : 256 ^ bs.length ≤ 256 ^ 4 := Nat.pow_le_pow_right (by decide) h
  rw [UInt32.toNat_ofNat', Nat.mod_eq_of_lt]
  omega

lemma readsHeader_python : ReadsHeader pythonDecodeHeader pythonAccepts := by
  intro headerBuf hlen hmagic
  have hsize := toNat_ofBigEndian4 ((headerBuf.drop 4).take 4) (List.length_take_le _ _)
  rw [headerOf_of_magic hlen.ge hmagic, pythonDecodeHeader]
  cases PacketType.ofCode? (UInt8.ofNat (ofBigEndian ((headerBuf.drop 8).take 1))) with
  | none => rfl
  | some type =>
    simp only [Option.map_some, Option.bind_some, pythonAccepts, hsize, decide_eq_true_eq]
    split_ifs
    · omega
    · rfl
    · rfl
    · omega

/-- The types of Java have the numbers of the types of C. -/
lemma packetTypeFromInt_eq {val : BitVec 32} (h : val.toNat < 256) :
    packetTypeFromInt val = PacketType.ofCode? (UInt8.ofNat val.toNat) := by
  generalize hn : val.toNat = n at h
  unfold packetTypeFromInt
  rw [hn]
  by_cases h8 : n < 8
  · interval_cases n <;> rfl
  · have hnone : PacketType.ofCode? (UInt8.ofNat n) = none := by
      rw [PacketType.ofCode?, List.getElem?_eq_none_iff, UInt8.toNat_ofNat']
      simp only [List.length_cons, List.length_nil]
      omega
    rw [hnone]
    split <;> first | omega | rfl

/-- The words of a header, as they are read in Java. -/
lemma javaReadHeader_eq {headerBuf : List UInt8} (hlen : headerBuf.length = pktHdrSize) :
    ∃ b, javaReadHeader ⟨headerBuf, 0⟩ =
      .ok ((BitVec.ofNat 32 (ofBigEndian ((headerBuf.drop 4).take 4)),
        BitVec.ofNat 32 (ofBigEndian ((headerBuf.drop 8).take 1))), b) := by
  have h9 : headerBuf.length = 9 := hlen
  have hword : ∀ bs : List UInt8, bs.length = 4 →
      Java.Yields Java.readU32 bs (BitVec.ofNat 32 (ofBigEndian bs)) := by
    intro bs hbs
    have hget := (Java.yields_get hbs).map
      (g := fun bs => (BitVec.ofNat (8 * 4) (ofBigEndian bs)).signExtend 32)
    rwa [show BitVec.signExtend 32 (BitVec.ofNat (8 * 4) (ofBigEndian bs)) = BitVec.ofNat 32
      (ofBigEndian bs) from
      BitVec.signExtend_eq _] at hget
  have hbyte : ∀ c : UInt8, Java.Yields Java.readU8 [c] (BitVec.ofNat 32 c.toNat) := by
    intro c
    have hc := c.toNat_lt
    have hread := Java.yields_readU8 (BitVec.ofNat 32 c.toNat)
    have hval : (BitVec.ofNat 32 c.toNat).toNat = c.toNat := by
      rw [BitVec.toNat_ofNat, Nat.mod_eq_of_lt (by omega)]
    have hbytes : bigEndian 1 (BitVec.ofNat 32 c.toNat).toNat = [c] := by
      rw [hval]
      simp [bigEndian]
    have hset : ((BitVec.ofNat 32 c.toNat).setWidth 8).setWidth 32 = BitVec.ofNat 32 c.toNat := by
      apply BitVec.eq_of_toNat_eq
      rw [BitVec.toNat_setWidth, BitVec.toNat_setWidth, hval]
      omega
    rwa [hbytes, hset] at hread
  obtain ⟨c, hc⟩ : ∃ c, (headerBuf.drop 8).take 1 = [c] := by
    rw [← List.length_eq_one_iff, List.length_take, List.length_drop]
    omega
  have hsplit : headerBuf = headerBuf.take 4 ++ ((headerBuf.drop 4).take 4 ++ ([c] ++ [])) := by
    have hdrop : headerBuf.drop 8 = [c] := by
      rw [← hc, List.take_of_length_le]
      rw [List.length_drop]
      omega
    have hlast : (headerBuf.drop 4).drop 4 = [c] := by rw [List.drop_drop, hdrop]
    rw [List.append_nil, ← hlast, List.take_append_drop, List.take_append_drop]
  have hread : Java.Yields javaReadHeader
      (headerBuf.take 4 ++ ((headerBuf.drop 4).take 4 ++ ([c] ++ [])))
      (BitVec.ofNat 32 (ofBigEndian ((headerBuf.drop 4).take 4)), BitVec.ofNat 32 c.toNat) := by
    refine (hword (headerBuf.take 4) (by rw [List.length_take]; omega)).bind ?_
    refine (hword ((headerBuf.drop 4).take 4)
      (by rw [List.length_take, List.length_drop]; omega)).bind ?_
    exact (hbyte c).bind Java.yields_pure
  have hrun := hread [] []
  rw [← hsplit] at hrun
  have hbig : ofBigEndian [c] = c.toNat := by simp [ofBigEndian]
  rw [hc, hbig]
  simp only [List.nil_append, List.append_nil, List.length_nil] at hrun
  exact ⟨_, hrun⟩

lemma readsHeader_java : ReadsHeader javaDecodeHeader javaAccepts := by
  intro headerBuf hlen hmagic
  obtain ⟨b, hread⟩ := javaReadHeader_eq hlen
  have hsize := toNat_ofBigEndian4 ((headerBuf.drop 4).take 4) (List.length_take_le _ _)
  have hlt : ofBigEndian ((headerBuf.drop 4).take 4) < 2 ^ 32 := hsize ▸ UInt32.toNat_lt _
  have htype : ofBigEndian ((headerBuf.drop 8).take 1) < 256 := by
    have hpow : 256 ^ ((headerBuf.drop 8).take 1).length ≤ 256 ^ 1 :=
      Nat.pow_le_pow_right (by decide) (List.length_take_le _ _)
    have hbound := ofBigEndian_lt ((headerBuf.drop 8).take 1)
    omega
  have hnat : (BitVec.ofNat 32 (ofBigEndian ((headerBuf.drop 8).take 1))).toNat = ofBigEndian
      ((headerBuf.drop 8).take 1) := by
    rw [BitVec.toNat_ofNat, Nat.mod_eq_of_lt (by omega)]
  have hint := BitVec.toInt_eq_toNat_cond
    (BitVec.ofNat 32 (ofBigEndian ((headerBuf.drop 4).take 4)))
  rw [BitVec.toNat_ofNat, Nat.mod_eq_of_lt hlt] at hint
  rw [headerOf_of_magic hlen.ge hmagic, javaDecodeHeader, hread]
  simp only
  rw [packetTypeFromInt_eq (by rw [hnat]; exact htype), hnat]
  cases PacketType.ofCode? (UInt8.ofNat (ofBigEndian ((headerBuf.drop 8).take 1))) with
  | none => rfl
  | some type =>
    simp only [Option.map_some, Option.bind_some, javaAccepts, hsize, decide_eq_true_eq,
      BitVec.toNat_ofNat,
      Nat.mod_eq_of_lt hlt]
    split_ifs at hint ⊢ <;> first | rfl | omega

/-! ## What a byte-wise decoder holds -/

/-- A byte-wise decoder holds some bytes, from which nothing has been cut off yet. -/
inductive Holds (accepts : UInt32 → Bool) : ByteDecoder → List UInt8 → Prop where
  | idle (headerBuf payloadBuf : List UInt8) : Holds accepts ⟨.idle, headerBuf, payloadBuf⟩ []
  | magic (idx : Fin 4) {headerBuf payloadBuf : List UInt8}
    (h : idx ≠ 0 → headerBuf = magicBytes.take idx) :
      Holds accepts ⟨.headerMagic idx, headerBuf, payloadBuf⟩ (magicBytes.take idx)
  | header {headerBuf payloadBuf : List UInt8} (hmagic : mismatch magicBytes headerBuf = none)
      (hlen : headerBuf.length < pktHdrSize) (hmin : 4 ≤ headerBuf.length) :
      Holds accepts ⟨.header, headerBuf, payloadBuf⟩ headerBuf
  | payload {size need : ℕ} {type : PacketType} {headerBuf payloadBuf : List UInt8}
      (hlen : headerBuf.length = pktHdrSize)
      (hprobe : (byteFramer accepts).probe headerBuf = .head type size need)
      (hlt : pktHdrSize + payloadBuf.length < need) :
      Holds accepts ⟨.payload size type, headerBuf, payloadBuf⟩ (headerBuf ++ payloadBuf)

section Bytewise

variable {accepts : UInt32 → Bool} {decodeHeader : List UInt8 → Option (ℕ × PacketType)}

/-- Cutting the one stream is cutting the other, behind some frames. -/
def Advances (accepts : UInt32 → Bool) (s : List UInt8) (frames : List (PacketType × List UInt8))
    (t : List UInt8) : Prop :=
  ∀ frames' r, Cuts (byteFramer accepts) t frames' r →
  Cuts (byteFramer accepts) s (frames ++ frames') r

lemma Advances.refl (s : List UInt8) : Advances accepts s [] s := fun _ _ h => h

lemma Advances.trans {s t u : List UInt8} {frames frames' : List (PacketType × List UInt8)}
    (h : Advances accepts s frames t) (h' : Advances accepts t frames' u) :
    Advances accepts s (frames ++ frames') u := by
  intro after r hcuts
  rw [List.append_assoc]
  exact h _ r (h' after r hcuts)

/-- Bytes that a decoder passes over. -/
lemma Advances.skip {s : List UInt8} (h : (byteFramer accepts).probe s = .skip s.length)
    (t : List UInt8) : Advances accepts (s ++ t) [] t := by
  intro frames r hcuts
  refine .skip (((byteFramer accepts).stable s t (by rw [h]; exact fun h => by cases h)).trans h) ?_
  rwa [List.drop_left]

lemma byteFramer_head {s : List UInt8} {type : PacketType} {size need : ℕ}
    (h : (byteFramer accepts).probe s = .head type size need) :
    ∃ word, headerOf s = some (word, type) ∧ accepts word = true ∧ size = word.toNat ∧
    need = max size (pktHdrSize + 1) := by
  change byteProbe accepts s = _ at h
  unfold byteProbe at h
  repeat' split at h
  all_goals cases h
  exact ⟨_, ‹_›, ‹_›, rfl, rfl⟩

/-- What is held is not cut. -/
lemma Holds.cuts {d : ByteDecoder} {r : List UInt8} (h : Holds accepts d r) :
    Cuts (byteFramer accepts) r [] r := by
  cases h with
  | idle => exact .more rfl
  | magic idx =>
    refine .more ?_
    fin_cases idx <;> rfl
  | header hmagic hlen =>
    refine .more ?_
    change byteProbe accepts r = _
    rw [byteProbe, hmagic]
    exact if_pos hlen
  | payload hlen hprobe hlt =>
    refine .wait (((byteFramer accepts).stable _ _
      (by rw [hprobe]; exact fun h => by cases h)).trans hprobe) ?_
    rw [List.length_append, hlen]
    exact hlt

/-- A measure for the loop of `decode`: the bytes that are left, and a payload that may be empty. -/
def decodeWeight (d : ByteDecoder) (src : List UInt8) : ℕ :=
  2 * src.length + match d.state with
    | .payload _ _ => 1
    | _ => 0

/-- What a part of `decode` does to the bytes that are held and the ones that are left. -/
structure Decoded (accepts : UInt32 → Bool) (r src : List UInt8) (s : DecodeVars) : Prop where
  step : ∃ frames r', Holds accepts s.dec r' ∧ s.packet.toList = frames.map rawPacket ∧
    Advances accepts (r ++ src) frames (r' ++ s.src)
  idle : s.dec.state = .idle ↔ s.packet ≠ none

lemma decodeIteration_magic {idx : Fin 4} {headerBuf payloadBuf : List UInt8}
    (h : idx ≠ 0 → headerBuf = magicBytes.take idx) (b : UInt8) (rest : List UInt8) :
    Decoded accepts (magicBytes.take idx) (b :: rest)
      (decodeIteration decodeHeader
        ⟨⟨.headerMagic idx, headerBuf, payloadBuf⟩, b :: rest, none⟩) := by
  have hbuf : (if idx = 0 then [] else headerBuf) = magicBytes.take idx := by
    split_ifs with h0
    · rw [h0]
      rfl
    · exact h h0
  have hlen : (magicBytes.take idx).length = idx := by
    fin_cases idx <;> rfl
  have hget : (magicBytes.take idx ++ [b])[(idx : ℕ)]? = some b := by
    rw [List.getElem?_append_right hlen.le, hlen, Nat.sub_self]
    rfl
  have hrun : decodeIteration decodeHeader
      ⟨⟨.headerMagic idx, headerBuf, payloadBuf⟩, b :: rest, none⟩ =
      ⟨⟨if some b ≠ magicBytes[(idx : ℕ)]? then .headerMagic 0 else if idx = 3 then .header
        else .headerMagic (idx + 1),
        magicBytes.take idx ++ [b], if idx = 0 then [] else payloadBuf⟩, rest, none⟩ := by
    simp only [decodeIteration, hbuf, List.take_succ_cons, List.take_zero, Fin.getElem?_fin, hget,
      List.drop_succ_cons,
      List.drop_zero]
  rw [hrun]
  by_cases hb : some b = magicBytes[(idx : ℕ)]?
  · -- one byte more of the magic
    have hnext : magicBytes.take idx ++ [b] = magicBytes.take (idx + 1) := by
      rw [List.take_add_one, ← hb]
      rfl
    rw [if_neg (not_not.mpr hb)]
    refine ⟨⟨[], magicBytes.take idx ++ [b], ?_, rfl, ?_⟩, ?_⟩
    · rw [hnext]
      by_cases h3 : idx = 3
      · subst h3
        exact .header rfl (by decide) (by decide)
      · have hsucc : ((idx + 1 : Fin 4) : ℕ) = idx + 1 :=
          Fin.val_add_one_of_lt (lt_of_le_of_ne (Fin.le_last idx) h3)
        rw [if_neg h3, ← hsucc]
        exact .magic (idx + 1) fun _ => rfl
    · rw [List.append_assoc]
      exact Advances.refl _
    · split_ifs <;> simp
  · -- a wrong byte, which is passed over together with what has been read of the magic
    have hskip : (byteFramer accepts).probe (magicBytes.take idx ++ [b]) =
        .skip (magicBytes.take idx ++ [b]).length := by
      change byteProbe accepts _ = _
      rw [List.length_append, hlen]
      fin_cases idx <;> simp_all [byteProbe, mismatch, magicBytes]
    rw [if_pos hb]
    refine ⟨⟨[], [], .magic 0 fun h => absurd rfl h, rfl, ?_⟩, by simp⟩
    have hstream : magicBytes.take idx ++ b :: rest = (magicBytes.take idx ++ [b]) ++
        rest := by simp
    rw [hstream]
    exact Advances.skip hskip rest

lemma decodeIteration_header (hreads : ReadsHeader decodeHeader accepts)
    {headerBuf payloadBuf src : List UInt8}
    (hmagic : mismatch magicBytes headerBuf = none) (hlen : headerBuf.length < pktHdrSize)
    (hmin : 4 ≤ headerBuf.length) :
    Decoded accepts headerBuf src
      (decodeIteration decodeHeader ⟨⟨.header, headerBuf, payloadBuf⟩, src, none⟩) := by
  have h9 : headerBuf.length < 9 := hlen
  obtain ⟨n, hn⟩ : ∃ n, n = min src.length (pktHdrSize - headerBuf.length) := ⟨_, rfl⟩
  have hmagic' : mismatch magicBytes (headerBuf ++ src.take n) = none :=
    mismatch_append_none (show magicBytes.length ≤ _ from hmin) hmagic _
  have hstream : headerBuf ++ src = (headerBuf ++ src.take n) ++ src.drop n := by
    rw [List.append_assoc, List.take_append_drop]
  have hfull : (headerBuf ++ src.take n).length = headerBuf.length + n := by
    rw [List.length_append, List.length_take, hn]
    omega
  have hle : headerBuf.length + n ≤ 9 := by
    change n = min src.length (9 - headerBuf.length) at hn
    omega
  simp only [decodeIteration, ← hn]
  by_cases hwhole : (headerBuf ++ src.take n).length = pktHdrSize
  · have hprobe : (byteFramer accepts).probe (headerBuf ++ src.take n) =
        match headerOf (headerBuf ++ src.take n) with
        | none => .skip pktHdrSize
        | some (size, type) =>
          if accepts size then .head type size.toNat (max size.toNat (pktHdrSize + 1))
            else .skip pktHdrSize := by
      change byteProbe accepts _ = _
      rw [byteProbe, hmagic']
      exact if_neg (by rw [hwhole]; exact lt_irrefl _)
    have hpass : (byteFramer accepts).probe (headerBuf ++ src.take n) = .skip pktHdrSize → ∀ p,
        Decoded accepts headerBuf src
          ⟨⟨.headerMagic 0, headerBuf ++ src.take n, p⟩, src.drop n, none⟩ := by
      intro hskip p
      refine ⟨⟨[], [], .magic 0 fun h => absurd rfl h, rfl, ?_⟩, by simp⟩
      rw [hstream]
      exact Advances.skip (hskip.trans (by rw [hwhole])) _
    rw [if_pos hwhole, hreads _ hwhole hmagic']
    cases hhead : headerOf (headerBuf ++ src.take n) with
    | none =>
      rw [hhead] at hprobe
      exact hpass hprobe _
    | some header =>
      obtain ⟨size, type⟩ := header
      rw [hhead] at hprobe
      simp only [Option.bind_some] at hprobe ⊢
      by_cases haccepts : accepts size = true
      · rw [if_pos haccepts] at hprobe
        rw [if_pos haccepts]
        refine ⟨⟨[], headerBuf ++ src.take n, ?_, rfl, ?_⟩, by simp⟩
        · have hholds := Holds.payload hwhole hprobe
            (show pktHdrSize + ([] : List UInt8).length < _ from
            lt_max_of_lt_right (by simp))
          rwa [List.append_nil] at hholds
        · rw [hstream]
          exact Advances.refl _
      · rw [if_neg haccepts] at hprobe
        rw [if_neg haccepts]
        exact hpass hprobe _
  · rw [if_neg hwhole]
    refine ⟨⟨[], headerBuf ++ src.take n, .header hmagic' ?_ ?_, rfl, ?_⟩, by simp⟩
    · change _ < 9
      have hne : (headerBuf ++ src.take n).length ≠ 9 := hwhole
      omega
    · omega
    · rw [hstream]
      exact Advances.refl _

lemma decodeIteration_payload {size need : ℕ} {type : PacketType}
    {headerBuf payloadBuf src : List UInt8}
    (hlen : headerBuf.length = pktHdrSize)
    (hprobe : (byteFramer accepts).probe headerBuf = .head type size need)
    (hlt : pktHdrSize + payloadBuf.length < need) (hsize : pktHdrSize ≤ size) (hsrc : src ≠ []) :
    Decoded accepts (headerBuf ++ payloadBuf) src
      (decodeIteration decodeHeader ⟨⟨.payload size type, headerBuf, payloadBuf⟩, src, none⟩) := by
  obtain ⟨-, -, -, -, hneed⟩ := byteFramer_head hprobe
  have h9 : headerBuf.length = 9 := hlen
  have hsrc' := List.length_pos_iff.mpr hsrc
  obtain ⟨n, hn⟩ : ∃ n, n = min src.length (size - pktHdrSize - payloadBuf.length) := ⟨_, rfl⟩
  have hstream : headerBuf ++ payloadBuf ++ src = headerBuf ++ (payloadBuf ++ src.take n) ++
      src.drop n := by
    rw [List.append_assoc, List.append_assoc, List.append_assoc, List.take_append_drop]
  have hfull : (payloadBuf ++ src.take n).length = payloadBuf.length + n := by
    rw [List.length_append, List.length_take, hn]
    omega
  change 9 + payloadBuf.length < need at hlt
  change n = min src.length (size - 9 - payloadBuf.length) at hn
  change need = max size 10 at hneed
  change 9 ≤ size at hsize
  simp only [decodeIteration]
  change Decoded accepts _ _
      (if (payloadBuf ++ src.take (min src.length (size - 9 - payloadBuf.length))).length = size - 9
    then _ else _)
  rw [← hn]
  by_cases hwhole : (payloadBuf ++ src.take n).length = size - 9
  · rw [if_pos hwhole]
    have hframe : (headerBuf ++ (payloadBuf ++ src.take n)).length = size := by
      rw [List.length_append, hwhole, h9]
      omega
    refine ⟨⟨[(type, headerBuf ++ (payloadBuf ++ src.take n))], [], .idle _ _, ?_, ?_⟩, by simp⟩
    · simp [rawPacket, ← hlen]
    · intro frames r hcuts
      rw [hstream]
      have htake : (headerBuf ++ (payloadBuf ++ src.take n) ++ src.drop n).take size =
          headerBuf ++ (payloadBuf ++ src.take n) := List.take_left' hframe
      have hdrop : (headerBuf ++ (payloadBuf ++ src.take n) ++ src.drop n).drop size = src.drop n :=
        List.drop_left' hframe
      have hhead : (byteFramer accepts).probe
          (headerBuf ++ (payloadBuf ++ src.take n) ++ src.drop n) =
          .head type size need := by
        rw [List.append_assoc]
        exact ((byteFramer accepts).stable _ _ (by rw [hprobe]; exact fun h => by cases h)).trans
          hprobe
      -- the byte that it asked for behind an empty payload is there
      have hthere : need ≤ (headerBuf ++ (payloadBuf ++ src.take n) ++ src.drop n).length := by
        rw [List.length_append, hframe, List.length_drop]
        omega
      have hcut := Cuts.frame hhead hthere (by rw [hdrop]; exact hcuts)
      rwa [htake] at hcut
  · rw [if_neg hwhole]
    refine ⟨⟨[], headerBuf ++ (payloadBuf ++ src.take n), .payload hlen hprobe ?_, rfl,
      ?_⟩, by simp⟩
    · change 9 + _ < need
      omega
    · rw [hstream]
      exact Advances.refl _

/-- An iteration goes on with the bytes, and is a step of the measure. -/
lemma decodeIteration_spec (hreads : ReadsHeader decodeHeader accepts)
    (hmin : ∀ size, accepts size = true → pktHdrSize ≤ size.toNat) {d : ByteDecoder}
    {r src : List UInt8} (h : Holds accepts d r) (hidle : d.state ≠ .idle) (hsrc : src ≠ []) :
    Decoded accepts r src (decodeIteration decodeHeader ⟨d, src, none⟩) := by
  cases h with
  | idle => exact absurd rfl hidle
  | magic idx h =>
    obtain ⟨b, rest, rfl⟩ := List.exists_cons_of_ne_nil hsrc
    exact decodeIteration_magic h b rest
  | header hmagic hlen hmin' => exact decodeIteration_header hreads hmagic hlen hmin'
  | payload hlen hprobe hlt =>
    obtain ⟨word, -, haccepts, hsize, -⟩ := byteFramer_head hprobe
    exact decodeIteration_payload hlen hprobe hlt (hsize ▸ hmin word haccepts) hsrc

variable (decodeHeader) in
lemma decodeIteration_weight {d : ByteDecoder} {r src : List UInt8} (h : Holds accepts d r)
    (hidle : d.state ≠ .idle) (hsrc : src ≠ []) :
    decodeWeight (decodeIteration decodeHeader ⟨d, src, none⟩).dec
      (decodeIteration decodeHeader ⟨d, src, none⟩).src <
      decodeWeight d src := by
  have hsrc' := List.length_pos_iff.mpr hsrc
  cases h with
  | idle => exact absurd rfl hidle
  | magic idx h =>
    simp only [decodeIteration, decodeWeight, List.length_drop]
    split
    all_goals
      try simp only
      omega
  | header hmagic hlen hmin' =>
    have h9 : r.length < 9 := hlen
    simp only [decodeIteration, decodeWeight, List.length_drop]
    split_ifs
    · split
      all_goals
        try simp only
        omega
    · simp only
      omega
  | @payload size need type headerBuf payloadBuf hlen hprobe hlt =>
    obtain ⟨-, -, -, -, hneed⟩ := byteFramer_head hprobe
    simp only [decodeIteration]
    by_cases hwhole : (payloadBuf ++
      src.take (min src.length (size - pktHdrSize - payloadBuf.length))).length =
        size - pktHdrSize
    · rw [if_pos hwhole]
      simp only [decodeWeight, List.length_drop]
      omega
    · rw [if_neg hwhole]
      simp only [decodeWeight, List.length_drop]
      rw [List.length_append, List.length_take] at hwhole
      simp only [pktHdrSize] at hlt hneed hwhole ⊢
      omega

/-! ## A connection -/

/-- A call of `decode` goes on with the bytes, until they are used up or a packet is there. -/
lemma byteDecode_spec (hreads : ReadsHeader decodeHeader accepts)
    (hmin : ∀ size, accepts size = true → pktHdrSize ≤ size.toNat) {d : ByteDecoder}
    {r src : List UInt8}
    (h : Holds accepts d r) (hsrc : src ≠ []) {fuel : ℕ} (hfuel : decodeWeight d src < fuel) :
    ∃ s, byteDecode decodeHeader fuel d src = some s ∧ (∃ frames r', Holds accepts s.dec r' ∧
      s.packet.toList = frames.map rawPacket ∧ Advances accepts (r ++ src) frames (r' ++ s.src)) ∧
      decodeWeight s.dec s.src < decodeWeight d src := by
  -- the decoder that the loop begins with
  obtain ⟨d₀, hd₀⟩ : ∃ d₀, d₀ = if d.state = .idle then { d with state := .headerMagic 0 }
    else d := ⟨_, rfl⟩
  have hstart : Holds accepts d₀ r ∧ d₀.state ≠ .idle ∧
      decodeWeight d₀ src = decodeWeight d src := by
    split_ifs at hd₀ with hidle
    · subst hd₀
      cases h with
      | idle headerBuf payloadBuf => exact ⟨.magic 0 fun h => absurd rfl h, by simp, rfl⟩
      | magic | header | payload => cases hidle
    · subst hd₀
      exact ⟨h, hidle, rfl⟩
  obtain ⟨hholds, hactive, hweight⟩ := hstart
  rw [byteDecode, ← hd₀]
  refine (loop_of_measure
    (I := fun s => Decoded accepts r src s ∧
      (s = ⟨d₀, src, none⟩ ∨ decodeWeight s.dec s.src < decodeWeight d src))
    (m := fun s => decodeWeight s.dec s.src)
    (Q := fun s : DecodeVars => (∃ frames r', Holds accepts s.dec r' ∧
      s.packet.toList = frames.map rawPacket ∧ Advances accepts (r ++ src) frames (r' ++ s.src)) ∧
      decodeWeight s.dec s.src < decodeWeight d src) ?_ ?_ ?_ (by rw [hweight]; exact hfuel))
  · intro s s' ⟨hI, hdec⟩ hstep
    unfold decodeStep at hstep
    split_ifs at hstep with hdone
    cases hstep
    obtain ⟨hsrc', hidle'⟩ := not_or.mp hdone
    have hnone : s.packet = none := by_contra fun hsome => hidle' (hI.idle.mpr hsome)
    obtain ⟨dec, src', packet⟩ := s
    subst hnone
    obtain ⟨frames, r', hholds', hframes, hadv⟩ := hI.step
    obtain rfl : frames = [] := by simpa using hframes.symm
    have hnext := decodeIteration_spec hreads hmin hholds' hidle' hsrc'
    have hless := decodeIteration_weight decodeHeader hholds' hidle' hsrc'
    obtain ⟨frames, r'', hholds'', hframes', hadv'⟩ := hnext.step
    refine ⟨⟨⟨⟨frames, r'', hholds'', hframes', hadv.trans hadv'⟩, hnext.idle⟩, Or.inr ?_⟩, hless⟩
    rcases hdec with hdec | hdec
    · cases hdec
      rwa [← hweight]
    · exact hless.trans hdec
  · intro s s' ⟨hI, hdec⟩ hstep
    unfold decodeStep at hstep
    split_ifs at hstep with hdone
    cases hstep
    refine ⟨hI.step, hdec.resolve_left fun heq => ?_⟩
    subst heq
    exact hdone.elim hsrc hactive
  · exact ⟨⟨⟨[], r, hholds, rfl, Advances.refl _⟩, by simpa using hactive⟩, Or.inl rfl⟩

/-- The bytes of a read are cut, together with those that were held. -/
lemma readChunk_spec (hreads : ReadsHeader decodeHeader accepts)
    (hmin : ∀ size, accepts size = true → pktHdrSize ≤ size.toNat) {d : ByteDecoder}
    {r : List UInt8}
    (h : Holds accepts d r) (packets : List RawPacket) (chunk : List UInt8) {fuel : ℕ}
    (hfuel : 2 * chunk.length + 1 < fuel) :
    ∃ d' frames r', readChunk decodeHeader fuel (d, packets) chunk =
      some (d', packets ++ frames.map rawPacket) ∧
      Holds accepts d' r' ∧ Cuts (byteFramer accepts) (r ++ chunk) frames r' := by
  have hle : decodeWeight d chunk ≤ 2 * chunk.length + 1 := by
    unfold decodeWeight
    split <;> omega
  have hread : ∃ res, loop (readerStep decodeHeader fuel) fuel ⟨d, chunk, packets⟩ = some res ∧
      ∃ s : ReaderVars, res = some s ∧ ∃ frames r', Holds accepts s.dec r' ∧
      s.packets = packets ++ frames.map rawPacket ∧
        Cuts (byteFramer accepts) (r ++ chunk) frames r' := by
    refine loop_of_measure
      (I := fun s => (∃ frames r', Holds accepts s.dec r' ∧
        s.packets = packets ++ frames.map rawPacket ∧
        Advances accepts (r ++ chunk) frames (r' ++ s.src)) ∧
          decodeWeight s.dec s.src ≤ decodeWeight d chunk)
      (m := fun s => decodeWeight s.dec s.src) ?_ ?_ ⟨⟨[], r, h, by simp, Advances.refl _⟩, le_rfl⟩
        (by simp only; omega)
    · intro s s' ⟨⟨frames, r', hholds, hpackets, hadv⟩, hweight⟩ hstep
      unfold readerStep at hstep
      split_ifs at hstep with hsrc
      obtain ⟨t, hdecode, ⟨frames', r'', hholds', hframes, hadv'⟩, hless⟩ :=
        byteDecode_spec hreads hmin hholds hsrc (show decodeWeight s.dec s.src < fuel by omega)
      rw [hdecode] at hstep
      cases hstep
      refine ⟨⟨⟨frames ++ frames', r'', hholds', ?_, hadv.trans hadv'⟩, by simp only; omega⟩, hless⟩
      rw [hpackets, hframes, List.map_append, List.append_assoc]
    · intro s res ⟨⟨frames, r', hholds, hpackets, hadv⟩, hweight⟩ hstep
      unfold readerStep at hstep
      split_ifs at hstep with hsrc
      · cases hstep
        refine ⟨s, rfl, frames, r', hholds, hpackets, ?_⟩
        have hcuts := hadv [] r' (by rw [hsrc, List.append_nil]; exact hholds.cuts)
        rwa [List.append_nil] at hcuts
      · obtain ⟨t, hdecode, -⟩ :=
          byteDecode_spec hreads hmin hholds hsrc (show decodeWeight s.dec s.src < fuel by omega)
        rw [hdecode] at hstep
        cases hstep
  obtain ⟨res, hloop, s, rfl, frames, r', hholds, hpackets, hcuts⟩ := hread
  refine ⟨s.dec, frames, r', ?_, hholds, hcuts⟩
  simp [readChunk, hloop, hpackets]

/-- The chunks of a connection are cut as the stream that they are of. -/
lemma received_spec (hreads : ReadsHeader decodeHeader accepts)
    (hmin : ∀ size, accepts size = true → pktHdrSize ≤ size.toNat) (chunks : List (List UInt8))
    {fuel : ℕ} (hfuel : 2 * chunks.flatten.length + 1 < fuel) :
    ∃ frames r, received decodeHeader chunks fuel = some (frames.map rawPacket) ∧
      Cuts (byteFramer accepts) chunks.flatten frames r := by
  have hfold : ∀ d r packets, Holds accepts d r → ∃ d' frames r',
      chunks.foldlM (readChunk decodeHeader fuel) (d, packets) =
        some (d', packets ++ frames.map rawPacket) ∧
        Cuts (byteFramer accepts) (r ++ chunks.flatten) frames r' := by
    induction chunks with
    | nil =>
      intro d r packets h
      refine ⟨d, [], r, by simp, ?_⟩
      rw [List.flatten_nil, List.append_nil]
      exact h.cuts
    | cons chunk chunks ih =>
      intro d r packets h
      rw [List.flatten_cons, List.length_append] at hfuel
      obtain ⟨d', frames, r', hread, hholds, hcuts⟩ := 
        readChunk_spec hreads hmin h packets chunk (show 2 * chunk.length + 1 < fuel by omega)
      obtain ⟨d'', frames', r'', hrest, hcuts'⟩ :=
        ih (by omega) d' r' (packets ++ frames.map rawPacket) hholds
      refine ⟨d'', frames ++ frames', r'', ?_, ?_⟩
      · simp [List.foldlM_cons, hread, hrest]
      · rw [List.flatten_cons, ← List.append_assoc]
        exact hcuts.append hcuts'
  obtain ⟨d, frames, r, hrun, hcuts⟩ := hfold ByteDecoder.new [] [] (.idle [] [])
  exact ⟨frames, r, by simp [received, hrun], hcuts⟩

end Bytewise

end Obus
