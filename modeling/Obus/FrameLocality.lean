import Obus.FrameCompletion
import Obus.RoundTrip

/-!
# Bytes behind the packet

The result of decoding a packet should be a function of the bytes of the packet and of the bus.  The
reads of a decoder are bounded by the content of its buffer and not by the packet, so that a packet
whose parts reach behind it is completed with bytes that do not belong to it.

Exactly the packets whose parts end inside them are decoded alike on every bus, whatever follows
them (`frame_locality`).
-/

namespace Obus

open Prog

section Packets

variable {data : List UInt8} {pos : ℕ}

/-! ## Packets that do not lie in their bytes -/

lemma fails_readNewString (h : textEnd data pos = none) : Fails data readNewString pos := by
  obtain ⟨e, v, he⟩ := exists_error_decodeValue (t := .string) none h
  exact ⟨e, Dec.fst_bind he⟩

lemma fails_packetConreq (h : conreqEnd data pos = none) : Fails data packetConreqDecode pos := by
  by_cases hversion : pos + 1 ≤ data.length
  swap
  · exact (fails_readU8 (not_le.mp hversion)).bind
  refine (goesTo_readU8 hversion).fails ?_
  cases hbus : textEnd data (pos + 1) with
  | none => exact (fails_readNewString hbus).bind
  | some next =>
    refine (goesTo_readNewString hbus).fails ?_
    by_cases hcrc : next + 4 ≤ data.length
    swap
    · exact (fails_readU32 (not_le.mp hcrc)).bind
    refine (goesTo_readU32 hcrc).fails ?_
    cases hclient : textEnd data (next + 4) with
    | none => exact (fails_readNewString hclient).bind
    | some last =>
      rw [conreqEnd, bytesEnd_eq_some.mpr ⟨hversion, rfl⟩, Option.bind_some, hbus, Option.bind_some,
        bytesEnd_eq_some.mpr ⟨hcrc, rfl⟩, Option.bind_some, hclient] at h
      cases h

lemma fails_packetAck (h : data.length < pos + 3) : Fails data packetAckDecode pos := by
  by_cases hhandle : pos + 2 ≤ data.length
  · exact (goesTo_readU16 hhandle).fails (fails_readU8 (by omega)).bind
  · exact (fails_readU16 (not_le.mp hhandle)).bind

lemma fails_packetConresp (bus : Bus) (h : data.length < pos + 5) :
    Fails data (packetConrespDecode bus) pos := by
  by_cases hin : pos + 1 ≤ data.length
  · refine (goesTo_readU8 hin).fails ?_
    cases ConrespStatus.ofCode? (UInt8.ofNat (wordAt data 1 pos)) with
    | none => exact ⟨.einval, rfl⟩
    | some status => exact (fails_readU32 (by omega)).bind
  · exact (fails_readU8 (not_le.mp hin)).bind

lemma wideBus_busEvent? (uid handle sub : UInt16) (desc : StructDesc) (h : wordAt data 2 pos ≠ 0) :
    (wideBus uid handle sub (UInt16.ofNat (wordAt data 2 pos)) desc).api.busEvent?
      (UInt16.ofNat (wordAt data 2 pos)) = some ⟨UInt16.ofNat (wordAt data 2 pos)⟩ := by
  have hne : UInt16.ofNat (wordAt data 2 pos) ≠ 0 := by
    intro hzero
    have hword := congrArg UInt16.toNat hzero
    rw [toNat_wordAt16] at hword
    exact h hword
  rw [BusDesc.busEvent?, if_neg hne, wideBus]
  exact List.find?_cons_of_pos (decide_eq_true rfl)

/-- What fails on the packet alone gives no packet. -/
lemma Fails.packet_eq_none {α : Type} {p : Dec α} {g : α → PacketInfo} (h : Fails data p pos) :
    ((g <$> p).on (exactly data pos)).1.toOption = none := by
  obtain ⟨e, he⟩ := h
  rw [run_map, he]
  rfl

/-- A packet that does not lie in its bytes is told apart on some bus. -/
lemma exists_splits_packet {type : PacketType} (hpos : pos ≤ data.length)
    (h : ¬BodyWithin data pos type) :
    ∃ bus, Splits (fun b => ((packetDecode bus type).on b).1.toOption) data pos := by
  have hsingle : ∀ k, singleKind type = some k → ¬ElementsWithin data [k] pos →
      ∃ bus, Splits (fun b => ((packetDecode bus type).on b).1.toOption) data pos := by
    intro k hk helems
    obtain ⟨uid, handle, sub, desc, t, t', hne⟩ := exists_splits_elements helems 1
    exact ⟨_, t, t', fun heq => hne ((single_eq_iff hk _ _).mp heq)⟩
  -- on the packet alone there is none, and there is one with something behind it
  have hcompleted : ∀ (bus : Bus) {info : PacketInfo} {u : List UInt8},
      ((packetDecode bus type).on (exactly data pos)).1.toOption = none →
      ((packetDecode bus type).on (exactly (data ++ u) pos)).1 = .ok info →
      ∃ bus, Splits (fun b => ((packetDecode bus type).on b).1.toOption) data pos := by
    intro bus info u hnone hsome
    refine ⟨bus, [], u, ?_⟩
    simp only [List.append_nil]
    rw [hnone, hsome]
    exact nofun
  cases type with
  | add => exact hsingle .object rfl h
  | remove => exact hsingle .removal rfl h
  | event => exact hsingle .event rfl h
  | call => exact hsingle .call rfl h
  | ack =>
    obtain ⟨u, hlen, -, -⟩ := exists_padding data (pos + 3) 0
    have hu : pos + 3 ≤ (data ++ u).length := hlen.ge.trans' (le_max_right _ _)
    have hgoes := (goesTo_packetAck hu).map PacketInfo.ack
    exact hcompleted (wideBus 1 1 1 1 [])
      (fails_packetAck (not_le.mp h)).packet_eq_none (congrArg Prod.fst (hgoes _ exactly_at_self))
  | conreq =>
    have hend := Option.not_isSome_iff_eq_none.mp h
    obtain ⟨u, hu⟩ := stable_conreq.complete hpos hend
    obtain ⟨req, hreq⟩ := exists_goesTo_conreq hu
    have hgoes := hreq.map PacketInfo.conreq
    exact hcompleted (wideBus 1 1 1 1 []) (fails_packetConreq hend).packet_eq_none
      (congrArg Prod.fst (hgoes _ exactly_at_self))
  | conresp =>
    by_cases hcount : pos + 5 ≤ data.length
    · -- the objects are told apart
      have hstatus : wordAt data 1 pos < 3 := by
        by_contra hstatus
        exact h ⟨by omega, Or.inl (not_lt.mp hstatus)⟩
      obtain ⟨uid, handle, sub, desc, t, t', hne⟩ := exists_splits_elements
        (fun helems => h ⟨by omega, Or.inr ⟨hcount, helems⟩⟩) 1
      refine ⟨wideBus uid handle sub 1 desc, t, t', fun heq => hne ?_⟩
      obtain ⟨s, l, -, hinfo, hitems⟩ := conresp_on (wideBus uid handle sub 1 desc)
        (exactly_at t) hcount hstatus
      obtain ⟨s', l', -, hinfo', hitems'⟩ := conresp_on (wideBus uid handle sub 1 desc)
        (exactly_at t') hcount hstatus
      simp only [hinfo, hinfo'] at heq
      cases heq
      exact hitems.trans hitems'.symm
    · -- the number of objects is there or not
      obtain ⟨u, hu, -, hbytes⟩ := exists_padding data (pos + 5) 0
      have hlen : pos + 5 ≤ (data ++ u).length := hu.ge.trans' (le_max_right _ _)
      have hstatus : wordAt (data ++ u) 1 pos < 3 := by
        by_cases hin : pos + 1 ≤ data.length
        · rw [wordAt_append u hin]
          by_contra hstatus
          exact h ⟨hin, Or.inl (not_lt.mp hstatus)⟩
        · have hempty : wordAt (data ++ u) 0 pos = 0 := rfl
          rw [wordAt_succ (k := 0) (hbytes pos (by omega) (by omega)), hempty]
          decide
      obtain ⟨s, l, -, hinfo, -⟩ := conresp_on (wideBus 1 1 1 1 []) exactly_at_self hlen hstatus
      exact hcompleted _ (fails_packetConresp _ (not_le.mp hcount)).packet_eq_none hinfo
  | busEvent =>
    by_cases hcounts : pos + 14 ≤ data.length
    · -- the elements are told apart
      obtain ⟨hne, helems⟩ : wordAt data 2 pos ≠ 0 ∧ ¬ElementsWithin data (busEventKinds data pos)
        (pos + 14) := by
        constructor
        · exact fun hzero => h ⟨by omega, Or.inl hzero⟩
        · exact fun helems => h ⟨by omega, Or.inr ⟨hcounts, helems⟩⟩
      obtain ⟨uid, handle, sub, desc, t, t', hsplits⟩ :=
        exists_splits_elements helems (UInt16.ofNat (wordAt data 2 pos))
      have hdesc := wideBus_busEvent? uid handle sub desc hne
      refine ⟨wideBus uid handle sub (UInt16.ofNat (wordAt data 2 pos)) desc, t, t',
        fun heq => hsplits ?_⟩
      obtain ⟨l₁, l₂, l₃, hinfo, hitems⟩ := busEvent_on (exactly_at t) hcounts hdesc
      obtain ⟨m₁, m₂, m₃, hinfo', hitems'⟩ := busEvent_on (exactly_at t') hcounts hdesc
      simp only [hinfo, hinfo'] at heq
      cases heq
      exact hitems.trans hitems'.symm
    · -- the numbers of elements are there or not, behind a uid that is not zero
      have hcounted : ∀ {u : List UInt8}, pos + 2 ≤ (data ++ u).length →
          wordAt (data ++ u) 2 pos ≠ 0 →
          ∃ bus, Splits (fun b => ((packetDecode bus .busEvent).on b).1.toOption) data pos := by
        intro u hin hne
        obtain ⟨v, hlen, -, -⟩ := exists_padding (data ++ u) (pos + 14) 0
        have hv : pos + 14 ≤ (data ++ u ++ v).length := hlen.ge.trans' (le_max_right _ _)
        rw [← wordAt_append v hin] at hne
        obtain ⟨l₁, l₂, l₃, hinfo, -⟩ := busEvent_on exactly_at_self hv
          (wideBus_busEvent? 1 1 1 [] hne)
        rw [List.append_assoc] at hinfo
        exact hcompleted _ (busEvent_starved (not_le.mp hcounts)) hinfo
      by_cases huid : pos + 2 ≤ data.length
      · refine hcounted (u := []) ?_ ?_
        · rwa [List.append_nil]
        · rw [List.append_nil]
          exact fun hzero => h ⟨huid, Or.inl hzero⟩
      · obtain ⟨u, hu, hne⟩ := exists_wordAt_ne_zero (k := 1) (not_le.mp huid)
        exact hcounted hu.ge hne

end Packets

/-! ## Packets of a decoder -/

/-- The packet that a round of the decoder returned, if it did. -/
def Next.packet? : Next ReadState (Except Errno PacketInfo × Decoder × List ReadEvent) →
    Option PacketInfo
  | .done (.ok info, _, _) => some info
  | _ => none

/-- A packet that is complete, as the size in its header says. -/
structure CompletePacket where
  type : PacketType
  size : UInt32
  body : List UInt8
  complete : body.length = size.toNat - pktHdrSize

namespace CompletePacket

/-- The header of the packet. -/
def header (p : CompletePacket) : Header := ⟨obusMagic, p.size, p.type.code⟩

/-- The bytes of the packet. -/
def bytes (p : CompletePacket) : List UInt8 :=
  bigEndian 4 obusMagic.toNat ++ bigEndian 4 p.size.toNat ++ p.type.code :: p.body

/-- The decoder has found the header of the packet, and the packet stands at the start of its
buffer.  Whatever else the buffer holds, valid or stale, is arbitrary. -/
structure In (p : CompletePacket) (st : ReadState) : Prop where
  ok : st.dec.buf.Ok
  pos : st.dec.buf.pos = pktHdrSize
  hdr : st.dec.hdr = p.header
  starts : p.bytes <+: st.dec.buf.content

/-- What the packet is decoded to depends on its bytes and on the bus only. -/
def Independent (p : CompletePacket) : Prop :=
  ∀ bus st st', p.In st → p.In st' →
    Next.packet? (takePacket bus st) = Next.packet? (takePacket bus st')

lemma length_le_bytes (p : CompletePacket) : pktHdrSize ≤ p.bytes.length := by
  rw [bytes, List.length_append, List.length_append, bigEndian_length, bigEndian_length,
    List.length_cons]
  exact Nat.add_le_add_left (Nat.le_add_left 1 _) 8

/-- What a decoder makes of the packet is what the packet is decoded to in its buffer. -/
lemma In.packet? {p : CompletePacket} {st : ReadState} (h : p.In st) (bus : Bus) :
    Next.packet? (takePacket bus st) = ((packetDecode bus p.type).on st.dec.buf).1.toOption := by
  have htype : PacketType.ofCode? st.dec.hdr.type = some p.type := by
    rw [h.hdr]
    exact PacketType.ofCode?_code p.type
  unfold takePacket
  simp only [htype]
  cases hret : ((packetDecode bus p.type).on st.dec.buf).1 with
  | ok info => rfl
  | error e => rfl

lemma independent_iff (p : CompletePacket) :
    p.Independent ↔ ∀ bus, Alike p.bytes (packetDecode bus p.type) pktHdrSize := by
  constructor
  · intro h bus b c hb hc
    have hin : ∀ {b : Buffer}, b.At p.bytes pktHdrSize → p.In ⟨false, ⟨p.header, true, b⟩, []⟩ :=
      fun hb => ⟨hb.ok, hb.pos, rfl, hb.starts⟩
    have heq := h bus _ _ (hin hb) (hin hc)
    rwa [(hin hb).packet?, (hin hc).packet?] at heq
  · intro h bus st st' hst hst'
    rw [hst.packet?, hst'.packet?]
    exact h bus _ _ ⟨hst.ok, hst.starts, hst.pos⟩ ⟨hst'.ok, hst'.starts, hst'.pos⟩

/-- What a complete packet is decoded to depends on its bytes and on the bus only, exactly if its
parts end inside it. -/
theorem frame_locality (p : CompletePacket) : p.Independent ↔ PacketWithin p.bytes p.type := by
  rw [independent_iff]
  constructor
  · intro h
    by_contra hwithin
    obtain ⟨bus, t, t', hne⟩ := exists_splits_packet p.length_le_bytes hwithin
    exact hne (h bus _ _ (exactly_at t) (exactly_at t'))
  · intro h bus
    exact alike_packetDecode bus h

end CompletePacket

/-- An acknowledgement without a body. -/
def shortAck : CompletePacket := ⟨.ack, 9, [], rfl⟩

/-- A decoder that has read the header of an acknowledgement of `size` bytes, of which `body`
follows. -/
def ackDecoder (size : UInt8) (body : List UInt8) : ReadState :=
  ⟨false, ⟨⟨obusMagic, size.toUInt32, 7⟩, true,
    ⟨[111, 98, 117, 115, 0, 0, 0, size, 7] ++ body, 9 + body.length, 9⟩⟩, []⟩

theorem short_ack_not_local :
    shortAck.In (ackDecoder 9 [0, 5, 1]) ∧ shortAck.In (ackDecoder 9 [0, 6, 1]) ∧
      Next.packet? (takePacket sampleBus (ackDecoder 9 [0, 5, 1])) = some (.ack ⟨5, 1⟩) ∧
      Next.packet? (takePacket sampleBus (ackDecoder 9 [0, 6, 1])) = some (.ack ⟨6, 1⟩) :=
  ⟨⟨by decide, rfl, rfl, by decide⟩, ⟨by decide, rfl, rfl, by decide⟩, by decide, by decide⟩

end Obus
