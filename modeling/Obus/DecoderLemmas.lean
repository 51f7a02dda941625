import Obus.BufferLemmas
import Obus.Decoder

/-!
# What a round of the packet decoder does

Specifications of the parts of `obus_packet_decoder_read` in terms of the valid content of the
buffer: the search for a header finds the first position at which nine bytes form one
(`packetDecodeHeader_finds`, `packetDecodeHeader_misses`), a read appends to the content
(`ioRead_cases`), and a packet is taken off its front (`bufferRemoveFirst_content`).
-/

namespace Obus

open Prog

namespace Buffer

/-- The bytes at the read position, as far as they are valid. -/
lemma slice_eq_content {b : Buffer} {k : ℕ} (h : b.pos + k ≤ b.length) :
    b.slice k = (b.content.drop b.pos).take k := by
  rw [slice, content, List.drop_take, List.take_take, min_eq_left (by omega)]

/-- The buffer with the read position at `p`. -/
def seek (b : Buffer) (p : ℕ) : Buffer := { b with pos := p }

@[simp] lemma seek_pos (b : Buffer) (p : ℕ) : (b.seek p).pos = p := rfl

@[simp] lemma seek_length (b : Buffer) (p : ℕ) : (b.seek p).length = b.length := rfl

@[simp] lemma seek_content (b : Buffer) (p : ℕ) : (b.seek p).content = b.content := rfl

@[simp] lemma seek_size (b : Buffer) (p : ℕ) : (b.seek p).size = b.size := rfl

end Buffer

/-! ## Removing bytes from the front -/

/-- The read position follows the content, down to its front. -/
lemma bufferRemoveFirst_pos {b : Buffer} {n : ℕ} (hn : n < b.length) :
    (bufferRemoveFirst n b).pos = b.pos - n := by
  unfold bufferRemoveFirst
  split_ifs with h0 hall hlt
  · omega
  · omega
  · rfl
  · change 0 = _
    omega

/-- Removing bytes from the front drops them from the content. -/
lemma bufferRemoveFirst_content {b : Buffer} (hb : b.Ok) (n : ℕ) :
    (bufferRemoveFirst n b).content = b.content.drop n ∧ (bufferRemoveFirst n b).Ok ∧
      (bufferRemoveFirst n b).size = b.size ∧ (bufferRemoveFirst n b).length = b.length - n := by
  have hb' : b.length ≤ b.data.length := hb
  unfold bufferRemoveFirst
  by_cases h0 : n = 0 ∨ b.length = 0
  · rw [if_pos h0]
    rcases h0 with rfl | h0
    · exact ⟨by simp, hb, rfl, by simp⟩
    · have hnil : b.content = [] := by rw [Buffer.content, h0, List.take_zero]
      exact ⟨by rw [hnil, List.drop_nil], hb, rfl, by omega⟩
  rw [if_neg h0]
  by_cases hall : b.length ≤ n
  · rw [if_pos hall]
    refine ⟨?_, Nat.zero_le _, rfl, by simp; omega⟩
    rw [List.drop_eq_nil_of_le (by rw [Buffer.content_length hb]; exact hall)]
    exact List.take_zero
  · rw [if_neg hall]
    have hmoved : ((b.data.drop n).take (b.length - n)).length = b.length - n := by
      rw [List.length_take, List.length_drop]
      omega
    have hsize : ((b.data.drop n).take (b.length - n) ++ b.data.drop (b.length - n)).length =
        b.data.length := by
      rw [List.length_append, hmoved, List.length_drop]
      omega
    refine ⟨?_, ?_, hsize, rfl⟩
    · change List.take (b.length - n) _ = _
      rw [List.take_left' hmoved, Buffer.content, List.drop_take]
    · change b.length - n ≤ List.length _
      rw [hsize]
      omega

/-! ## The search for a header -/

/-- The header that a list of bytes starts with: its size field and its type. -/
def headerOf (s : List UInt8) : Option (UInt32 × PacketType) :=
  if s.length < pktHdrSize then none
  else if UInt32.ofNat (ofBigEndian (s.take 4)) ≠ obusMagic then none
  else (PacketType.ofCode? (UInt8.ofNat (ofBigEndian ((s.drop 8).take 1)))).map fun type =>
    (UInt32.ofNat (ofBigEndian ((s.drop 4).take 4)), type)

lemma le_length_of_headerOf {s : List UInt8} {p : UInt32 × PacketType} (h : headerOf s = some p) :
    pktHdrSize ≤ s.length := by
  unfold headerOf at h
  split_ifs at h with hlen
  omega

lemma headerOf_eq_none_of_length_lt {s : List UInt8} (h : s.length < pktHdrSize) :
    headerOf s = none := by
  rw [headerOf, if_pos h]

/-- Only the first nine bytes matter. -/
lemma headerOf_append {s : List UInt8} (h : pktHdrSize ≤ s.length) (t : List UInt8) :
    headerOf (s ++ t) = headerOf s := by
  have h9 : 9 ≤ s.length := h
  have htake : ∀ k n, k + n ≤ 9 → ((s ++ t).drop k).take n = (s.drop k).take n := by
    intro k n hkn
    rw [List.drop_append_of_le_length (by omega), List.take_append_of_le_length]
    rw [List.length_drop]
    omega
  have h0 := htake 0 4 (by omega)
  rw [List.drop_zero, List.drop_zero] at h0
  have hlen : ¬ (s ++ t).length < pktHdrSize := by
    rw [List.length_append, Nat.not_lt]
    exact le_trans h (Nat.le_add_right _ _)
  unfold headerOf
  rw [if_neg hlen, if_neg (Nat.not_lt.mpr h), h0, htake 8 1 (by omega), htake 4 4 (by omega)]

lemma bufferReadLength_eq (b : Buffer) (hb : b.Ok) :
    bufferReadLength b = (b.content.drop b.pos).length := by
  rw [bufferReadLength, List.length_drop, Buffer.content_length hb]
  split <;> omega

/-- The three reads of a header whose bytes are there. -/
lemma readHeader {b : Buffer} (h : b.pos + pktHdrSize ≤ b.length) :
    bufferReadU32 b = (.ok (UInt32.ofNat (ofBigEndian ((b.content.drop b.pos).take 4))),
      b.advance 4) ∧
      bufferReadU32 (b.advance 4) =
        (.ok (UInt32.ofNat (ofBigEndian (((b.content.drop b.pos).drop 4).take 4))), b.advance 8) ∧
      bufferReadU8 (b.advance 8) =
        (.ok (UInt8.ofNat (ofBigEndian (((b.content.drop b.pos).drop 8).take 1))),
          b.advance 9) := by
  have h9 : b.pos + 9 ≤ b.length := h
  have hword : ∀ (k n : ℕ) (e : Errno), k + n ≤ 9 → bufferReadWord b.length n e (b.advance k) =
      (.ok (ofBigEndian (((b.content.drop b.pos).drop k).take n)), b.advance (k + n)) := by
    intro k n e hkn
    have hslice : (b.advance k).slice n = ((b.content.drop b.pos).drop k).take n := by
      rw [Buffer.slice_eq_content (by simp; omega), List.drop_drop]
      rfl
    rw [bufferReadWord, if_neg (by simp; omega), hslice]
    simp [Buffer.advance, Nat.add_assoc]
  refine ⟨?_, ?_, ?_⟩
  · have h0 := hword 0 4 .eagain (by omega)
    rw [Buffer.advance_zero, List.drop_zero] at h0
    rw [bufferReadU32, h0]
    rfl
  · rw [bufferReadU32, Buffer.advance_length, hword 4 4 .eagain (by omega)]
    rfl
  · rw [bufferReadU8, Buffer.advance_length, hword 8 1 .eagain (by omega)]
    rfl

/-- One round of the search at a position where there is no header. -/
lemma decodeHeaderLoop_skip {d : Decoder} (hok : d.buf.Ok)
    (h : d.buf.pos + pktHdrSize ≤ d.buf.length)
    (hnone : headerOf (d.buf.content.drop d.buf.pos) = none) (n : ℕ) :
    ∃ hdr, decodeHeaderLoop (n + 1) d =
      decodeHeaderLoop n { d with hdr := hdr, buf := d.buf.advance 1 } := by
  have h9 : d.buf.pos + 9 ≤ d.buf.length := h
  obtain ⟨h₁, h₂, h₃⟩ := readHeader h
  have hlen : ¬ (d.buf.content.drop d.buf.pos).length < pktHdrSize := by
    rw [List.length_drop, Buffer.content_length hok]
    change ¬ _ < 9
    omega
  have hset : ∀ k, bufferSetReadPosition (d.buf.pos + 1) (d.buf.advance k) =
      (.ok (), d.buf.advance 1) := by
    intro k
    rw [bufferSetReadPosition, if_neg (by simp; omega)]
    rfl
  rw [headerOf, if_neg hlen] at hnone
  rw [decodeHeaderLoop, bufferReadLength_eq _ hok, if_neg hlen]
  simp only [h₁, h₂, h₃, wordOr0]
  split_ifs at hnone with hmagic
  · exact ⟨_, by rw [if_pos hmagic, hset]⟩
  · rw [Option.map_eq_none_iff] at hnone
    exact ⟨_, by rw [if_neg hmagic, if_pos (by rw [hnone]; rfl), hset]⟩

/-- The round of the search that finds a header. -/
lemma decodeHeaderLoop_found {d : Decoder} (hok : d.buf.Ok) {size : UInt32} {type : PacketType}
    (hsome : headerOf (d.buf.content.drop d.buf.pos) = some (size, type)) (n : ℕ) :
    ∃ d', decodeHeaderLoop (n + 1) d = (true, d') ∧ d'.hdrValid = true ∧ d'.hdr.size = size ∧
      d'.hdr.type = type.code ∧ d'.buf = bufferRemoveFirst d.buf.pos (d.buf.advance 9) := by
  have hlen := le_length_of_headerOf hsome
  have h9 : d.buf.pos + 9 ≤ d.buf.length := by
    rw [List.length_drop, Buffer.content_length hok] at hlen
    change 9 ≤ _ at hlen
    omega
  obtain ⟨h₁, h₂, h₃⟩ := readHeader h9
  rw [headerOf, if_neg (Nat.not_lt.mpr hlen)] at hsome
  split_ifs at hsome with hmagic
  obtain ⟨t, ht, hpair⟩ := Option.map_eq_some_iff.mp hsome
  obtain ⟨rfl, rfl⟩ := Prod.mk.inj hpair
  rw [decodeHeaderLoop, bufferReadLength_eq _ hok, if_neg (Nat.not_lt.mpr hlen)]
  simp only [h₁, h₂, h₃, wordOr0]
  rw [if_neg hmagic, if_neg (by rw [ht]; simp)]
  exact ⟨_, rfl, rfl, rfl, (PacketType.code_of_ofCode? ht).symm, rfl⟩

/-- The search from a position with no header at or behind it. -/
lemma decodeHeaderLoop_missing (n : ℕ) {d : Decoder} (hok : d.buf.Ok)
    (hn : d.buf.length < n + d.buf.pos)
    (hnone : ∀ i, d.buf.pos ≤ i → headerOf (d.buf.content.drop i) = none) :
    ∃ hdr p, decodeHeaderLoop n d = (false, { d with hdr := hdr, buf := d.buf.seek p }) ∧
      (d.buf.pos + 9 ≤ d.buf.length → p = d.buf.length - 8) ∧
      (d.buf.length < d.buf.pos + 9 → p = d.buf.pos) := by
  induction n generalizing d with
  | zero => exact ⟨d.hdr, d.buf.pos, rfl, by omega, fun _ => rfl⟩
  | succ n ih =>
    by_cases h : d.buf.pos + 9 ≤ d.buf.length
    · obtain ⟨hdr, hskip⟩ := decodeHeaderLoop_skip hok h (hnone _ le_rfl) n
      obtain ⟨hdr', p, hrest, hp₁, hp₂⟩ :=
        ih (d := { d with hdr := hdr, buf := d.buf.advance 1 }) hok
        (by simp; omega) (fun i hi => hnone i (by simp at hi; omega))
      simp only [Buffer.advance_pos, Buffer.advance_length] at hp₁ hp₂
      exact ⟨hdr', p, hskip.trans hrest, by omega, by omega⟩
    · have hlen : bufferReadLength d.buf < pktHdrSize := by
        rw [bufferReadLength_eq _ hok, List.length_drop, Buffer.content_length hok]
        change _ < 9
        omega
      refine ⟨d.hdr, d.buf.pos, ?_, by omega, fun _ => rfl⟩
      rw [decodeHeaderLoop, if_pos hlen]
      rfl

/-- The search from a position whose next header is at `i`. -/
lemma decodeHeaderLoop_reaches (n : ℕ) {d : Decoder} (hok : d.buf.Ok) {i : ℕ} (hi : d.buf.pos ≤ i)
    (hn : i < n + d.buf.pos)
    (hnone : ∀ j, d.buf.pos ≤ j → j < i → headerOf (d.buf.content.drop j) = none) {size : UInt32}
    {type : PacketType} (hsome : headerOf (d.buf.content.drop i) = some (size, type)) :
    ∃ d', decodeHeaderLoop n d = (true, d') ∧ d'.hdrValid = true ∧ d'.hdr.size = size ∧
      d'.hdr.type = type.code ∧ d'.buf = bufferRemoveFirst i (d.buf.seek (i + 9)) := by
  induction n generalizing d with
  | zero => omega
  | succ n ih =>
    by_cases h : d.buf.pos = i
    · subst h
      exact decodeHeaderLoop_found hok hsome n
    · have hlen := le_length_of_headerOf hsome
      have h9 : d.buf.pos + 9 ≤ d.buf.length := by
        rw [List.length_drop, Buffer.content_length hok] at hlen
        change 9 ≤ _ at hlen
        omega
      obtain ⟨hdr, hskip⟩ := decodeHeaderLoop_skip hok h9 (hnone _ le_rfl (by omega)) n
      rw [hskip]
      exact ih (d := { d with hdr := hdr, buf := d.buf.advance 1 }) hok (by simp; omega)
        (by simp; omega) (fun j hj hji => hnone j (by simp at hj; omega) hji) hsome

/-- The header search finds the first header at or behind the read position and removes what stands
before it. -/
lemma packetDecodeHeader_finds {d : Decoder} (hok : d.buf.Ok) {i : ℕ} (hpos : d.buf.pos ≤ i)
    (hnone : ∀ j, d.buf.pos ≤ j → j < i → headerOf (d.buf.content.drop j) = none) {size : UInt32}
    {type : PacketType} (hsome : headerOf (d.buf.content.drop i) = some (size, type)) :
    ∃ d', packetDecodeHeader d = (true, d') ∧ d'.hdrValid = true ∧ d'.hdr.size = size ∧
      d'.hdr.type = type.code ∧ d'.buf.pos = 9 ∧ d'.buf.Ok ∧ d'.buf.size = d.buf.size ∧
      d'.buf.content = d.buf.content.drop i := by
  have hlen := le_length_of_headerOf hsome
  rw [List.length_drop, Buffer.content_length hok] at hlen
  change 9 ≤ _ at hlen
  obtain ⟨d', hloop, hvalid, hsize, htype, hbuf⟩ := decodeHeaderLoop_reaches (d.buf.length + 1) hok
    hpos (by omega) hnone hsome
  obtain ⟨hcont, hok', hsz, -⟩ := bufferRemoveFirst_content (b := d.buf.seek (i + 9)) hok i
  have hpos' : (bufferRemoveFirst i (d.buf.seek (i + 9))).pos = 9 := by
    rw [bufferRemoveFirst_pos (by simp; omega), Buffer.seek_pos]
    omega
  rw [← hbuf] at hcont hok' hsz hpos'
  exact ⟨d', by rw [packetDecodeHeader, hloop], hvalid, hsize, htype, hpos', hok', hsz, hcont⟩

/-- From the front of the content the search finds the first header. -/
lemma packetDecodeHeader_found {d : Decoder} (hok : d.buf.Ok) (hpos : d.buf.pos = 0) {i : ℕ}
    (hnone : ∀ j < i, headerOf (d.buf.content.drop j) = none) {size : UInt32} {type : PacketType}
    (hsome : headerOf (d.buf.content.drop i) = some (size, type)) :
    ∃ d', packetDecodeHeader d = (true, d') ∧ d'.hdrValid = true ∧ d'.hdr.size = size ∧
      d'.hdr.type = type.code ∧ d'.buf.pos = 9 ∧ d'.buf.Ok ∧ d'.buf.size = d.buf.size ∧
      d'.buf.content = d.buf.content.drop i :=
  packetDecodeHeader_finds hok (by omega) (fun j _ hj => hnone j hj) hsome

/-- Without a header at or behind the read position the last eight bytes are kept, and the position
follows the content. -/
lemma packetDecodeHeader_misses {d : Decoder} (hok : d.buf.Ok)
    (hnone : ∀ j, d.buf.pos ≤ j → headerOf (d.buf.content.drop j) = none) :
    ∃ d', packetDecodeHeader d = (false, d') ∧ d'.hdrValid = d.hdrValid ∧
      d'.buf.pos = d.buf.pos - (d.buf.length - 8) ∧ d'.buf.Ok ∧ d'.buf.size = d.buf.size ∧
      d'.buf.content = d.buf.content.drop (d.buf.length - 8) := by
  obtain ⟨hdr, p, hloop, hp₁, hp₂⟩ :=
    decodeHeaderLoop_missing (d.buf.length + 1) hok (by omega) hnone
  rw [packetDecodeHeader, hloop]
  by_cases h : 9 ≤ d.buf.length
  · obtain ⟨hcont, hok', hsz, -⟩ :=
      bufferRemoveFirst_content (b := d.buf.seek p) hok (d.buf.length - 8)
    have hpos' : (bufferRemoveFirst (d.buf.length - 8) (d.buf.seek p)).pos =
        d.buf.pos - (d.buf.length - 8) := by
      rw [bufferRemoveFirst_pos (by simp; omega), Buffer.seek_pos]
      omega
    exact ⟨_, if_pos h, rfl, hpos', hok', hsz, hcont⟩
  · refine ⟨_, if_neg h, rfl, ?_, hok, rfl, ?_⟩
    · change p = _
      omega
    · rw [Nat.sub_eq_zero_of_le (by omega), List.drop_zero]
      rfl

/-- From the front of the content the search that finds no header goes back to it. -/
lemma packetDecodeHeader_missing {d : Decoder} (hok : d.buf.Ok) (hpos : d.buf.pos = 0)
    (hnone : ∀ j, headerOf (d.buf.content.drop j) = none) :
    ∃ d', packetDecodeHeader d = (false, d') ∧ d'.hdrValid = d.hdrValid ∧ d'.buf.pos = 0 ∧
    d'.buf.Ok ∧
      d'.buf.size = d.buf.size ∧ d'.buf.content = d.buf.content.drop (d.buf.length - 8) := by
  obtain ⟨d', hrun, hvalid, hpos', hrest⟩ := packetDecodeHeader_misses hok fun j _ => hnone j
  exact ⟨d', hrun, hvalid, by omega, hrest⟩

/-! ## Reading -/

/-- The bytes that the reads of a descriptor will give. -/
def ioBytes : List ReadEvent → List UInt8
  | [] => []
  | .data bs :: io => bs ++ ioBytes io
  | .again :: io => ioBytes io
  | .error _ :: io => ioBytes io

/-- A read either fails and leaves the content as it is, or appends the first bytes that come.  A
read that gives no byte uses up an event, unless nothing was asked for, there was no memory or there
was no event. -/
lemma ioRead_cases (mem : Realloc) (size : ℕ) {buf : Buffer} (hok : buf.Ok) (io : List ReadEvent) :
    (∃ e buf' io', ioRead mem size buf io = (.error e, buf', io') ∧ buf'.Ok ∧
        buf'.content = buf.content ∧ buf'.pos = buf.pos ∧ buf'.length = buf.length ∧
        buf.size ≤ buf'.size ∧ ioBytes io' = ioBytes io ∧ io'.length ≤ io.length ∧
        (size = 0 ∨ (∃ n, mem n = none) ∨ io = [] ∨ io'.length < io.length)) ∨
      (∃ got buf' io', ioRead mem size buf io = (.ok got.length, buf', io') ∧ buf'.Ok ∧
        buf'.content = buf.content ++ got ∧ buf'.pos = buf.pos ∧
        buf'.length = buf.length + got.length ∧ buf.size ≤ buf'.size ∧
        ioBytes io = got ++ ioBytes io' ∧ io'.length ≤ io.length ∧
        (got = [] → io'.length < io.length)) := by
  unfold ioRead
  by_cases h0 : size = 0
  · rw [if_pos h0]
    exact Or.inl ⟨_, _, _, rfl, hok, rfl, rfl, rfl, le_rfl, rfl, le_rfl, Or.inl h0⟩
  rw [if_neg h0]
  rcases bufferEnsureRealloc_cases mem (buf.length + size) buf with ⟨tail, h, hroom⟩ | ⟨h, hmem⟩
  · have hok' : ({ buf with data := buf.data ++ tail } : Buffer).Ok := by
      simp only [Buffer.Ok, Buffer.size, List.length_append] at hok ⊢
      omega
    have hcont : ({ buf with data := buf.data ++ tail } : Buffer).content = buf.content :=
      List.take_append_of_le_length hok
    have hsize : buf.size ≤ ({ buf with data := buf.data ++ tail } : Buffer).size := by
      simp [Buffer.size]
    simp only [h]
    rcases io with _ | ⟨bs | _ | e, io⟩
    · exact Or.inl ⟨_, _, _, rfl, hok', hcont, rfl, rfl, hsize, rfl, le_rfl, by simp⟩
    · have hle : (bs.take size).length ≤ size := by simp
      have hfit : buf.length + (bs.take size).length ≤
          ({ buf with data := buf.data ++ tail } : Buffer).size := by
        simp only [Buffer.size, List.length_append] at hroom ⊢
        omega
      have hstore := Buffer.store_length_of_le hfit
      refine Or.inr ⟨bs.take size, _, _, rfl, ?_, ?_, rfl, rfl, ?_, ?_, ?_, ?_⟩
      · exact le_trans hfit (le_of_eq hstore.symm)
      · exact (Buffer.take_store_end hok' (bs.take size)).trans (by rw [hcont])
      · exact le_trans hsize (le_of_eq hstore.symm)
      · by_cases hbs : bs.length ≤ size
        · rw [if_pos hbs, List.take_of_length_le hbs]
          rfl
        · rw [if_neg hbs]
          simp only [ioBytes]
          rw [← List.append_assoc, List.take_append_drop]
      · split <;> simp
      · intro hnil
        have hbs : bs = [] := by
          rcases List.take_eq_nil_iff.mp hnil with h | h
          · exact absurd h h0
          · exact h
        rw [if_pos (by simp [hbs])]
        simp
    · exact Or.inl ⟨_, _, _, rfl, hok', hcont, rfl, rfl, hsize, rfl, by simp, by simp⟩
    · exact Or.inl ⟨_, _, _, rfl, hok', hcont, rfl, rfl, hsize, rfl, by simp, by simp⟩
  · rw [h]
    exact Or.inl ⟨_, _, _, rfl, hok, rfl, rfl, rfl, le_rfl, rfl, le_rfl, Or.inr (Or.inl ⟨_, hmem⟩)⟩

/-! ## Decoding leaves the content alone -/

/-- A read primitive moves the read position and nothing else. -/
lemma readHandler_frame (o : ReadOp) (b : Buffer) :
    (readHandler o b).2.data = b.data ∧ (readHandler o b).2.length = b.length := by
  have hword : ∀ (l k : ℕ) (e : Errno), (bufferReadWord l k e b).2.data = b.data ∧
      (bufferReadWord l k e b).2.length = b.length := by
    intro l k e
    unfold bufferReadWord
    split <;> exact ⟨rfl, rfl⟩
  cases o with
  | u8 | u16 | u32 | u64 => exact hword _ _ _
  | dup size =>
    simp only [readHandler, bufferDup]
    split_ifs <;> exact ⟨rfl, rfl⟩
  | getReadPosition => exact ⟨rfl, rfl⟩
  | setReadPosition pos =>
    simp only [readHandler, bufferSetReadPosition]
    split <;> exact ⟨rfl, rfl⟩
  | incReadPosition value =>
    simp only [readHandler, bufferIncReadPosition]
    split <;> exact ⟨rfl, rfl⟩

/-- A decoding program moves the read position and nothing else. -/
lemma Dec.on_frame {α : Type} (p : Dec α) (b : Buffer) :
    (p.on b).2.data = b.data ∧ (p.on b).2.length = b.length := by
  refine run_invariant readHandler (I := fun c => c.data = b.data ∧ c.length = b.length) ?_ p
    ⟨rfl, rfl⟩
  intro o c hc
  obtain ⟨hdata, hlength⟩ := readHandler_frame o c
  exact ⟨hdata.trans hc.1, hlength.trans hc.2⟩

/-! ## The head of a bus event -/

/-- The numbers in front of the items of a bus event. -/
def busEventHead : Dec (UInt16 × UInt32 × UInt32 × UInt32) := do
  let uid ← readU16
  let nAdd ← readU32
  let nRemove ← readU32
  let nEvents ← readU32
  pure (uid, nAdd, nRemove, nEvents)

end Obus
