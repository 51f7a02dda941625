import Obus.IoAlive

/-!
# Who holds the buffers

A buffer is held by the entries of the ios, which stand for two references each, by the decoders and
by the operations in progress.  `Counted hand s` says that the references to each buffer are those
of its holders and those that the function that is being performed has in its hand; a function takes
and gives them one by one, and ends with an empty hand.

Only `obus_io_destroy` loses references: those that the operations have left with the entries of the
list.  In a run in which ios have nothing to write when they are destroyed, buffers are conserved
(`buffers_conserved`).
-/

namespace Obus.Output

/-- The references to a buffer that an io and its decoder stand for. -/
def Io.holds (io : Io) (b : ℕ) : ℕ :=
  2 * io.writeBuffers.count b + if io.decoder = some b then 1 else 0

/-- The references to a buffer that its holders stand for. -/
def IoSys.holders (s : IoSys) (b : ℕ) : ℕ :=
  (∑ i ∈ Finset.range s.nIos, (s.ios i).holds b) + s.drafts.count b + s.sending.count b

/-- One reference to a buffer. -/
def oneTo (b : ℕ) : ℕ → ℤ := Pi.single b 1

lemma oneTo_apply (b x : ℕ) : oneTo b x = if x = b then 1 else 0 := Pi.single_apply b 1 x

@[simp] lemma oneTo_self (b : ℕ) : oneTo b b = 1 := Pi.single_eq_same b 1

@[simp] lemma oneTo_of_ne {b x : ℕ} (hx : x ≠ b) : oneTo b x = 0 := Pi.single_eq_of_ne hx 1

/-- The references are those of the holders and those in the hand of a function.  The free buffers
are those without references, in the list once. -/
structure Counted (hand : ℕ → ℤ) (s : IoSys) : Prop where
  refcnt : ∀ b < s.nBufs, (s.bufs b).refcnt = s.holders b + hand b
  beyond : ∀ b, s.nBufs ≤ b → s.holders b = 0 ∧ hand b = 0
  free : ∀ b, b ∈ s.free ↔ b < s.nBufs ∧ (s.bufs b).refcnt = 0
  nodup : s.free.Nodup

/-! ## Holders -/

section

variable {s : IoSys} {i b : ℕ} {io : Io}

lemma holders_setIo (io : Io) (hi : i < s.nIos) (b : ℕ) :
    (s.setIo i io).holders b + (s.ios i).holds b = s.holders b + io.holds b := by
  have hmem : i ∈ Finset.range s.nIos := Finset.mem_range.mpr hi
  have hnew : ∑ j ∈ Finset.range s.nIos, (Function.update s.ios i io j).holds b =
      io.holds b + ∑ j ∈ (Finset.range s.nIos).erase i, (s.ios j).holds b := by
    rw [← Finset.add_sum_erase _ _ hmem, Function.update_self]
    refine congrArg _ (Finset.sum_congr rfl fun j hj => ?_)
    rw [Function.update_of_ne (Finset.ne_of_mem_erase hj)]
  have hold := Finset.add_sum_erase (Finset.range s.nIos) (fun j => (s.ios j).holds b) hmem
  simp only [IoSys.holders, IoSys.setIo, hnew]
  omega

/-- A new io. -/
lemma holders_newIo (s : IoSys) (io : Io) (b : ℕ) :
    IoSys.holders { s.setIo s.nIos io with nIos := s.nIos + 1 } b = s.holders b + io.holds b := by
  have hold : ∑ j ∈ Finset.range s.nIos, (Function.update s.ios s.nIos io j).holds b =
      ∑ j ∈ Finset.range s.nIos, (s.ios j).holds b := by
    refine Finset.sum_congr rfl fun j hj => ?_
    rw [Function.update_of_ne (Finset.mem_range.mp hj).ne]
  simp only [IoSys.holders, IoSys.setIo, Finset.sum_range_succ, Function.update_self, hold]
  omega

/-- A change of an io that leaves its list and its decoder alone. -/
lemma holders_setIo_same (hi : i < s.nIos) (hio : ∀ b, io.holds b = (s.ios i).holds b) (b : ℕ) :
    (s.setIo i io).holders b = s.holders b := by
  have h := holders_setIo io hi b
  rw [hio] at h
  omega

lemma holds_le_holders (hi : i < s.nIos) (b : ℕ) : (s.ios i).holds b ≤ s.holders b := by
  have h : (s.ios i).holds b ≤ ∑ j ∈ Finset.range s.nIos, (s.ios j).holds b :=
    Finset.single_le_sum (f := fun j => (s.ios j).holds b) (fun _ _ => Nat.zero_le _)
      (Finset.mem_range.mpr hi)
  rw [IoSys.holders]
  omega

lemma holders_pos_of_sending (hb : b ∈ s.sending) : 0 < s.holders b := by
  have hcount := List.count_pos_iff.mpr hb
  rw [IoSys.holders]
  omega

lemma holders_pos_of_drafts (hb : b ∈ s.drafts) : 0 < s.holders b := by
  have hcount := List.count_pos_iff.mpr hb
  rw [IoSys.holders]
  omega

lemma two_le_holders_of_queued (hi : i < s.nIos) (hb : b ∈ (s.ios i).writeBuffers) :
    2 ≤ s.holders b := by
  have hcount := List.count_pos_iff.mpr hb
  have hle := holds_le_holders hi b
  rw [Io.holds] at hle
  omega

lemma holders_pos_of_decoder (hi : i < s.nIos) (hb : (s.ios i).decoder = some b) :
    0 < s.holders b := by
  have hle := holds_le_holders hi b
  rw [Io.holds, if_pos hb] at hle
  omega

end

/-! ## Taking and giving references -/

namespace Counted

variable {hand : ℕ → ℤ} {s : IoSys} {i b : ℕ}

/-- What has a holder is a buffer of the pool. -/
lemma lt_of_holders (h : Counted hand s) (hb : 0 < s.holders b) : b < s.nBufs := by
  by_contra hle
  have := (h.beyond b (Nat.le_of_not_lt hle)).1
  omega

/-- So is what a function has in its hand. -/
lemma lt_of_hand (h : Counted hand s) (hb : hand b ≠ 0) : b < s.nBufs := by
  by_contra hle
  exact hb (h.beyond b (Nat.le_of_not_lt hle)).2

/-- References change hands. -/
lemma transfer (h : Counted hand s) {t : IoSys} (hand' : ℕ → ℤ)
    (hsame : ∀ b, (t.holders b : ℤ) + hand' b = s.holders b + hand b)
    (hbeyond : ∀ b, s.nBufs ≤ b → t.holders b = 0 ∧ hand' b = 0)
    (hn : t.nBufs = s.nBufs) (hcnt : ∀ b, (t.bufs b).refcnt = (s.bufs b).refcnt)
    (hfree : t.free = s.free) : Counted hand' t := by
  refine ⟨fun b hb => ?_, fun b hb => hbeyond b (hn ▸ hb), fun b => ?_, hfree ▸ h.nodup⟩
  · rw [hcnt, hsame, h.refcnt b (hn ▸ hb)]
  · rw [hfree, hn, hcnt]
    exact h.free b

/-- Nothing that counts has changed. -/
lemma keep (h : Counted hand s) {t : IoSys} (hsame : ∀ b, t.holders b = s.holders b)
    (hn : t.nBufs = s.nBufs)
    (hcnt : ∀ b, (t.bufs b).refcnt = (s.bufs b).refcnt) (hfree : t.free = s.free) :
    Counted hand t :=
  h.transfer hand (fun b => by rw [hsame]) (fun b hb => by rw [hsame]; exact h.beyond b hb) hn
    hcnt hfree

lemma setBuf_data (h : Counted hand s) (bytes : List UInt8) :
    Counted hand (s.setBuf b ⟨bytes, (s.bufs b).refcnt⟩) := by
  refine h.keep (fun _ => rfl) rfl (fun x => ?_) rfl
  by_cases hx : x = b
  · subst hx
    simp [IoSys.setBuf]
  · simp [IoSys.setBuf, hx]

lemma ref (h : Counted hand s) (hb : b < s.nBufs) (hpos : 0 < (s.bufs b).refcnt) :
    Counted (hand + oneTo b) (bufferRef b s) := by
  refine ⟨fun x hx => ?_, fun x hx => ?_, fun x => ?_, h.nodup⟩
  · change (Function.update s.bufs b _ x).refcnt = s.holders x + (hand + oneTo b) x
    have hcnt := h.refcnt x hx
    by_cases hxb : x = b
    · subst hxb
      simp only [Function.update_self, Pi.add_apply, oneTo_self]
      omega
    · simpa [hxb] using hcnt
  · have hxb : x ≠ b := fun hxb => absurd hb (by rw [← hxb]; exact Nat.not_lt.mpr hx)
    change s.holders x = 0 ∧ (hand + oneTo b) x = 0
    simpa [hxb] using h.beyond x hx
  · change x ∈ s.free ↔ x < s.nBufs ∧ (Function.update s.bufs b _ x).refcnt = 0
    rw [h.free]
    by_cases hxb : x = b
    · subst hxb
      simp only [Function.update_self]
      omega
    · simp [hxb]

lemma unref (h : Counted hand s) (hb : b < s.nBufs) (hpos : 0 < (s.bufs b).refcnt) :
    Counted (hand - oneTo b) (bufferUnref b s) := by
  have hnot : b ∉ s.free := fun hmem => by
    have := ((h.free b).mp hmem).2
    omega
  have hcount : ∀ x < s.nBufs, (s.bufs x).refcnt - (oneTo b) x =
      s.holders x + (hand - oneTo b) x := by
    intro x hx
    rw [h.refcnt x hx, Pi.sub_apply]
    omega
  have hbeyond : ∀ x, s.nBufs ≤ x → s.holders x = 0 ∧ (hand - oneTo b) x = 0 := by
    intro x hx
    have hxb : x ≠ b := fun hxb => absurd hb (by rw [← hxb]; exact Nat.not_lt.mpr hx)
    simpa [hxb] using h.beyond x hx
  unfold bufferUnref
  simp only [IoSys.setBuf, Function.update_self]
  split
  · next hzero =>
    refine ⟨fun x hx => ?_, hbeyond, fun x => ?_, ?_⟩
    · refine Eq.trans ?_ (hcount x hx)
      by_cases hxb : x = b
      · subst hxb
        simp [bufferPoolPut, IoSys.setBuf, hzero]
      · simp [bufferPoolPut, IoSys.setBuf, hxb]
    · by_cases hxb : x = b
      · subst hxb
        simp [bufferPoolPut, IoSys.setBuf, hb]
      · simp [bufferPoolPut, IoSys.setBuf, hxb, h.free]
    · exact List.nodup_append.mpr ⟨h.nodup, List.nodup_singleton b, fun x hx y hy hxy =>
        hnot (List.mem_singleton.mp hy ▸ hxy ▸ hx)⟩
  · next hnonzero =>
    refine ⟨fun x hx => ?_, hbeyond, fun x => ?_, h.nodup⟩
    · refine Eq.trans ?_ (hcount x hx)
      by_cases hxb : x = b
      · subst hxb
        simp
      · simp [hxb]
    · by_cases hxb : x = b
      · subst hxb
        simp [hnonzero, hnot]
      · simp [hxb, h.free]

lemma peek (h : Counted hand s) {mem : Bool} {t : IoSys}
    (hpeek : bufferPoolPeek mem s = some (b, t)) : Counted (hand + oneTo b) t := by
  unfold bufferPoolPeek at hpeek
  split at hpeek
  · next hempty =>
    -- a new buffer, with the next number
    split at hpeek
    · obtain ⟨rfl, rfl⟩ := Prod.mk.inj (Option.some.inj hpeek)
      have hbeyond := h.beyond s.nBufs le_rfl
      refine ⟨fun x hx => ?_, fun x hx => ?_, fun x => ?_, h.nodup⟩
      · change (Function.update s.bufs s.nBufs ⟨[], 1⟩ x).refcnt = s.holders x +
            (hand + oneTo s.nBufs) x
        by_cases hxb : x = s.nBufs
        · subst hxb
          simp [hbeyond]
        · have hlt : x < s.nBufs := lt_of_le_of_ne (Nat.lt_succ_iff.mp hx) hxb
          simpa [hxb] using h.refcnt x hlt
      · have hle : s.nBufs < x := hx
        change s.holders x = 0 ∧ (hand + oneTo s.nBufs) x = 0
        simpa [hle.ne'] using h.beyond x hle.le
      · change x ∈ s.free ↔ x < s.nBufs + 1 ∧ (Function.update s.bufs s.nBufs ⟨[], 1⟩ x).refcnt = 0
        rw [h.free]
        by_cases hxb : x = s.nBufs
        · subst hxb
          simp
        · simp only [Function.update_of_ne hxb]
          omega
    · cases hpeek
  · next b' free hfree =>
    obtain ⟨rfl, rfl⟩ := Prod.mk.inj (Option.some.inj hpeek)
    have hnodup := h.nodup
    rw [hfree] at hnodup
    obtain ⟨hnot, hrest⟩ := List.nodup_cons.mp hnodup
    obtain ⟨hlt, hzero⟩ := (h.free b').mp (by rw [hfree]; exact List.mem_cons_self)
    refine ⟨fun x hx => ?_, fun x hx => ?_, fun x => ?_, hrest⟩
    · change (Function.update s.bufs b' _ x).refcnt = s.holders x + (hand + oneTo b') x
      have hcnt := h.refcnt x hx
      by_cases hxb : x = b'
      · subst hxb
        simp only [Function.update_self, Pi.add_apply, oneTo_self]
        omega
      · simpa [hxb] using hcnt
    · have hxb : x ≠ b' := fun hxb => absurd hlt (by rw [← hxb]; exact Nat.not_lt.mpr hx)
      change s.holders x = 0 ∧ (hand + oneTo b') x = 0
      simpa [hxb] using h.beyond x hx
    · change x ∈ free ↔ x < s.nBufs ∧ (Function.update s.bufs b' _ x).refcnt = 0
      by_cases hxb : x = b'
      · subst hxb
        simp [hnot]
      · have hmem : x ∈ s.free ↔ x ∈ free := by
          rw [hfree, List.mem_cons]
          exact or_iff_right hxb
        rw [← hmem, h.free]
        simp [hxb]

/-- `obus_buffer_unref` with the only reference in the hand. -/
lemma giveBack (h : Counted (oneTo b) s) : Counted 0 (bufferUnref b s) := by
  have hlt : b < s.nBufs := h.lt_of_hand (by rw [oneTo_self]; exact one_ne_zero)
  have hcnt := h.refcnt b hlt
  rw [oneTo_self] at hcnt
  have hdone := h.unref hlt (by rw [hcnt]; positivity)
  rwa [sub_self] at hdone

/-- A holder hands its reference over. -/
lemma take (h : Counted 0 s) {t : IoSys} (hheld : 0 < s.holders b)
    (hsame : ∀ x, t.holders x + (if x = b then 1 else 0) = s.holders x) (hn : t.nBufs = s.nBufs)
    (hbufs : t.bufs = s.bufs) (hfree : t.free = s.free) : Counted (oneTo b) t := by
  have hlt := h.lt_of_holders hheld
  refine h.transfer _ (fun x => ?_) (fun x hx => ?_) hn (fun _ => by rw [hbufs]) hfree
  · rw [← hsame x, oneTo_apply, Pi.zero_apply]
    split_ifs <;> omega
  · have hxb : x ≠ b := fun hxb => absurd hlt (by rw [← hxb]; exact Nat.not_lt.mpr hx)
    have hzero := (h.beyond x hx).1
    have hx' := hsame x
    exact ⟨by omega, oneTo_of_ne hxb⟩

/-- A new holder takes the reference in the hand. -/
lemma give (h : Counted (oneTo b) s) {t : IoSys}
    (hsame : ∀ x, t.holders x = s.holders x + if x = b then 1 else 0) (hn : t.nBufs = s.nBufs)
    (hbufs : t.bufs = s.bufs) (hfree : t.free = s.free) : Counted 0 t := by
  have hlt : b < s.nBufs := h.lt_of_hand (by rw [oneTo_self]; exact one_ne_zero)
  refine h.transfer _ (fun x => ?_) (fun x hx => ?_) hn (fun _ => by rw [hbufs]) hfree
  · rw [hsame x, oneTo_apply, Pi.zero_apply]
    split_ifs <;> omega
  · have hxb : x ≠ b := fun hxb => absurd hlt (by rw [← hxb]; exact Nat.not_lt.mpr hx)
    rw [hsame x, if_neg hxb]
    exact ⟨(h.beyond x hx).1, rfl⟩

/-- A change of an io that leaves its list and its decoder alone. -/
lemma setIo (h : Counted hand s) (hi : i < s.nIos) {io : Io}
    (hio : ∀ b, io.holds b = (s.ios i).holds b) : Counted hand (s.setIo i io) :=
  h.keep (holders_setIo_same hi hio) rfl (fun _ => rfl) rfl

/-- An io takes or gives references. -/
lemma setIo_transfer (h : Counted hand s) (hi : i < s.nIos) {io : Io} (hand' : ℕ → ℤ)
    (hio : ∀ b, (io.holds b : ℤ) + hand' b = (s.ios i).holds b + hand b)
    (hbeyond : ∀ b, s.nBufs ≤ b → hand' b = 0) : Counted hand' (s.setIo i io) := by
  have hsum := holders_setIo io hi
  refine h.transfer hand' (fun b => ?_) (fun b hb => ?_) rfl (fun _ => rfl) rfl
  · have h1 := hsum b
    have h2 := hio b
    omega
  · have h1 := hsum b
    have h2 := hio b
    have h3 := hbeyond b hb
    obtain ⟨h4, h5⟩ := h.beyond b hb
    have h6 := holds_le_holders hi b
    omega

/-! ## The functions -/

/-- A new entry in the list of an io takes two references. -/
lemma enqueue (h : Counted hand s) (hi : i < s.nIos) (hb : b < s.nBufs) {io : Io}
    (hqueue : io.writeBuffers = (s.ios i).writeBuffers ++ [b])
    (hdecoder : io.decoder = (s.ios i).decoder) :
    Counted (hand - oneTo b - oneTo b) (s.setIo i io) := by
  refine h.setIo_transfer hi _ (fun x => ?_) (fun x hx => ?_)
  · simp only [Io.holds, hqueue, hdecoder, List.count_append, List.count_singleton, Pi.sub_apply,
      oneTo_apply,
      beq_iff_eq, eq_comm (a := b)]
    split_ifs <;> omega
  · have hxb : x ≠ b := fun hxb => absurd hb (by rw [← hxb]; exact Nat.not_lt.mpr hx)
    simpa [hxb] using (h.beyond x hx).2

/-- An entry that is taken out of the list of an io gives two references. -/
lemma dequeue (h : Counted hand s) (hi : i < s.nIos) (hb : b < s.nBufs) {io : Io}
    (hqueue : (s.ios i).writeBuffers = b :: io.writeBuffers)
    (hdecoder : io.decoder = (s.ios i).decoder) :
    Counted (hand + oneTo b + oneTo b) (s.setIo i io) := by
  refine h.setIo_transfer hi _ (fun x => ?_) (fun x hx => ?_)
  · simp only [Io.holds, hqueue, hdecoder, List.count_cons, Pi.add_apply, oneTo_apply, beq_iff_eq,
      eq_comm (a := b)]
    split_ifs <;> omega
  · have hxb : x ≠ b := fun hxb => absurd hb (by rw [← hxb]; exact Nat.not_lt.mpr hx)
    simpa [hxb] using (h.beyond x hx).2

/-- `obus_io_buffer_new`: the entry stands for the new reference, and for one that its owner leaves
with it. -/
lemma ioBufferNew (h : Counted hand s) (hi : i < s.nIos) (hb : b < s.nBufs)
    (hpos : 0 < (s.bufs b).refcnt) : Counted (hand - oneTo b) (ioBufferNew i b s) := by
  have hnew : Counted (hand + oneTo b - oneTo b - oneTo b) (Output.ioBufferNew i b s) :=
    (h.ref hb hpos).enqueue hi hb rfl rfl
  rwa [add_sub_cancel_right] at hnew

lemma ioAccept (h : Counted hand s) (hi : i < s.nIos) (bytes : List UInt8) :
    Counted hand (ioAccept i bytes s) :=
  h.setIo hi fun _ => rfl

/-- `obus_io_write`: a buffer that ends in the list keeps a reference of the caller. -/
lemma ioWrite (h : Counted hand s) (hi : i < s.nIos) (hb : b < s.nBufs)
    (hpos : 0 < (s.bufs b).refcnt) (mem : Bool) (answers : List WriteResult) :
    let r := ioWrite mem answers i b s
    (r.1 = .again → Counted (hand - oneTo b) r.2 ∧ (r.2.bufs b).refcnt = (s.bufs b).refcnt + 1) ∧
      (r.1 ≠ .again → Counted hand r.2 ∧ (r.2.bufs b).refcnt = (s.bufs b).refcnt) ∧
      r.2.nBufs = s.nBufs := by
  intro r
  have hpassed : Counted hand
      (s.setIo i { s.ios i with passed := (s.ios i).passed ++ [(s.bufs b).data] }) :=
    h.setIo hi fun _ => rfl
  have hnew : ∀ t : IoSys, t.bufs = s.bufs → ((Output.ioBufferNew i b t).bufs b).refcnt =
      (s.bufs b).refcnt + 1 := by
    intro t ht
    simp [Output.ioBufferNew, bufferRef, IoSys.setBuf, IoSys.setIo, ht]
  simp only [r, Output.ioWrite]
  split
  · split
    · exact ⟨fun _ => ⟨hpassed.ioBufferNew hi hb hpos, hnew _ rfl⟩, fun hne => absurd rfl hne, rfl⟩
    · exact ⟨(by rintro ⟨⟩), fun _ => ⟨hpassed, rfl⟩, rfl⟩
  · have haccepted := hpassed.ioAccept hi
    split
    · split
      · refine ⟨fun _ => ⟨?_, hnew _ rfl⟩, fun hne => absurd rfl hne, rfl⟩
        exact Counted.setIo ((haccepted _).ioBufferNew hi hb hpos) hi fun _ => rfl
      · exact ⟨(by rintro ⟨⟩), fun _ => ⟨haccepted _, rfl⟩, rfl⟩
    · next hret =>
      exact ⟨fun heq => absurd heq hret, fun _ => ⟨haccepted _, rfl⟩, rfl⟩

lemma ioLeave (h : Counted hand s) (hi : i < s.nIos) : Counted hand (ioLeave i s) :=
  h.setIo hi fun _ => rfl

lemma touch (h : Counted hand s) (i : ℕ) : Counted hand (s.touch i) :=
  h.keep (fun _ => rfl) rfl (fun _ => rfl) rfl

/-- `obus_io_write_buffer_complete` gives both references of the entry back. -/
lemma ioWriteBufferComplete (h : Counted 0 s) (hi : i < s.nIos) (status : IoStatus) :
    Counted 0 (ioWriteBufferComplete status i s) := by
  have htouched := h.touch i
  unfold Output.ioWriteBufferComplete
  simp only
  split
  · exact htouched
  · next b rest hqueue =>
    have hqueued : 2 ≤ s.holders b := two_le_holders_of_queued hi (hqueue ▸ List.mem_cons_self)
    have hb : b < s.nBufs := h.lt_of_holders (by omega)
    have hcnt := h.refcnt b hb
    simp only [Pi.zero_apply, add_zero] at hcnt
    have hfirst := htouched.unref (b := b) hb (by change 0 < (s.bufs b).refcnt; omega)
    -- the entry goes, and what it stood for is in the hand now
    have hdequeued : Counted (oneTo b) ((bufferUnref b (s.touch i)).setIo i
        { (bufferUnref b (s.touch i)).ios i with writeBuffers := rest, nbrWritten := 0 }) := by
      have hnext : Counted (0 - oneTo b + oneTo b + oneTo b) ((bufferUnref b (s.touch i)).setIo i
          { s.ios i with writeBuffers := rest, nbrWritten := 0 }) :=
        hfirst.dequeue (by rw [bufferUnref_nIos]; exact hi) (by rw [bufferUnref_nBufs]; exact hb)
          (by rw [bufferUnref_ios]; exact hqueue) (by rw [bufferUnref_ios]; rfl)
      rw [sub_add_cancel, zero_add] at hnext
      rw [bufferUnref_ios]
      exact hnext
    have hsecond := hdequeued.giveBack
    unfold ioWriteDone
    simp only
    split
    · exact hsecond
    · refine hsecond.ioLeave ?_
      rw [bufferUnref_nIos]
      change i < (bufferUnref b (s.touch i)).nIos
      rw [bufferUnref_nIos]
      exact hi

lemma ioWriteLoop (h : Counted 0 s) (hi : i < s.nIos) (fuel : ℕ) (answers : List WriteResult) :
    Counted 0 (ioWriteLoop fuel answers i s) := by
  induction fuel generalizing s answers with
  | zero => exact h
  | succ fuel ih =>
    have htouched := h.touch i
    simp only [Output.ioWriteLoop]
    split
    · exact htouched
    · have haccepted := htouched.ioAccept hi
      split
      · exact (haccepted _).setIo hi fun _ => rfl
      · refine ih ((haccepted _).ioWriteBufferComplete hi .ok) ?_ _
        rw [(Within.ioWriteBufferComplete _ i _).nIos]
        exact hi
      · refine ((haccepted _).ioWriteBufferComplete hi .error).setIo ?_ fun _ => rfl
        rw [(Within.ioWriteBufferComplete _ i _).nIos]
        exact hi

lemma ioWriteEvents (h : Counted 0 s) (hi : i < s.nIos) (events : FdEvents)
    (answers : List WriteResult) : Counted 0 (ioWriteEvents events answers i s) := by
  unfold Output.ioWriteEvents
  simp only
  split
  · exact (h.touch i).ioWriteBufferComplete hi .error
  · split
    · exact (h.touch i).ioWriteLoop hi _ answers
    · exact h.touch i

/-- `obus_io_destroy`, with nothing in the list. -/
lemma ioDestroy (h : Counted hand s) (hi : i < s.nIos) (hempty : (s.ios i).writeBuffers = []) :
    Counted hand (ioDestroy i s) := by
  have hgone : Counted hand (s.setIo i { s.ios i with alive := false, writeBuffers := [] }) :=
    h.setIo hi fun x => by simp [Io.holds, hempty]
  unfold Output.ioDestroy
  simp only [hempty, List.foldl_nil]
  split
  · exact hgone.touch i
  · exact hgone

/-- `obus_packet_decoder_destroy`. -/
lemma decoderDestroy (h : Counted 0 s) (hi : i < s.nIos) (hdecoder : (s.ios i).decoder = some b) :
    Counted 0 (decoderDestroy i b s) := by
  have hheld := holders_pos_of_decoder hi hdecoder
  have hb := h.lt_of_holders hheld
  have hcnt := h.refcnt b hb
  rw [Pi.zero_apply, add_zero] at hcnt
  have hunref := (h.setBuf_data (b := b) []).unref (b := b) hb (by
    change 0 < (Function.update s.bufs b _ b).refcnt
    rw [Function.update_self, hcnt]
    exact_mod_cast hheld)
  refine hunref.setIo_transfer (by rw [bufferUnref_nIos]; exact hi) 0 (fun x => ?_) (fun _ _ => rfl)
  have hdecoder' : ((bufferUnref b (s.setBuf b ⟨[], (s.bufs b).refcnt⟩)).ios i).decoder =
      some b := by
    rw [bufferUnref_ios]
    exact hdecoder
  simp only [Io.holds, hdecoder', Pi.sub_apply, Pi.zero_apply, oneTo_apply, Option.some.injEq,
    eq_comm (a := b),
    reduceCtorEq, if_false]
  split_ifs <;> omega

/-- `obus_server_accept`: the decoder of the new io keeps the reference to its buffer. -/
lemma ioNew (h : Counted 0 s) (mem : Bool) : Counted 0 (ioNew mem s) := by
  unfold Output.ioNew
  split
  · exact h
  · next b t hpeek =>
    have hpeeked := h.peek hpeek
    rw [zero_add] at hpeeked
    have hb : b < t.nBufs := hpeeked.lt_of_hand (by rw [oneTo_self]; exact one_ne_zero)
    have hcnt := hpeeked.refcnt b hb
    rw [oneTo_self] at hcnt
    have href := (hpeeked.ref hb (by omega)).setBuf_data (b := b) []
    set u := (bufferRef b t).setBuf b ⟨[], ((bufferRef b t).bufs b).refcnt⟩
    -- the decoder takes one of the two references
    have hholds : ∀ x, Io.holds { decoder := some b } x = if x = b then 1 else 0 := by
      intro x
      simp [Io.holds, eq_comm]
    have hnew : Counted (oneTo b)
        { u.setIo u.nIos { decoder := some b } with nIos := u.nIos + 1 } := by
      refine href.transfer _ (fun x => ?_) (fun x hx => ?_) rfl (fun _ => rfl) rfl
      · rw [holders_newIo, hholds, Pi.add_apply, oneTo_apply]
        split_ifs <;> omega
      · have hxb : x ≠ b := fun hxb => absurd hb (by rw [← hxb]; exact Nat.not_lt.mpr hx)
        rw [holders_newIo, hholds, if_neg hxb, oneTo_of_ne hxb]
        exact ⟨(href.beyond x hx).1, rfl⟩
    exact hnew.giveBack

/-- A round of the walk of `obus_server_send_peers` takes a reference for a buffer that ends in the
list. -/
lemma sendPeerBuffer (h : Counted 0 s) (hi : i < s.nIos) (hb : b ∈ s.sending) (mem : Bool)
    (answers : List WriteResult) : Counted 0 (sendPeerBuffer mem answers i b s) := by
  have hheld := holders_pos_of_sending hb
  have hlt := h.lt_of_holders hheld
  have hcnt := h.refcnt b hlt
  rw [Pi.zero_apply, add_zero] at hcnt
  obtain ⟨hagain, hother, hn⟩ := h.ioWrite hi hlt (by omega) mem answers
  unfold Output.sendPeerBuffer
  split
  · next t heq =>
    rw [heq] at hagain hn
    obtain ⟨hleft, hcnt'⟩ := hagain rfl
    have hdone := hleft.ref (b := b) (by rw [hn]; exact hlt) (by rw [hcnt']; omega)
    rwa [sub_add_cancel] at hdone
  · next t heq =>
    rw [heq] at hother
    refine (hother nofun).1.ioLeave ?_
    have hwithin : Within i s (Output.ioWrite mem answers i b s).2 := Within.ioWrite mem answers b s
    rw [heq] at hwithin
    rw [hwithin.nIos]
    exact hi
  · next t heq =>
    rw [heq] at hother
    exact (hother nofun).1

/-- Who sends to one peer leaves its reference with a buffer that ends in the list, or gives it
back. -/
lemma sendOneBuffer (h : Counted (oneTo b) s) (hi : i < s.nIos) (mem : Bool)
    (answers : List WriteResult) : Counted 0 (sendOneBuffer mem answers i b s) := by
  have hlt : b < s.nBufs := h.lt_of_hand (by rw [oneTo_self]; exact one_ne_zero)
  have hcnt := h.refcnt b hlt
  rw [oneTo_self] at hcnt
  obtain ⟨hagain, hother, -⟩ := h.ioWrite hi hlt (by omega) mem answers
  unfold Output.sendOneBuffer
  split
  · next t heq =>
    rw [heq] at hagain
    have hleft := (hagain rfl).1
    rwa [sub_self] at hleft
  · next t heq hret =>
    rw [hret] at hother
    exact (hother heq).1.giveBack

end Counted

/-! ## Runs -/

/-- An io has nothing to write when it is destroyed, and no `obus_io_write_events` waits for that.
-/
def Drained (s : IoSys) : IoStep → Prop
  | .destroy i => (s.ios i).writeBuffers = [] ∧ (s.ios i).resume = false
  | _ => True

lemma count_erase_add {l : List ℕ} {b : ℕ} (hb : b ∈ l) (x : ℕ) :
    (l.erase b).count x + (if x = b then 1 else 0) = l.count x := by
  have hpos := List.count_pos_iff.mpr hb
  rw [List.count_erase]
  simp only [beq_iff_eq, eq_comm (a := b)]
  split_ifs with hxb
  · subst hxb
    omega
  · rfl

/-- Every step that meets the condition ends with an empty hand. -/
lemma Counted.step {s s' : IoSys} {a : IoStep} (h : Counted 0 s) (hdrained : Drained s a)
    (hstep : ioStep s a = some s') : Counted 0 s' := by
  cases ioStep_cases hstep with
  | accept mem => exact h.ioNew mem
  | receive bytes _ _ => exact h.setBuf_data bytes
  | peekNone _ => exact h
  | @peek mem b t hpeek =>
    have hpeeked := h.peek hpeek
    rw [zero_add] at hpeeked
    refine hpeeked.give (fun x => ?_) rfl rfl rfl
    simp only [IoSys.holders, List.count_cons, beq_iff_eq, eq_comm (a := b)]
    omega
  | @encode b bytes hb =>
    refine Counted.keep (h.setBuf_data bytes) (fun x => ?_) rfl (fun _ => rfl) rfl
    have herase := count_erase_add hb x
    change (∑ i ∈ Finset.range s.nIos, (s.ios i).holds x) + (s.drafts.erase b).count x +
        (b :: s.sending).count x =
      (∑ i ∈ Finset.range s.nIos, (s.ios i).holds x) + s.drafts.count x + s.sending.count x
    simp only [List.count_cons, beq_iff_eq, eq_comm (a := b)]
    omega
  | sendPeer mem answers hb hlive _ => exact h.sendPeerBuffer hlive.1 hb mem answers
  | @sendOne b i mem answers hb hlive =>
    have htaken : Counted (oneTo b) { s with sending := s.sending.erase b } := by
      refine h.take (holders_pos_of_sending hb) (fun x => ?_) rfl rfl rfl
      have herase := count_erase_add hb x
      simp only [IoSys.holders]
      omega
    exact htaken.sendOneBuffer hlive.1 mem answers
  | @releaseDraft b hb =>
    refine Counted.giveBack (h.take (holders_pos_of_drafts hb) (fun x => ?_) rfl rfl rfl)
    have herase := count_erase_add hb x
    simp only [IoSys.holders]
    omega
  | @release b hb =>
    refine Counted.giveBack (h.take (holders_pos_of_sending hb) (fun x => ?_) rfl rfl rfl)
    have herase := count_erase_add hb x
    simp only [IoSys.holders]
    omega
  | writeEvents events answers hlive _ => exact h.ioWriteEvents hlive.1 events answers
  | @writeTimeout i hlive _ => exact (h.touch i).ioWriteBufferComplete hlive.1 .timeout
  | leave hlive _ => exact h.ioLeave hlive.1
  | closeDecoder hdecoder hi _ => exact h.decoderDestroy hi hdecoder
  | destroy hlive _ => exact h.ioDestroy hlive.1 hdrained.1

lemma Counted.start : Counted 0 {} :=
  ⟨fun _ hb => absurd hb (Nat.not_lt_zero _), fun _ _ => ⟨rfl, rfl⟩, fun _ => by simp,
    List.nodup_nil⟩

/-- In a run in which ios have nothing to write when they are destroyed, every buffer is in the pool
once and without references, or has the references of its holders.  Where all ios are gone and no
operation is in progress, every buffer is in the pool. -/
theorem buffers_conserved (steps : List IoStep) (hdrained : MeetsAll ioStep Drained steps {})
    (s : IoSys) (hrun : runs ioStep steps {} = some s) :
    (∀ b < s.nBufs,
      s.free.count b = 1 ∧ (s.bufs b).refcnt = 0 ∧ s.holders b = 0 ∨
        b ∉ s.free ∧ 0 < s.holders b ∧ (s.bufs b).refcnt = s.holders b) ∧
      ((∀ i < s.nIos, (s.ios i).alive = false ∧ (s.ios i).decoder = none) → s.drafts = [] →
        s.sending = [] →
        ∀ b < s.nBufs, b ∈ s.free) := by
  have hcounted : Counted 0 s :=
    runs_invariant (fun _ _ _ h hd hs => h.step hd hs) Counted.start hdrained hrun
  have hburied : Buried s := runs_invariant (C := fun _ _ => True) (fun _ _ _ h _ hs => h.step hs)
    (fun _ hi => absurd hi (Nat.not_lt_zero _)) (meetsAll_of_forall (fun _ _ _ => trivial) _) hrun
  have hcnt : ∀ b < s.nBufs, (s.bufs b).refcnt = s.holders b := by
    intro b hb
    rw [hcounted.refcnt b hb, Pi.zero_apply, add_zero]
  refine ⟨fun b hb => ?_, fun hgone hdrafts hsending b hb => ?_⟩
  · have hfree := hcounted.free b
    rw [hcnt b hb] at hfree
    by_cases hzero : s.holders b = 0
    · have hmem : b ∈ s.free := hfree.mpr ⟨hb, by exact_mod_cast hzero⟩
      exact .inl ⟨List.count_eq_one_of_mem hcounted.nodup hmem, by rw [hcnt b hb, hzero]; rfl,
        hzero⟩
    · refine .inr ⟨fun hmem => hzero ?_, Nat.pos_of_ne_zero hzero, hcnt b hb⟩
      exact_mod_cast (hfree.mp hmem).2
  · -- nothing is left that could hold the buffer
    have hzero : s.holders b = 0 := by
      have hsum : ∑ i ∈ Finset.range s.nIos, (s.ios i).holds b = 0 := by
        refine Finset.sum_eq_zero fun i hi => ?_
        obtain ⟨hdead, hdecoder⟩ := hgone i (Finset.mem_range.mp hi)
        simp [Io.holds, hburied i (Finset.mem_range.mp hi) hdead, hdecoder]
      simp [IoSys.holders, hsum, hdrafts, hsending]
    refine (hcounted.free b).mpr ⟨hb, ?_⟩
    rw [hcnt b hb, hzero]
    rfl

/-- A connection is closed. -/
def closed : List IoStep := [.leave 0, .destroy 0, .closeDecoder 0]

theorem buffers_conserved_halfSent :
    ∃ s, runs ioStep (halfSent ++ .writeEvents 0 ⟨false, true⟩ [.wrote 1] :: closed) {} = some s ∧
    s.nBufs = 2 ∧
      ∀ b < s.nBufs, b ∈ s.free := by
  obtain ⟨s, hrun⟩ : ∃ s, runs ioStep
    (halfSent ++ .writeEvents 0 ⟨false, true⟩ [.wrote 1] :: closed) {} = some s :=
    ⟨_, rfl⟩
  have hdrained : MeetsAll ioStep Drained
      (halfSent ++ .writeEvents 0 ⟨false, true⟩ [.wrote 1] :: closed) {} := by
    refine ⟨trivial, ?_⟩
    rintro _ ⟨⟩
    refine ⟨trivial, ?_⟩
    rintro _ ⟨⟩
    refine ⟨trivial, ?_⟩
    rintro _ ⟨⟩
    refine ⟨trivial, ?_⟩
    rintro _ ⟨⟩
    refine ⟨trivial, ?_⟩
    rintro _ ⟨⟩
    refine ⟨trivial, ?_⟩
    rintro _ ⟨⟩
    refine ⟨⟨rfl, rfl⟩, ?_⟩
    rintro _ ⟨⟩
    exact ⟨trivial, fun _ _ => trivial⟩
  obtain ⟨-, hgone⟩ := buffers_conserved _ hdrained s hrun
  cases hrun
  refine ⟨_, rfl, rfl, hgone (fun i hi => ?_) rfl rfl⟩
  have hi0 : i = 0 := Nat.lt_one_iff.mp hi
  subst hi0
  exact ⟨rfl, rfl⟩

/-- The connection is closed with the packet in the list: nothing holds the buffer, and it is not in
the pool. -/
theorem queued_buffer_lost :
    ∃ s, runs ioStep (halfSent ++ closed) {} = some s ∧ s.nBufs = 2 ∧ s.nIos = 1 ∧
    (s.ios 0).alive = false ∧
      (s.ios 0).decoder = none ∧ s.drafts = [] ∧ s.sending = [] ∧ s.holders 1 = 0 ∧
      (s.bufs 1).refcnt = 1 ∧
      1 ∉ s.free := by
  refine ⟨_, rfl, rfl, rfl, rfl, rfl, rfl, rfl, ?_, rfl, by decide⟩
  decide

end Obus.Output
