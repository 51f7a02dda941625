import Obus.IoRefs

/-!
# What the descriptors are given

Buffers are shared: a broadcast has one buffer in the lists of many ios, each of which is somewhere
else in it, and a buffer that nobody refers to any more is used for another packet.  The bytes that
a descriptor has accepted are nevertheless those of the packets that were passed to `obus_io_write`
for it, in order (`write_streams_intact`): the bytes of a buffer change only while an operation or a
decoder is its only holder (`Flowing.exclusive`).
-/

namespace Obus.Output

/-- The bytes that an io has still to write. -/
def IoSys.pending (s : IoSys) (io : Io) : List UInt8 :=
  match io.writeBuffers with
  | [] => []
  | b :: rest => (s.bufs b).data.drop io.nbrWritten ++ rest.flatMap fun b => (s.bufs b).data

/-- What the descriptor has accepted and what is still to be written is what was passed to
`obus_io_write`. -/
def IoSys.Flows (s : IoSys) (io : Io) : Prop := io.accepted ++ s.pending io = io.passed.flatten

/-- Neither a write nor an allocation fails, and no connection is closed. -/
def Benign (_ : IoSys) : IoStep → Prop
  | .accept mem | .peek mem => mem = true
  | .sendPeer _ _ mem answers | .sendOne _ _ mem answers => mem = true ∧ .fail ∉ answers
  | .writeEvents _ events answers => events.error = false ∧ .fail ∉ answers
  | .receive _ _ | .encode _ _ | .release _ => True
  | .writeTimeout _ | .leave _ | .closeDecoder _ | .destroy _ => False

/-! ## Writing -/

section

variable {s t : IoSys} {i b : ℕ} {io : Io}

lemma pending_congr (hdata : ∀ b, (t.bufs b).data = (s.bufs b).data) (io : Io) :
    t.pending io = s.pending io := by
  simp only [IoSys.pending, hdata]

/-- What `obus_io_write_buffer` has written: all of the bytes if it says so. -/
lemma ioWriteBuffer_written (answers : List WriteResult) (bytes : List UInt8) (n : ℕ) :
    (ioWriteBuffer answers bytes n).1 = .ok → (ioWriteBuffer answers bytes n).2.1 = n +
      bytes.length := by
  fun_induction ioWriteBuffer answers bytes n with
  | case1 => exact fun _ => rfl
  | case2 => rintro ⟨⟩
  | case3 k answers x bytes n ih =>
    intro hok
    rw [ih hok, List.length_drop, List.length_cons]
    omega
  | case4 _ _ _ _ ih => exact ih
  | case5 => rintro ⟨⟩
  | case6 => rintro ⟨⟩

/-- A buffer at the end of the list of an io that is not empty. -/
lemma pending_append (queue : List ℕ) (hqueue : io.writeBuffers = queue ++ [b]) (hne : queue ≠ []) :
    s.pending io = s.pending { io with writeBuffers := queue } ++ (s.bufs b).data := by
  obtain ⟨c, rest, rfl⟩ := List.exists_cons_of_ne_nil hne
  simp [IoSys.pending, hqueue]

/-- What `obus_io_write` does to its io, if nothing fails. -/
lemma ioWrite_io {answers : List WriteResult} (hfail : .fail ∉ answers) (i b : ℕ) (s : IoSys) :
    ((s.ios i).writeBuffers ≠ [] ∧ (ioWrite true answers i b s).2.ios i =
        { s.ios i with
          passed := (s.ios i).passed ++ [(s.bufs b).data],
            writeBuffers := (s.ios i).writeBuffers ++ [b] }) ∨
      ((s.ios i).writeBuffers = [] ∧ (ioWrite true answers i b s).2.ios i =
        { s.ios i with
          passed := (s.ios i).passed ++ [(s.bufs b).data], accepted := (s.ios i).accepted ++
            (s.bufs b).data }) ∨
      ∃ n, (s.ios i).writeBuffers = [] ∧ (ioWrite true answers i b s).2.ios i =
        { s.ios i with
          passed := (s.ios i).passed ++ [(s.bufs b).data]
          accepted := (s.ios i).accepted ++ (s.bufs b).data.take n
          writeBuffers := [b]
          nbrWritten := n } := by
  have hwritten := ioWriteBuffer_written answers (s.bufs b).data 0
  have herror := (ioWriteBuffer_ne_error hfail (s.bufs b).data 0).1
  simp only [ioWrite, IoSys.setIo_self, if_true]
  split
  · next hne =>
    refine .inl ⟨hne, ?_⟩
    simp [ioBufferNew, bufferRef, IoSys.setBuf]
  · next hempty =>
    rw [not_not] at hempty
    split
    · next hagain =>
      refine .inr (.inr ⟨(ioWriteBuffer answers (s.bufs b).data 0).2.1, hempty, ?_⟩)
      simp [ioBufferNew, ioAccept, bufferRef, IoSys.setBuf, hempty]
    · next hagain =>
      have hok : (ioWriteBuffer answers (s.bufs b).data 0).1 = .ok := by
        cases hret : (ioWriteBuffer answers (s.bufs b).data 0).1 with
        | ok => rfl
        | again => exact absurd hret hagain
        | error => exact absurd hret herror
      refine .inr (.inl ⟨hempty, ?_⟩)
      have hall : (s.bufs b).data.take (ioWriteBuffer answers (s.bufs b).data 0).2.1 =
          (s.bufs b).data := by
        rw [hwritten hok, Nat.zero_add, List.take_length]
      change (ioAccept i _ _).ios i = _
      rw [ioAccept, IoSys.setIo_self, IoSys.setIo_self]
      change { s.ios i with
        passed := (s.ios i).passed ++ [(s.bufs b).data]
        accepted := (s.ios i).accepted ++
          (s.bufs b).data.take (ioWriteBuffer answers (s.bufs b).data 0).2.1 } = _
      rw [hall]

/-- `obus_io_write` keeps the stream of its io in order. -/
lemma flows_ioWrite {answers : List WriteResult} (hfail : .fail ∉ answers) (h : s.Flows (s.ios i)) :
    (ioWrite true answers i b s).2.Flows ((ioWrite true answers i b s).2.ios i) := by
  rw [IoSys.Flows, pending_congr (Within.ioWrite (i := i) true answers b s).data]
  rw [IoSys.Flows] at h
  rcases ioWrite_io hfail i b s with ⟨hne, hio⟩ | ⟨hempty, hio⟩ | ⟨n, hempty, hio⟩
  · rw [hio, pending_append (s.ios i).writeBuffers rfl hne, List.flatten_append,
      List.flatten_singleton,
      ← h, List.append_assoc]
    rfl
  · rw [hio]
    simp only [IoSys.pending, hempty, List.append_nil] at h ⊢
    rw [h, List.flatten_append, List.flatten_singleton]
  · rw [hio]
    simp only [IoSys.pending, hempty, List.append_nil] at h ⊢
    simp [h, List.flatten_append]

lemma flows_sendPeerBuffer {answers : List WriteResult} (hfail : .fail ∉ answers)
    (h : s.Flows (s.ios i)) :
    (sendPeerBuffer true answers i b s).Flows ((sendPeerBuffer true answers i b s).ios i) := by
  have hwritten := flows_ioWrite (b := b) hfail h
  unfold sendPeerBuffer
  split
  · next t heq =>
    rw [heq] at hwritten
    rw [IoSys.Flows, pending_congr (Within.ref (i := i) b t).data]
    exact hwritten
  · next t heq =>
    rw [heq] at hwritten
    rw [ioLeave, IoSys.setIo_self]
    exact hwritten
  · next t heq =>
    rw [heq] at hwritten
    exact hwritten

lemma flows_sendOneBuffer {answers : List WriteResult} (hfail : .fail ∉ answers)
    (h : s.Flows (s.ios i)) :
    (sendOneBuffer true answers i b s).Flows ((sendOneBuffer true answers i b s).ios i) := by
  have hwritten := flows_ioWrite (b := b) hfail h
  unfold sendOneBuffer
  split
  · next t heq =>
    rw [heq] at hwritten
    exact hwritten
  · next t _ heq =>
    rw [heq] at hwritten
    rw [IoSys.Flows, pending_congr (bufferUnref_data b t), bufferUnref_ios]
    exact hwritten

/-- `obus_io_write_buffer_complete` takes a buffer out of the list that was written. -/
lemma flows_ioWriteBufferComplete (b : ℕ) (rest : List ℕ)
    (hqueue : (s.ios i).writeBuffers = b :: rest)
    (h : (s.ios i).accepted ++ rest.flatMap (fun b => (s.bufs b).data) = (s.ios i).passed.flatten) :
    (ioWriteBufferComplete .ok i s).Flows ((ioWriteBufferComplete .ok i s).ios i) := by
  rw [IoSys.Flows, pending_congr (Within.ioWriteBufferComplete .ok i s).data]
  have hio : (ioWriteBufferComplete .ok i s).ios i =
      { s.ios i with writeBuffers := rest, nbrWritten := 0 } := by
    unfold ioWriteBufferComplete ioWriteDone
    simp only [IoSys.touch]
    split
    · next hnil => rw [hqueue] at hnil; cases hnil
    · next c rest' hcons =>
      obtain ⟨rfl, rfl⟩ := List.cons.inj (hqueue.symm.trans hcons)
      simp
  rw [hio]
  cases rest with
  | nil => simpa [IoSys.pending] using h
  | cons c rest => simpa [IoSys.pending] using h

/-- The loop of `obus_io_write_events` keeps the stream of its io in order. -/
lemma flows_ioWriteLoop (fuel : ℕ) {answers : List WriteResult} (hfail : .fail ∉ answers)
    (h : s.Flows (s.ios i)) :
    (ioWriteLoop fuel answers i s).Flows ((ioWriteLoop fuel answers i s).ios i) := by
  induction fuel generalizing s answers with
  | zero => exact h
  | succ fuel ih =>
    have hwrite := ioWriteBuffer_ne_error hfail
    have hwritten := ioWriteBuffer_written answers
    simp only [ioWriteLoop]
    split
    · exact h
    · next b rest hqueue =>
      replace hqueue : (s.ios i).writeBuffers = b :: rest := hqueue
      rw [IoSys.Flows] at h
      simp only [IoSys.pending, hqueue] at h
      split
      · next hagain =>
        set k := (ioWriteBuffer answers ((s.bufs b).data.drop (s.ios i).nbrWritten) 0).2.1
        have hsplit : ((s.bufs b).data.drop (s.ios i).nbrWritten).take k ++
            (s.bufs b).data.drop ((s.ios i).nbrWritten + k) = (s.bufs b).data.drop
              (s.ios i).nbrWritten := by
          rw [← List.drop_drop, List.take_append_drop]
        rw [IoSys.Flows, IoSys.setIo_self, ioAccept, IoSys.setIo_self]
        change ((s.ios i).accepted ++ ((s.bufs b).data.drop (s.ios i).nbrWritten).take k) ++
          s.pending { s.ios i with nbrWritten := (s.ios i).nbrWritten + k } =
            (s.ios i).passed.flatten
        simp only [IoSys.pending, hqueue]
        rw [← h, List.append_assoc, ← List.append_assoc (List.take k _), hsplit]
      · next hok =>
        refine ih (hwrite _ _).2 (flows_ioWriteBufferComplete b rest ?_ ?_)
        · simpa [ioAccept, IoSys.touch] using hqueue
        · have hall := hwritten _ _ hok
          rw [ioAccept, IoSys.setIo_self]
          change ((s.ios i).accepted ++ ((s.bufs b).data.drop (s.ios i).nbrWritten).take
            (ioWriteBuffer answers ((s.bufs b).data.drop (s.ios i).nbrWritten) 0).2.1) ++
              rest.flatMap (fun b => (s.bufs b).data) = (s.ios i).passed.flatten
          rw [← h, ← List.append_assoc]
          congr 2
          rw [List.take_of_length_le]
          exact (hall.trans (Nat.zero_add _)).ge
      · next herror => exact absurd herror (hwrite _ _).1

lemma flows_ioWriteEvents {events : FdEvents} {answers : List WriteResult}
    (herror : events.error = false) (hfail : .fail ∉ answers) (h : s.Flows (s.ios i)) :
    (ioWriteEvents events answers i s).Flows ((ioWriteEvents events answers i s).ios i) := by
  unfold ioWriteEvents
  simp only [herror, Bool.false_eq_true, if_false]
  split
  · exact flows_ioWriteLoop _ hfail h
  · exact h

/-! ## References that others keep -/

lemma refcnt_bufferRef {x : ℕ} (hx : x ≠ b) :
    ((bufferRef b s).bufs x).refcnt = (s.bufs x).refcnt := by
  simp [bufferRef, IoSys.setBuf, hx]

lemma refcnt_bufferUnref {x : ℕ} (hx : x ≠ b) :
    ((bufferUnref b s).bufs x).refcnt = (s.bufs x).refcnt := by
  obtain ⟨_, _, heq⟩ := bufferUnref_eq b s
  rw [heq]
  simp [IoSys.setBuf, hx]

lemma refcnt_ioWrite {x : ℕ} (hx : x ≠ b) (mem : Bool) (answers : List WriteResult) :
    ((ioWrite mem answers i b s).2.bufs x).refcnt = (s.bufs x).refcnt := by
  simp only [ioWrite]
  split
  · split
    · exact refcnt_bufferRef hx
    · rfl
  · split
    · split
      · exact refcnt_bufferRef hx
      · rfl
    · rfl

lemma refcnt_sendPeerBuffer {x : ℕ} (hx : x ≠ b) (mem : Bool) (answers : List WriteResult) :
    ((sendPeerBuffer mem answers i b s).bufs x).refcnt = (s.bufs x).refcnt := by
  have hwritten := refcnt_ioWrite (s := s) (i := i) hx mem answers
  unfold sendPeerBuffer
  split
  · next t heq =>
    rw [heq] at hwritten
    rw [refcnt_bufferRef hx, hwritten]
  · next t heq =>
    rw [heq] at hwritten
    exact hwritten
  · next t heq =>
    rw [heq] at hwritten
    exact hwritten

lemma refcnt_sendOneBuffer {x : ℕ} (hx : x ≠ b) (mem : Bool) (answers : List WriteResult) :
    ((sendOneBuffer mem answers i b s).bufs x).refcnt = (s.bufs x).refcnt := by
  have hwritten := refcnt_ioWrite (s := s) (i := i) hx mem answers
  unfold sendOneBuffer
  split
  · next t heq =>
    rw [heq] at hwritten
    exact hwritten
  · next t _ heq =>
    rw [heq] at hwritten
    rw [refcnt_bufferUnref hx, hwritten]

lemma refcnt_ioWriteBufferComplete {x : ℕ} (hx : x ∉ (s.ios i).writeBuffers) (status : IoStatus) :
    ((ioWriteBufferComplete status i s).bufs x).refcnt = (s.bufs x).refcnt := by
  unfold ioWriteBufferComplete ioWriteDone
  simp only
  split
  · rfl
  · next b rest hqueue =>
    have hxb : x ≠ b := by
      rintro rfl
      exact hx (hqueue ▸ List.mem_cons_self)
    split
    · rw [refcnt_bufferUnref hxb]
      exact refcnt_bufferUnref hxb
    · rw [ioLeave, IoSys.setIo_bufs, refcnt_bufferUnref hxb]
      exact refcnt_bufferUnref hxb

/-- Completing a buffer takes one entry out of the list. -/
lemma writeBuffers_ioWriteBufferComplete (status : IoStatus) (i : ℕ) (s : IoSys) :
    ((ioWriteBufferComplete status i s).ios i).writeBuffers = (s.ios i).writeBuffers.tail := by
  unfold ioWriteBufferComplete ioWriteDone
  simp only
  split
  · next hnil =>
    rw [show (s.ios i).writeBuffers = [] from hnil]
    exact hnil
  · next b rest hqueue =>
    rw [show (s.ios i).writeBuffers = b :: rest from hqueue]
    split
    · simp
    · simp [ioLeave]

lemma refcnt_ioWriteLoop {x : ℕ} (hx : x ∉ (s.ios i).writeBuffers) (fuel : ℕ)
    (answers : List WriteResult) :
    ((ioWriteLoop fuel answers i s).bufs x).refcnt = (s.bufs x).refcnt := by
  induction fuel generalizing s answers with
  | zero => rfl
  | succ fuel ih =>
    simp only [ioWriteLoop]
    split
    · rfl
    · have hnot : ∀ bytes, x ∉ ((ioAccept i bytes (s.touch i)).ios i).writeBuffers := by
        intro bytes
        rw [ioAccept, IoSys.setIo_self]
        exact hx
      split
      · rfl
      · rw [ih, refcnt_ioWriteBufferComplete (hnot _)]
        · rfl
        · rw [writeBuffers_ioWriteBufferComplete]
          exact fun hmem => hnot _ (List.mem_of_mem_tail hmem)
      · rw [IoSys.setIo_bufs, refcnt_ioWriteBufferComplete (hnot _)]
        rfl

lemma refcnt_ioWriteEvents {x : ℕ} (hx : x ∉ (s.ios i).writeBuffers) (events : FdEvents)
    (answers : List WriteResult) :
    ((ioWriteEvents events answers i s).bufs x).refcnt = (s.bufs x).refcnt := by
  unfold ioWriteEvents
  simp only
  split
  · exact refcnt_ioWriteBufferComplete (s := s.touch i) hx .error
  · split
    · exact refcnt_ioWriteLoop (s := s.touch i) hx _ answers
    · rfl

end

/-! ## Runs -/

/-- An operation encodes a packet into the buffer, or a decoder reads into it. -/
def IoSys.Owned (s : IoSys) (b : ℕ) : Prop :=
  b ∈ s.drafts ∨ ∃ i < s.nIos, (s.ios i).decoder = some b

/-- The streams are in order, and the buffers whose bytes may change have one holder only. -/
structure Flowing (s : IoSys) : Prop where
  counted : Counted 0 s
  exclusive : ∀ b, s.Owned b → s.holders b = 1
  flows : ∀ i < s.nIos, s.Flows (s.ios i)

namespace Flowing

variable {s t : IoSys} {i b : ℕ}

/-- What an operation or a decoder owns is held. -/
lemma holders_pos_of_owned (hb : s.Owned b) : 0 < s.holders b := by
  rcases hb with hdraft | ⟨i, hi, hdecoder⟩
  · exact holders_pos_of_drafts hdraft
  · exact holders_pos_of_decoder hi hdecoder

/-- A buffer that is being sent belongs to no operation that encodes and to no decoder. -/
lemma not_owned_of_sending (h : Flowing s) (hb : b ∈ s.sending) : ¬s.Owned b := by
  intro howned
  -- without the operation that sends it, it would have no holder
  have hleft : 0 < IoSys.holders { s with sending := s.sending.erase b } b :=
    holders_pos_of_owned howned
  have herase := count_erase_add hb b
  have hone := h.exclusive b howned
  simp only [IoSys.holders, if_true] at hleft herase hone
  omega

/-- Streams depend on buffers in lists only. -/
lemma flows_of_data (h : Flowing s) (hi : i < s.nIos)
    (hdata : ∀ x, 2 ≤ s.holders x → (t.bufs x).data = (s.bufs x).data) : t.Flows (s.ios i) := by
  have hsame : ∀ x ∈ (s.ios i).writeBuffers, (t.bufs x).data = (s.bufs x).data :=
    fun x hx => hdata x (two_le_holders_of_queued hi hx)
  have hpending : t.pending (s.ios i) = s.pending (s.ios i) := by
    unfold IoSys.pending
    split
    · rfl
    · next b rest hqueue =>
      rw [hqueue] at hsame
      rw [hsame b List.mem_cons_self]
      congr 1
      exact List.flatMap_congr fun x hx => hsame x (List.mem_cons_of_mem b hx)
  rw [IoSys.Flows, hpending]
  exact h.flows i hi

/-- A step that works on no io. -/
lemma of_ios (h : Flowing s) (hcounted : Counted 0 t) (hn : t.nIos = s.nIos) (hios : t.ios = s.ios)
    (hdata : ∀ x, 2 ≤ s.holders x → (t.bufs x).data = (s.bufs x).data)
    (hexclusive : ∀ x, t.Owned x → t.holders x = 1) : Flowing t := by
  refine ⟨hcounted, hexclusive, fun i hi => ?_⟩
  rw [hios]
  exact h.flows_of_data (hn ▸ hi) hdata

/-- A step that works on an io, and leaves the references to owned buffers alone. -/
lemma within (h : Flowing s) (hcounted : Counted 0 t) (hwithin : Within i s t)
    (hflows : t.Flows (t.ios i)) (hcnt : ∀ x, s.Owned x → (t.bufs x).refcnt = (s.bufs x).refcnt) :
    Flowing t := by
  refine ⟨hcounted, fun x hx => ?_, fun j hj => ?_⟩
  · have hold : s.Owned x := by
      rcases hx with hdraft | ⟨j, hj, hdecoder⟩
      · exact .inl (hwithin.drafts ▸ hdraft)
      · refine .inr ⟨j, hwithin.nIos ▸ hj, ?_⟩
        by_cases hji : j = i
        · rw [hji] at hdecoder ⊢
          rw [← hwithin.decoder, hdecoder]
        · rw [← hwithin.others j hji, hdecoder]
    have hnew := hcounted.refcnt x (hcounted.lt_of_holders (holders_pos_of_owned hx))
    have hbefore := h.counted.refcnt x (h.counted.lt_of_holders (holders_pos_of_owned hold))
    have hsame := hcnt x hold
    have hone := h.exclusive x hold
    simp only [Pi.zero_apply, add_zero] at hnew hbefore
    omega
  · by_cases hji : j = i
    · rw [hji]
      exact hflows
    · rw [hwithin.others j hji]
      exact h.flows_of_data (hwithin.nIos ▸ hj) fun x _ => hwithin.data x

/-- A buffer that comes from the pool has no holder. -/
lemma holders_of_peek {mem : Bool} (h : Counted 0 s) (hpeek : bufferPoolPeek mem s = some (b, t)) :
    s.holders b = 0 := by
  unfold bufferPoolPeek at hpeek
  split at hpeek
  · split at hpeek
    · obtain ⟨rfl, -⟩ := Prod.mk.inj (Option.some.inj hpeek)
      exact (h.beyond _ le_rfl).1
    · cases hpeek
  · next b' free hfree =>
    obtain ⟨rfl, -⟩ := Prod.mk.inj (Option.some.inj hpeek)
    obtain ⟨hlt, hzero⟩ := (h.free b').mp (hfree ▸ List.mem_cons_self)
    have hcnt := h.refcnt b' hlt
    simp only [Pi.zero_apply, add_zero] at hcnt
    omega

lemma holders_ioNew {mem : Bool} (hpeek : bufferPoolPeek mem s = some (b, t)) (x : ℕ) :
    (Output.ioNew mem s).holders x = s.holders x + if x = b then 1 else 0 := by
  have hnew := holders_newIo s { decoder := some b } x
  have hholds : Io.holds { decoder := some b } x = if x = b then 1 else 0 := by
    simp [Io.holds, eq_comm]
  rw [hholds] at hnew
  rw [← hnew, IoSys.holders, ioNew_nIos hpeek, ioNew_ios hpeek, ioNew_drafts hpeek,
    ioNew_sending hpeek]
  rfl

lemma ioNew (h : Flowing s) (mem : Bool) : Flowing (ioNew mem s) := by
  cases hpeek : bufferPoolPeek mem s with
  | none =>
    rw [ioNew_of_none hpeek]
    exact h
  | some found =>
    obtain ⟨b, t⟩ := found
    have hunheld := holders_of_peek h.counted hpeek
    refine ⟨h.counted.ioNew mem, fun x hx => ?_, fun i hi => ?_⟩
    · rw [holders_ioNew hpeek]
      by_cases hxb : x = b
      · rw [if_pos hxb, hxb, hunheld]
      · rw [if_neg hxb, add_zero]
        refine h.exclusive x ?_
        rcases hx with hdraft | ⟨i, hi, hdecoder⟩
        · exact .inl (ioNew_drafts hpeek ▸ hdraft)
        · rw [ioNew_nIos hpeek] at hi
          rw [ioNew_ios hpeek] at hdecoder
          by_cases hnew : i = s.nIos
          · rw [hnew, Function.update_self] at hdecoder
            exact absurd (Option.some.inj hdecoder).symm hxb
          · rw [Function.update_of_ne hnew] at hdecoder
            exact .inr ⟨i, lt_of_le_of_ne (Nat.lt_succ_iff.mp hi) hnew, hdecoder⟩
    · rw [ioNew_nIos hpeek] at hi
      rw [ioNew_ios hpeek]
      by_cases hnew : i = s.nIos
      · rw [hnew, Function.update_self]
        rfl
      · rw [Function.update_of_ne hnew]
        refine h.flows_of_data (lt_of_le_of_ne (Nat.lt_succ_iff.mp hi) hnew) fun x hx =>
          ioNew_data hpeek ?_
        rintro rfl
        omega

/-- An operation that lets its buffer go takes it from nobody else. -/
lemma released (h : Flowing s) (hcounted : Counted 0 (bufferUnref b t)) (hn : t.nIos = s.nIos)
    (hios : t.ios = s.ios) (hbufs : t.bufs = s.bufs) (hdrafts : ∀ x ∈ t.drafts, x ∈ s.drafts)
    (hsame : ∀ x, t.holders x + (if x = b then 1 else 0) = s.holders x) :
    Flowing (bufferUnref b t) := by
  have hholders : ∀ x, (bufferUnref b t).holders x = t.holders x := by
    intro x
    simp [IoSys.holders]
  refine h.of_ios hcounted ((bufferUnref_nIos b t).trans hn) ((bufferUnref_ios b t).trans hios)
    (fun x _ => by rw [bufferUnref_data, hbufs]) fun x hx => ?_
  have hold : s.Owned x := by
    rcases hx with hdraft | ⟨i, hi, hdecoder⟩
    · rw [bufferUnref_drafts] at hdraft
      exact .inl (hdrafts x hdraft)
    · rw [bufferUnref_nIos, hn] at hi
      rw [bufferUnref_ios, hios] at hdecoder
      exact .inr ⟨i, hi, hdecoder⟩
  have hone := h.exclusive x hold
  have hpos := holders_pos_of_owned hx
  have hx' := hsame x
  rw [hholders] at hpos ⊢
  omega

/-- A step that is benign keeps the streams in order. -/
lemma step {s' : IoSys} {a : IoStep} (h : Flowing s) (hbenign : Benign s a)
    (hstep : ioStep s a = some s') : Flowing s' := by
  have hdrained : Drained s a := by
    cases a with
    | destroy i => exact absurd hbenign id
    | _ => trivial
  have hcounted := h.counted.step hdrained hstep
  cases ioStep_cases hstep with
  | accept mem => exact h.ioNew mem
  | @receive i b bytes hdecoder hlive =>
    have howned : s.Owned b := .inr ⟨i, hlive.1, hdecoder⟩
    refine h.of_ios hcounted rfl rfl (fun x hx => ?_) fun x hx => h.exclusive x hx
    have hxb : x ≠ b := by
      rintro rfl
      rw [h.exclusive x howned] at hx
      omega
    simp [IoSys.setBuf, hxb]
  | peekNone _ => exact h
  | @peek mem b t hpeek =>
    obtain ⟨hn, hios, -, hdrafts, hsending⟩ := bufferPoolPeek_frame hpeek
    have hunheld := holders_of_peek h.counted hpeek
    refine h.of_ios hcounted hn hios (fun x hx => ?_) fun x hx => ?_
    · refine bufferPoolPeek_data hpeek ?_
      rintro rfl
      omega
    · have hholders : IoSys.holders { t with drafts := b :: t.drafts } x = s.holders x + if x = b
          then 1 else 0 := by
        simp only [IoSys.holders, hn, hios, hdrafts, hsending, List.count_cons, beq_iff_eq,
          eq_comm (a := b)]
        omega
      by_cases hxb : x = b
      · rw [hholders, if_pos hxb, hxb, hunheld]
      · rw [hholders, if_neg hxb, add_zero]
        refine h.exclusive x ?_
        rcases hx with hdraft | ⟨i, hi, hdecoder⟩
        · exact .inl (hdrafts ▸ (List.mem_cons.mp hdraft).resolve_left hxb)
        · exact .inr ⟨i, hn ▸ hi, hios ▸ hdecoder⟩
  | @encode b bytes hb =>
    have howned : s.Owned b := .inl hb
    refine h.of_ios hcounted rfl rfl (fun x hx => ?_) fun x hx => ?_
    · have hxb : x ≠ b := by
        rintro rfl
        rw [h.exclusive x howned] at hx
        omega
      simp [IoSys.setBuf, hxb]
    · have hold : s.Owned x := by
        rcases hx with hdraft | ⟨i, hi, hdecoder⟩
        · exact .inl (List.mem_of_mem_erase hdraft)
        · exact .inr ⟨i, hi, hdecoder⟩
      have herase := count_erase_add hb x
      have hone := h.exclusive x hold
      simp only [IoSys.holders, IoSys.setBuf, List.count_cons, beq_iff_eq,
        eq_comm (a := b)] at hone ⊢
      omega
  | @sendPeer b i mem answers hb hlive _ =>
    obtain ⟨rfl, hfail⟩ := hbenign
    refine h.within hcounted (Within.sendPeerBuffer true answers b s)
      (flows_sendPeerBuffer hfail (h.flows i hlive.1)) fun x hx => ?_
    refine refcnt_sendPeerBuffer ?_ true answers
    rintro rfl
    exact h.not_owned_of_sending hb hx
  | @sendOne b i mem answers hb hlive =>
    obtain ⟨rfl, hfail⟩ := hbenign
    have herased : Within i s { s with sending := s.sending.erase b } :=
      ⟨rfl, fun _ _ => rfl, rfl, rfl, fun _ => rfl, fun _ => rfl, rfl⟩
    have hflows : IoSys.Flows { s with sending := s.sending.erase b } (s.ios i) := h.flows i hlive.1
    refine h.within hcounted (herased.trans (Within.sendOneBuffer true answers b _))
      (flows_sendOneBuffer hfail hflows) fun x hx => ?_
    refine refcnt_sendOneBuffer (s := { s with sending := s.sending.erase b }) ?_ true answers
    rintro rfl
    exact h.not_owned_of_sending hb hx
  | @releaseDraft b hb =>
    refine h.released hcounted rfl rfl rfl (fun x hx => List.mem_of_mem_erase hx) fun x => ?_
    have herase := count_erase_add hb x
    simp only [IoSys.holders]
    omega
  | @release b hb =>
    refine h.released hcounted rfl rfl rfl (fun x hx => hx) fun x => ?_
    have herase := count_erase_add hb x
    simp only [IoSys.holders]
    omega
  | @writeEvents i events answers hlive _ =>
    refine h.within hcounted (Within.ioWriteEvents events answers i s)
      (flows_ioWriteEvents hbenign.1 hbenign.2 (h.flows i hlive.1)) fun x hx => ?_
    have hnot : x ∉ (s.ios i).writeBuffers := by
      intro hmem
      have htwo := two_le_holders_of_queued hlive.1 hmem
      rw [h.exclusive x hx] at htwo
      omega
    exact refcnt_ioWriteEvents hnot events answers
  | writeTimeout _ _ => exact absurd hbenign id
  | leave _ _ => exact absurd hbenign id
  | closeDecoder _ _ _ => exact absurd hbenign id
  | destroy _ _ => exact absurd hbenign id

end Flowing

lemma Flowing.start : Flowing {} := by
  refine ⟨Counted.start, fun b hb => ?_, fun _ hi => absurd hi (Nat.not_lt_zero _)⟩
  rcases hb with hdraft | ⟨i, hi, -⟩
  · exact absurd hdraft List.not_mem_nil
  · exact absurd hi (Nat.not_lt_zero _)

/-- Whatever the descriptors accept and whenever they are ready: the bytes that a descriptor has
accepted are the first ones of the packets that were passed to `obus_io_write` for it, as they were
then, and all of them if nothing is queued; and the pool gives no buffer away that is queued. -/
theorem write_streams_intact (steps : List IoStep) (hbenign : ∀ a ∈ steps, ∀ s, Benign s a)
    (s : IoSys) (hrun : runs ioStep steps {} = some s) :
    (∀ i < s.nIos, (s.ios i).accepted <+: (s.ios i).passed.flatten ∧
      ((s.ios i).writeBuffers = [] → (s.ios i).accepted = (s.ios i).passed.flatten)) ∧
      ∀ mem b t, bufferPoolPeek mem s = some (b, t) → ∀ i < s.nIos, b ∉ (s.ios i).writeBuffers := by
  have hflowing : Flowing s := runs_invariant (fun _ _ _ h hb hs => h.step hb hs) Flowing.start
    (meetsAll_of_forall hbenign _) hrun
  refine ⟨fun i hi => ?_, fun mem b t hpeek i hi hqueued => ?_⟩
  · have hflows := hflowing.flows i hi
    rw [IoSys.Flows] at hflows
    refine ⟨⟨_, hflows⟩, fun hempty => ?_⟩
    rw [← hflows, IoSys.pending, hempty, List.append_nil]
  · have htwo := two_le_holders_of_queued hi hqueued
    rw [Flowing.holders_of_peek hflowing.counted hpeek] at htwo
    omega

/-- A packet is broadcast to two ios: the first descriptor accepts half of it at once and the rest
later, the second one nothing yet.  (Buffers 0 and 1 are those of the decoders.) -/
def broadcastToTwo : List IoStep :=
  [.accept true, .accept true, .peek true, .encode 2 [5, 6], .sendPeer 2 0 true [.wrote 1, .again],
    .sendPeer 2 1 true [.again], .release 2, .writeEvents 0 ⟨false, true⟩ [.wrote 1], .peek true]

theorem write_streams_intact_broadcastToTwo :
    ∃ s, runs ioStep broadcastToTwo {} = some s ∧ (s.ios 0).accepted = [5, 6] ∧
    (s.ios 1).writeBuffers = [2] ∧
      (∀ i < s.nIos, (s.ios i).accepted <+: (s.ios i).passed.flatten) ∧ s.drafts = [3] := by
  obtain ⟨s, hrun⟩ : ∃ s, runs ioStep broadcastToTwo {} = some s := ⟨_, rfl⟩
  have hbenign : ∀ a ∈ broadcastToTwo, ∀ s, Benign s a := by
    intro a ha s
    simp only [broadcastToTwo, List.mem_cons, List.not_mem_nil, or_false] at ha
    rcases ha with rfl | rfl | rfl | rfl | rfl | rfl | rfl | rfl | rfl
    all_goals trivial
  obtain ⟨hstreams, -⟩ := write_streams_intact broadcastToTwo hbenign s hrun
  refine ⟨s, hrun, ?_, ?_, fun i hi => (hstreams i hi).1, ?_⟩
  · cases hrun
    rfl
  · cases hrun
    rfl
  · cases hrun
    rfl

end Obus.Output
