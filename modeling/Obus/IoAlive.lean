import Obus.Io
import Obus.Lib.Run

/-!
# Ios that were destroyed

Each function of an io changes that io only (`Within`), and finds it alive.  The exception is the
loop of `obus_io_write_events`: after a write that fails it calls the write-done callback, which
destroys the io, and looks at the list of the io again.  In a run in which no write of the loop
fails, no field of a destroyed io is used (`io_untouched_after_destroy`).
-/

namespace Obus.Output

/-- What a function that works on an io leaves alone. -/
structure Within (i : ℕ) (s t : IoSys) : Prop where
  nIos : t.nIos = s.nIos
  others : ∀ j, j ≠ i → t.ios j = s.ios j
  alive : (t.ios i).alive = (s.ios i).alive
  decoder : (t.ios i).decoder = (s.ios i).decoder
  fault : (s.ios i).alive = true → t.fault = s.fault
  data : ∀ b, (t.bufs b).data = (s.bufs b).data
  drafts : t.drafts = s.drafts

namespace Within

variable {i b : ℕ} {s t u : IoSys} {io : Io}

lemma refl (i : ℕ) (s : IoSys) : Within i s s :=
  ⟨rfl, fun _ _ => rfl, rfl, rfl, fun _ => rfl, fun _ => rfl, rfl⟩

lemma trans (h : Within i s t) (h' : Within i t u) : Within i s u :=
  ⟨h'.nIos.trans h.nIos, fun j hj => (h'.others j hj).trans (h.others j hj), h'.alive.trans h.alive,
    h'.decoder.trans h.decoder, fun halive =>
      (h'.fault (h.alive.trans halive)).trans (h.fault halive),
    fun b => (h'.data b).trans (h.data b), h'.drafts.trans h.drafts⟩

lemma setIo (halive : io.alive = (s.ios i).alive) (hdecoder : io.decoder = (s.ios i).decoder) :
    Within i s (s.setIo i io) := by
  refine ⟨rfl, fun j hj => s.setIo_of_ne hj io, ?_, ?_, fun _ => rfl, fun _ => rfl, rfl⟩
  · rw [IoSys.setIo_self, halive]
  · rw [IoSys.setIo_self, hdecoder]

lemma ref (b : ℕ) (s : IoSys) : Within i s (bufferRef b s) := by
  refine ⟨rfl, fun _ _ => rfl, rfl, rfl, fun _ => rfl, fun x => ?_, rfl⟩
  by_cases hx : x = b
  · simp [bufferRef, IoSys.setBuf, hx]
  · simp [bufferRef, IoSys.setBuf, hx]

lemma unref (b : ℕ) (s : IoSys) : Within i s (bufferUnref b s) :=
  ⟨bufferUnref_nIos b s,
    fun j _ => by rw [bufferUnref_ios], by rw [bufferUnref_ios], by rw [bufferUnref_ios],
    fun _ => bufferUnref_fault b s, bufferUnref_data b s, bufferUnref_drafts b s⟩

lemma touch (i : ℕ) (s : IoSys) : Within i s (s.touch i) := by
  refine ⟨rfl, fun _ _ => rfl, rfl, rfl, fun halive => ?_, fun _ => rfl, rfl⟩
  simp [IoSys.touch, halive]

lemma ioBufferNew (b : ℕ) (s : IoSys) : Within i s (ioBufferNew i b s) :=
  (ref b s).trans (setIo rfl rfl)

lemma ioAccept (bytes : List UInt8) (s : IoSys) : Within i s (ioAccept i bytes s) := setIo rfl rfl

lemma ioWrite (mem : Bool) (answers : List WriteResult) (b : ℕ) (s : IoSys) :
    Within i s (ioWrite mem answers i b s).2 := by
  have hpassed : Within i s
      (s.setIo i { s.ios i with passed := (s.ios i).passed ++ [(s.bufs b).data] }) :=
    setIo rfl rfl
  simp only [Output.ioWrite]
  split
  · split
    · exact hpassed.trans (ioBufferNew b _)
    · exact hpassed
  · split
    · split
      · refine Within.trans ?_ (setIo rfl rfl)
        exact (hpassed.trans (ioAccept _ _)).trans (ioBufferNew b _)
      · exact hpassed.trans (ioAccept _ _)
    · exact hpassed.trans (ioAccept _ _)

lemma ioLeave (i : ℕ) (s : IoSys) : Within i s (ioLeave i s) := setIo rfl rfl

lemma ioWriteBufferComplete (status : IoStatus) (i : ℕ) (s : IoSys) :
    Within i s (ioWriteBufferComplete status i s) := by
  unfold Output.ioWriteBufferComplete ioWriteDone
  simp only
  split
  · exact touch i s
  · next b rest _ =>
    have hdequeued : Within i s (bufferUnref b ((bufferUnref b (s.touch i)).setIo i
        { (bufferUnref b (s.touch i)).ios i with writeBuffers := rest, nbrWritten := 0 })) := by
      refine Within.trans ?_ (unref b _)
      refine Within.trans ?_ (setIo rfl rfl)
      exact (touch i s).trans (unref b _)
    split
    · exact hdequeued
    · exact hdequeued.trans (ioLeave i _)

lemma ioWriteLoop (fuel : ℕ) (answers : List WriteResult) (i : ℕ) (s : IoSys) :
    Within i s (ioWriteLoop fuel answers i s) := by
  induction fuel generalizing s answers with
  | zero => exact refl i s
  | succ fuel ih =>
    simp only [Output.ioWriteLoop]
    split
    · exact touch i s
    · split
      · refine Within.trans ?_ (setIo rfl rfl)
        exact (touch i s).trans (ioAccept _ _)
      · refine Within.trans ?_ (ih _ _)
        exact ((touch i s).trans (ioAccept _ _)).trans (ioWriteBufferComplete .ok i _)
      · refine Within.trans ?_ (setIo rfl rfl)
        exact ((touch i s).trans (ioAccept _ _)).trans (ioWriteBufferComplete .error i _)

lemma ioWriteEvents (events : FdEvents) (answers : List WriteResult) (i : ℕ) (s : IoSys) :
    Within i s (ioWriteEvents events answers i s) := by
  unfold Output.ioWriteEvents
  simp only
  split
  · exact (touch i s).trans (ioWriteBufferComplete .error i _)
  · split
    · exact (touch i s).trans (ioWriteLoop _ answers i _)
    · exact touch i s

lemma sendPeerBuffer (mem : Bool) (answers : List WriteResult) (b : ℕ) (s : IoSys) :
    Within i s (sendPeerBuffer mem answers i b s) := by
  have hwritten : Within i s (Output.ioWrite mem answers i b s).2 := ioWrite mem answers b s
  unfold Output.sendPeerBuffer
  split
  · next t heq =>
    rw [heq] at hwritten
    exact hwritten.trans (ref b t)
  · next t heq =>
    rw [heq] at hwritten
    exact hwritten.trans (ioLeave i t)
  · next t heq =>
    rw [heq] at hwritten
    exact hwritten

lemma sendOneBuffer (mem : Bool) (answers : List WriteResult) (b : ℕ) (s : IoSys) :
    Within i s (sendOneBuffer mem answers i b s) := by
  have hwritten : Within i s (Output.ioWrite mem answers i b s).2 := ioWrite mem answers b s
  unfold Output.sendOneBuffer
  split
  · next t heq =>
    rw [heq] at hwritten
    exact hwritten
  · next t _ heq =>
    rw [heq] at hwritten
    exact hwritten.trans (unref b t)

end Within

/-! ## The write loop -/

section

variable {i : ℕ} {s : IoSys}

lemma resume_ioWrite (mem : Bool) (answers : List WriteResult) (i b : ℕ) (s : IoSys) :
    ((ioWrite mem answers i b s).2.ios i).resume = (s.ios i).resume := by
  simp only [ioWrite]
  split
  · split <;> simp [ioBufferNew, bufferRef, IoSys.setBuf, IoSys.setIo]
  · split
    · split <;> simp [ioBufferNew, ioAccept, bufferRef, IoSys.setBuf, IoSys.setIo]
    · simp [ioAccept, IoSys.setIo]

lemma resume_sendPeerBuffer (mem : Bool) (answers : List WriteResult) (i b : ℕ) (s : IoSys) :
    ((sendPeerBuffer mem answers i b s).ios i).resume = (s.ios i).resume := by
  have hwritten := resume_ioWrite mem answers i b s
  unfold sendPeerBuffer
  split
  · next t heq =>
    rw [heq] at hwritten
    exact hwritten
  · next t heq =>
    rw [heq] at hwritten
    rw [ioLeave, IoSys.setIo_self]
    exact hwritten
  · next t heq =>
    rw [heq] at hwritten
    exact hwritten

lemma resume_sendOneBuffer (mem : Bool) (answers : List WriteResult) (i b : ℕ) (s : IoSys) :
    ((sendOneBuffer mem answers i b s).ios i).resume = (s.ios i).resume := by
  have hwritten := resume_ioWrite mem answers i b s
  unfold sendOneBuffer
  split
  · next t heq =>
    rw [heq] at hwritten
    exact hwritten
  · next t _ heq =>
    rw [heq] at hwritten
    rw [bufferUnref_ios]
    exact hwritten

lemma resume_ioWriteBufferComplete (status : IoStatus) (i : ℕ) (s : IoSys) :
    ((ioWriteBufferComplete status i s).ios i).resume = (s.ios i).resume := by
  unfold ioWriteBufferComplete ioWriteDone
  simp only
  split
  · rfl
  · split
    · simp [IoSys.setIo, IoSys.touch]
    · simp [ioLeave, IoSys.setIo, IoSys.touch]

/-- A write that does not fail does not end in an error. -/
lemma ioWriteBuffer_ne_error {answers : List WriteResult} (hfail : .fail ∉ answers)
    (bytes : List UInt8) (n : ℕ) :
    (ioWriteBuffer answers bytes n).1 ≠ .error ∧ .fail ∉ (ioWriteBuffer answers bytes n).2.2 := by
  fun_induction ioWriteBuffer answers bytes n with
  | case1 answers n => exact ⟨nofun, hfail⟩
  | case2 => exact ⟨nofun, hfail⟩
  | case3 _ _ _ _ _ ih => exact ih fun hmem => hfail (List.mem_cons_of_mem _ hmem)
  | case4 _ _ _ _ ih => exact ih fun hmem => hfail (List.mem_cons_of_mem _ hmem)
  | case5 => exact ⟨nofun, fun hmem => hfail (List.mem_cons_of_mem _ hmem)⟩
  | case6 => exact absurd List.mem_cons_self hfail

/-- If no write fails, the loop does not wait for the callback. -/
lemma resume_ioWriteLoop (fuel : ℕ) {answers : List WriteResult} (hfail : .fail ∉ answers) (i : ℕ)
    (s : IoSys) : ((ioWriteLoop fuel answers i s).ios i).resume = (s.ios i).resume := by
  induction fuel generalizing s answers with
  | zero => rfl
  | succ fuel ih =>
    have hwrite := ioWriteBuffer_ne_error hfail
    simp only [ioWriteLoop]
    split
    · rfl
    · split
      · simp [IoSys.setIo, ioAccept, IoSys.touch]
      · rw [ih (hwrite _ _).2, resume_ioWriteBufferComplete]
        simp [IoSys.setIo, ioAccept, IoSys.touch]
      · next herror => exact absurd herror (hwrite _ _).1

end

/-! ## Runs -/

/-- No write of `obus_io_write_events` fails. -/
def Unfailing (_ : IoSys) : IoStep → Prop
  | .writeEvents _ events answers => events.error = false → .fail ∉ answers
  | _ => True

/-- No destroyed io was used, and no `obus_io_write_events` waits for the destruction of its io. -/
structure Unhurt (s : IoSys) : Prop where
  fault : s.fault = false
  resume : ∀ i < s.nIos, (s.ios i).resume = false

namespace Unhurt

variable {i : ℕ} {s t : IoSys}

lemma within (h : Unhurt s) (hwithin : Within i s t) (halive : (s.ios i).alive = true)
    (hresume : (t.ios i).resume = (s.ios i).resume) : Unhurt t := by
  refine ⟨(hwithin.fault halive).trans h.fault, fun j hj => ?_⟩
  rw [hwithin.nIos] at hj
  by_cases hji : j = i
  · subst hji
    exact hresume.trans (h.resume j hj)
  · rw [hwithin.others j hji]
    exact h.resume j hj

lemma of_ios (h : Unhurt s) (hn : t.nIos = s.nIos) (hios : t.ios = s.ios)
    (hfault : t.fault = s.fault) : Unhurt t :=
  ⟨hfault.trans h.fault, fun i hi => by rw [hios]; exact h.resume i (hn ▸ hi)⟩

lemma ioNew (h : Unhurt s) (mem : Bool) : Unhurt (ioNew mem s) := by
  cases hpeek : bufferPoolPeek mem s with
  | none =>
    rw [ioNew_of_none hpeek]
    exact h
  | some found =>
    refine ⟨(ioNew_fault hpeek).trans h.fault, fun i hi => ?_⟩
    rw [ioNew_nIos hpeek] at hi
    rw [ioNew_ios hpeek]
    by_cases hnew : i = s.nIos
    · rw [hnew, Function.update_self]
    · rw [Function.update_of_ne hnew]
      exact h.resume i (lt_of_le_of_ne (Nat.lt_succ_iff.mp hi) hnew)

/-- The io is destroyed while nobody waits for it. -/
lemma ioDestroy (h : Unhurt s) (hi : i < s.nIos) : Unhurt (ioDestroy i s) := by
  obtain ⟨hn, hios, hfault⟩ := foldl_bufferUnref_frame (s.ios i).writeBuffers s
  have hresume : ∀ io : Io, io.resume = (s.ios i).resume →
      Unhurt (((s.ios i).writeBuffers.foldl (fun s b => bufferUnref b s) s).setIo i io) := by
    intro io hio
    refine ⟨hfault.trans h.fault, fun j hj => ?_⟩
    by_cases hji : j = i
    · rw [hji, IoSys.setIo_self, hio]
      exact h.resume i hi
    · rw [IoSys.setIo_of_ne _ hji, hios]
      exact h.resume j (hn ▸ hj)
  unfold Output.ioDestroy
  simp only
  split
  · next hwaits =>
    simp only [IoSys.setIo, Function.update_self, hios, h.resume i hi, Bool.false_eq_true] at hwaits
  · refine hresume _ ?_
    rw [hios]

/-- If no write of the loop fails, a step uses no destroyed io. -/
lemma step {s' : IoSys} {a : IoStep} (h : Unhurt s) (hgood : Unfailing s a)
    (hstep : ioStep s a = some s') : Unhurt s' := by
  cases ioStep_cases hstep with
  | accept mem => exact h.ioNew mem
  | receive bytes _ _ => exact h.of_ios rfl rfl rfl
  | peekNone _ => exact h
  | peek hpeek =>
    obtain ⟨hn, hios, hfault, -, -⟩ := bufferPoolPeek_frame hpeek
    exact h.of_ios hn hios hfault
  | encode bytes _ => exact h.of_ios rfl rfl rfl
  | @sendPeer b i mem answers _ hlive _ =>
    exact h.within (Within.sendPeerBuffer mem answers b s) hlive.2
      (resume_sendPeerBuffer mem answers i b s)
  | @sendOne b i mem answers _ hlive =>
    have herased : Unhurt { s with sending := s.sending.erase b } := h.of_ios rfl rfl rfl
    exact herased.within (Within.sendOneBuffer mem answers b _) hlive.2
      (resume_sendOneBuffer mem answers i b _)
  | releaseDraft _ =>
    exact h.of_ios (bufferUnref_nIos _ _) (bufferUnref_ios _ _) (bufferUnref_fault _ _)
  | release _ => exact h.of_ios (bufferUnref_nIos _ _) (bufferUnref_ios _ _) (bufferUnref_fault _ _)
  | @writeEvents i events answers hlive _ =>
    refine h.within (Within.ioWriteEvents events answers i s) hlive.2 ?_
    unfold ioWriteEvents
    simp only
    split
    · exact resume_ioWriteBufferComplete .error i _
    · next hok =>
      split
      · exact resume_ioWriteLoop _ (hgood (by simpa using hok)) i _
      · rfl
  | @writeTimeout i hlive _ =>
    exact h.within ((Within.touch i s).trans (Within.ioWriteBufferComplete .timeout i _)) hlive.2
      (resume_ioWriteBufferComplete .timeout i _)
  | @leave i hlive _ =>
    exact h.within (Within.ioLeave i s) hlive.2 (by simp [Output.ioLeave, IoSys.setIo])
  | @closeDecoder i b _ hi _ =>
    refine ⟨(bufferUnref_fault b _).trans h.fault, fun j hj => ?_⟩
    replace hj : j < s.nIos := hj.trans_eq (bufferUnref_nIos b _)
    by_cases hji : j = i
    · rw [hji, decoderDestroy, IoSys.setIo_self, bufferUnref_ios]
      exact h.resume i hi
    · rw [decoderDestroy, IoSys.setIo_of_ne _ hji, bufferUnref_ios]
      exact h.resume j hj
  | destroy hlive _ => exact h.ioDestroy hlive.1

end Unhurt

/-- Nothing is queued on a destroyed io. -/
def Buried (s : IoSys) : Prop := ∀ i < s.nIos, (s.ios i).alive = false → (s.ios i).writeBuffers = []

namespace Buried

variable {i : ℕ} {s t : IoSys}

/-- Functions work on ios that are alive. -/
lemma within (h : Buried s) (hwithin : Within i s t) (halive : (s.ios i).alive = true) :
    Buried t := by
  intro j hj hdead
  rw [hwithin.nIos] at hj
  by_cases hji : j = i
  · rw [hji, hwithin.alive, halive] at hdead
    cases hdead
  · rw [hwithin.others j hji] at hdead ⊢
    exact h j hj hdead

lemma of_ios (h : Buried s) (hn : t.nIos = s.nIos) (hios : t.ios = s.ios) : Buried t := by
  intro i hi hdead
  rw [hios] at hdead ⊢
  exact h i (hn ▸ hi) hdead

lemma step {s' : IoSys} {a : IoStep} (h : Buried s) (hstep : ioStep s a = some s') : Buried s' := by
  cases ioStep_cases hstep with
  | accept mem =>
    cases hpeek : bufferPoolPeek mem s with
    | none =>
      rw [ioNew_of_none hpeek]
      exact h
    | some found =>
      intro i hi hdead
      rw [ioNew_nIos hpeek] at hi
      rw [ioNew_ios hpeek] at hdead ⊢
      by_cases hnew : i = s.nIos
      · rw [hnew, Function.update_self]
      · rw [Function.update_of_ne hnew] at hdead ⊢
        exact h i (lt_of_le_of_ne (Nat.lt_succ_iff.mp hi) hnew) hdead
  | receive bytes _ _ => exact h.of_ios rfl rfl
  | peekNone _ => exact h
  | peek hpeek =>
    obtain ⟨hn, hios, -⟩ := bufferPoolPeek_frame hpeek
    exact h.of_ios hn hios
  | encode bytes _ => exact h.of_ios rfl rfl
  | @sendPeer b i mem answers _ hlive _ =>
    exact h.within (Within.sendPeerBuffer mem answers b s) hlive.2
  | @sendOne b i mem answers _ hlive =>
    have herased : Buried { s with sending := s.sending.erase b } := h.of_ios rfl rfl
    exact herased.within (Within.sendOneBuffer mem answers b _) hlive.2
  | releaseDraft _ => exact h.of_ios (bufferUnref_nIos _ _) (bufferUnref_ios _ _)
  | release _ => exact h.of_ios (bufferUnref_nIos _ _) (bufferUnref_ios _ _)
  | @writeEvents i events answers hlive _ =>
    exact h.within (Within.ioWriteEvents events answers i s) hlive.2
  | @writeTimeout i hlive _ =>
    exact h.within ((Within.touch i s).trans (Within.ioWriteBufferComplete .timeout i _)) hlive.2
  | @leave i hlive _ => exact h.within (Within.ioLeave i s) hlive.2
  | @closeDecoder i b _ hi _ =>
    intro j hj hdead
    replace hj : j < s.nIos := hj.trans_eq (bufferUnref_nIos b _)
    by_cases hji : j = i
    · rw [hji, decoderDestroy, IoSys.setIo_self, bufferUnref_ios] at hdead ⊢
      exact h i hi hdead
    · rw [decoderDestroy, IoSys.setIo_of_ne _ hji, bufferUnref_ios] at hdead ⊢
      exact h j hj hdead
  | @destroy i hlive _ =>
    obtain ⟨hn, hios, -⟩ := foldl_bufferUnref_frame (s.ios i).writeBuffers s
    have hgone : ∀ io : Io, io.writeBuffers = [] →
        Buried (((s.ios i).writeBuffers.foldl (fun s b => bufferUnref b s) s).setIo i io) := by
      intro io hio j hj hdead
      by_cases hji : j = i
      · rw [hji, IoSys.setIo_self, hio]
      · rw [IoSys.setIo_of_ne _ hji, hios] at hdead ⊢
        exact h j (hn ▸ hj) hdead
    unfold ioDestroy
    simp only
    split
    · exact (hgone _ rfl).of_ios rfl rfl
    · exact hgone _ rfl

end Buried

/-- In a run in which no write of `obus_io_write_events` fails, no function of an io uses a field of
an io that was destroyed. -/
theorem io_untouched_after_destroy (steps : List IoStep)
    (hgood : MeetsAll ioStep Unfailing steps {}) (s : IoSys)
    (hrun : runs ioStep steps {} = some s) : s.fault = false := by
  have hunhurt : Unhurt s :=
    runs_invariant (fun _ _ _ h hg hs => h.step hg hs)
      ⟨rfl, fun _ hi => absurd hi (Nat.not_lt_zero _)⟩ hgood hrun
  exact hunhurt.fault

/-- A packet of two bytes is passed to an io whose descriptor accepts one of them.  (Buffer 0 is
that of the decoder.) -/
def halfSent : List IoStep :=
  [.accept true, .peek true, .encode 1 [5, 6], .sendOne 1 0 true [.wrote 1, .again]]

theorem io_untouched_after_destroy_halfSent :
    ∃ s, runs ioStep (halfSent ++ [.writeEvents 0 ⟨false, true⟩ [.wrote 1], .leave 0, .destroy 0])
      {} = some s ∧
      (s.ios 0).alive = false ∧ s.fault = false := by
  obtain ⟨s, hrun⟩ : ∃ s, runs ioStep
      (halfSent ++ [.writeEvents 0 ⟨false, true⟩ [.wrote 1], .leave 0, .destroy 0]) {} =
        some s := ⟨_, rfl⟩
  refine ⟨s, hrun, ?_, io_untouched_after_destroy _
    (meetsAll_of_forall (fun a ha _ => ?_) _) s hrun⟩
  · cases hrun
    rfl
  · simp only [halfSent, List.cons_append, List.nil_append, List.mem_cons, List.not_mem_nil,
      or_false] at ha
    rcases ha with rfl | rfl | rfl | rfl | rfl | rfl | rfl
    all_goals first | trivial | exact fun _ => by decide

/-- The rest of the packet cannot be written: the write-done callback destroys the io, and the loop
looks at its list. -/
theorem io_touched_after_failed_write :
    ∃ s, runs ioStep (halfSent ++ [.writeEvents 0 ⟨false, true⟩ [.fail], .destroy 0]) {} = some s ∧
      (s.ios 0).alive = false ∧ s.fault = true :=
  ⟨_, rfl, rfl, rfl⟩

end Obus.Output
