import Mathlib.Tactic
import Mathlib.Algebra.BigOperators.Group.Finset.Basic
import Mathlib.Algebra.Order.BigOperators.Group.Finset
import Mathlib.Data.List.Basic

/-!
# Output queues and the buffer pool

A server or a client has one pool of buffers.  A packet is encoded into a buffer of the pool and
passed to `obus_io_write`, for one descriptor or for many; what a descriptor does not accept at once
waits in the list of its io.  Buffers are counted references to: the list of an io has one for each
of its entries, and the operation that passed the buffer leaves another one with the entry, which
the write-done callback gives back.

The state (`IoSys`) is that of all ios on one pool.  Its steps (`IoStep`) are the pieces of the
library's functions between which other code may run.  `obus_peer_destroy` tells the user before it
destroys the io, and he may send packets in there; so an io is `leaving` first, and destroyed by a
later step.  `obus_io_write_events` that has called the write-done callback of a leaving io goes on
when the io is destroyed (`resume`).
-/

namespace Obus.Output

/-- `struct obus_buffer`: the bytes up to its length, and the references to it. -/
structure PoolBuffer where
  data : List UInt8
  refcnt : ℤ

/-- `struct obus_io`, with the decoder that reads from the same descriptor.  Buffers go by their
number.  What was passed to `obus_io_write` and what the descriptor has accepted is kept as a
record. -/
structure Io where
  alive : Bool := true
  leaving : Bool := false
  resume : Bool := false
  nbrWritten : ℕ := 0
  writeBuffers : List ℕ := []
  decoder : Option ℕ := none
  passed : List (List UInt8) := []
  accepted : List UInt8 := []

/-- The ios on a buffer pool.  An operation has a buffer among `drafts` until the packet is encoded,
then among `sending`.  `fault` says that a field of a destroyed io was used. -/
structure IoSys where
  nBufs : ℕ := 0
  bufs : ℕ → PoolBuffer := fun _ => ⟨[], 0⟩
  free : List ℕ := []
  nIos : ℕ := 0
  ios : ℕ → Io := fun _ => {}
  drafts : List ℕ := []
  sending : List ℕ := []
  fault : Bool := false

/-- What `write` answers when it is offered bytes. -/
inductive WriteResult where
  | wrote (n : ℕ)
  | interrupted
  | again
  | fail
  deriving DecidableEq

/-- The results of `obus_io_write_buffer` and `obus_io_write`: all written, `-EAGAIN`, another
error. -/
inductive WriteStatus where
  | ok
  | again
  | error
  deriving DecidableEq

/-- `enum obus_io_status`. -/
inductive IoStatus where
  | ok
  | error
  | timeout
  deriving DecidableEq

/-- What the loop reports of a descriptor. -/
structure FdEvents where
  error : Bool
  write : Bool
  deriving DecidableEq

namespace IoSys

/-- A system with another buffer in the place of one of its buffers. -/
def setBuf (s : IoSys) (b : ℕ) (buf : PoolBuffer) : IoSys :=
  { s with bufs := Function.update s.bufs b buf }

/-- A system with another io in the place of one of its ios. -/
def setIo (s : IoSys) (i : ℕ) (io : Io) : IoSys := { s with ios := Function.update s.ios i io }

@[simp] lemma setIo_self (s : IoSys) (i : ℕ) (io : Io) : (s.setIo i io).ios i = io := by
  simp [setIo]

@[simp] lemma setIo_bufs (s : IoSys) (i : ℕ) (io : Io) : (s.setIo i io).bufs = s.bufs := rfl

lemma setIo_of_ne (s : IoSys) {i j : ℕ} (h : j ≠ i) (io : Io) : (s.setIo i io).ios j = s.ios j := by
  simp [setIo, h]

/-- A field of an io is used. -/
def touch (s : IoSys) (i : ℕ) : IoSys := { s with fault := s.fault || !(s.ios i).alive }

end IoSys

/-! ## Buffers -/

/-- `obus_buffer_ref`. -/
def bufferRef (b : ℕ) (s : IoSys) : IoSys := s.setBuf b ⟨(s.bufs b).data, (s.bufs b).refcnt + 1⟩

/-- `obus_buffer_pool_put`. -/
def bufferPoolPut (b : ℕ) (s : IoSys) : IoSys :=
  { s.setBuf b ⟨(s.bufs b).data, 0⟩ with free := s.free ++ [b] }

/-- `obus_buffer_unref`. -/
def bufferUnref (b : ℕ) (s : IoSys) : IoSys :=
  let s := s.setBuf b ⟨(s.bufs b).data, (s.bufs b).refcnt - 1⟩
  if (s.bufs b).refcnt = 0 then bufferPoolPut b s else s

section

variable (b : ℕ) (s : IoSys)

lemma bufferUnref_eq : ∃ refcnt free, bufferUnref b s =
    { s.setBuf b ⟨(s.bufs b).data, refcnt⟩ with free := free } := by
  unfold bufferUnref
  simp only
  split
  · exact ⟨0, s.free ++ [b], by simp [bufferPoolPut, IoSys.setBuf]⟩
  · exact ⟨_, s.free, rfl⟩

@[simp] lemma bufferUnref_ios : (bufferUnref b s).ios = s.ios := by
  obtain ⟨_, _, heq⟩ := bufferUnref_eq b s
  rw [heq]
  rfl

@[simp] lemma bufferUnref_nIos : (bufferUnref b s).nIos = s.nIos := by
  obtain ⟨_, _, heq⟩ := bufferUnref_eq b s
  rw [heq]
  rfl

@[simp] lemma bufferUnref_nBufs : (bufferUnref b s).nBufs = s.nBufs := by
  obtain ⟨_, _, heq⟩ := bufferUnref_eq b s
  rw [heq]
  rfl

@[simp] lemma bufferUnref_drafts : (bufferUnref b s).drafts = s.drafts := by
  obtain ⟨_, _, heq⟩ := bufferUnref_eq b s
  rw [heq]
  rfl

@[simp] lemma bufferUnref_sending : (bufferUnref b s).sending = s.sending := by
  obtain ⟨_, _, heq⟩ := bufferUnref_eq b s
  rw [heq]
  rfl

@[simp] lemma bufferUnref_fault : (bufferUnref b s).fault = s.fault := by
  obtain ⟨_, _, heq⟩ := bufferUnref_eq b s
  rw [heq]
  rfl

@[simp] lemma bufferUnref_data (x : ℕ) : ((bufferUnref b s).bufs x).data = (s.bufs x).data := by
  obtain ⟨_, _, heq⟩ := bufferUnref_eq b s
  rw [heq]
  by_cases hx : x = b
  · subst hx
    simp [IoSys.setBuf]
  · simp [IoSys.setBuf, hx]

end

/-- `obus_buffer_pool_peek`: the first free buffer, or a new one. -/
def bufferPoolPeek (mem : Bool) (s : IoSys) : Option (ℕ × IoSys) :=
  match s.free with
  | [] =>
    if mem then some (s.nBufs, { s.setBuf s.nBufs ⟨[], 1⟩ with nBufs := s.nBufs + 1 }) else none
  | b :: free => some (b, { s.setBuf b ⟨(s.bufs b).data, 1⟩ with free := free })

/-- Peeking a buffer changes nothing but the buffer and the free list. -/
lemma bufferPoolPeek_frame {mem : Bool} {s t : IoSys} {b : ℕ}
    (h : bufferPoolPeek mem s = some (b, t)) :
    t.nIos = s.nIos ∧ t.ios = s.ios ∧ t.fault = s.fault ∧ t.drafts = s.drafts ∧
    t.sending = s.sending := by
  unfold bufferPoolPeek at h
  split at h
  · split at h
    · cases h
      exact ⟨rfl, rfl, rfl, rfl, rfl⟩
    · cases h
  · cases h
    exact ⟨rfl, rfl, rfl, rfl, rfl⟩

lemma bufferPoolPeek_data {mem : Bool} {s t : IoSys} {b : ℕ}
    (h : bufferPoolPeek mem s = some (b, t)) {x : ℕ}
    (hx : x ≠ b) : (t.bufs x).data = (s.bufs x).data := by
  unfold bufferPoolPeek at h
  split at h
  · split at h
    · obtain ⟨rfl, rfl⟩ := Prod.mk.inj (Option.some.inj h)
      simp [IoSys.setBuf, hx]
    · cases h
  · obtain ⟨rfl, rfl⟩ := Prod.mk.inj (Option.some.inj h)
    simp [IoSys.setBuf, hx]

/-- Giving buffers back changes nothing but the buffers and the free list. -/
lemma foldl_bufferUnref_frame (queue : List ℕ) (s : IoSys) :
    (queue.foldl (fun s b => bufferUnref b s) s).nIos = s.nIos ∧
      (queue.foldl (fun s b => bufferUnref b s) s).ios = s.ios ∧
      (queue.foldl (fun s b => bufferUnref b s) s).fault = s.fault := by
  induction queue generalizing s with
  | nil => exact ⟨rfl, rfl, rfl⟩
  | cons b queue ih =>
    obtain ⟨hn, hios, hfault⟩ := ih (bufferUnref b s)
    rw [List.foldl_cons]
    exact ⟨by rw [hn, bufferUnref_nIos], by rw [hios, bufferUnref_ios],
      by rw [hfault, bufferUnref_fault]⟩

/-! ## Writing -/

/-- `obus_io_write_buffer`: bytes are offered to the descriptor until it has accepted all of them,
or `write` fails.  The result, the number of bytes that were accepted, and the answers that are
left.  A descriptor without an answer is not ready. -/
def ioWriteBuffer : List WriteResult → List UInt8 → ℕ → WriteStatus × ℕ × List WriteResult
  | answers, [], n => (.ok, n, answers)
  | [], _ :: _, n => (.again, n, [])
  | .wrote k :: answers, x :: bytes, n =>
    ioWriteBuffer answers ((x :: bytes).drop k) (n + min k (bytes.length + 1))
  | .interrupted :: answers, x :: bytes, n => ioWriteBuffer answers (x :: bytes) n
  | .again :: answers, _ :: _, n => (.again, n, answers)
  | .fail :: answers, _ :: _, n => (.error, n, answers)

/-- `obus_io_buffer_new`, and the new entry in the list of the io. -/
def ioBufferNew (i b : ℕ) (s : IoSys) : IoSys :=
  let s := bufferRef b s
  s.setIo i { s.ios i with writeBuffers := (s.ios i).writeBuffers ++ [b] }

/-- The descriptor of an io has accepted bytes. -/
def ioAccept (i : ℕ) (bytes : List UInt8) (s : IoSys) : IoSys :=
  s.setIo i { s.ios i with accepted := (s.ios i).accepted ++ bytes }

/-- `obus_io_write`. -/
def ioWrite (mem : Bool) (answers : List WriteResult) (i b : ℕ) (s : IoSys) : WriteStatus × IoSys :=
  let s := s.setIo i { s.ios i with passed := (s.ios i).passed ++ [(s.bufs b).data] }
  if (s.ios i).writeBuffers ≠ [] then
    if mem then (.again, ioBufferNew i b s) else (.error, s)
  else
    let r := ioWriteBuffer answers (s.bufs b).data 0
    let s := ioAccept i ((s.bufs b).data.take r.2.1) s
    match r.1 with
    | .again =>
      if mem then
        let s := ioBufferNew i b s
        (.again, s.setIo i { s.ios i with nbrWritten := r.2.1 })
      else (.error, s)
    | ret => (ret, s)

/-- `obus_peer_destroy` and `obus_client_disconnect` begin. -/
def ioLeave (i : ℕ) (s : IoSys) : IoSys := s.setIo i { s.ios i with leaving := true }

/-- `obus_peer_io_write_done` and `obus_client_io_write_done`. -/
def ioWriteDone (status : IoStatus) (i b : ℕ) (s : IoSys) : IoSys :=
  let s := bufferUnref b s
  if status = .ok then s else ioLeave i s

/-- `obus_io_write_buffer_complete`. -/
def ioWriteBufferComplete (status : IoStatus) (i : ℕ) (s : IoSys) : IoSys :=
  let s := s.touch i
  match (s.ios i).writeBuffers with
  | [] => s
  | b :: rest =>
    let s := bufferUnref b s
    let s := s.setIo i { s.ios i with writeBuffers := rest, nbrWritten := 0 }
    ioWriteDone status i b s

/-- The loop of `obus_io_write_events`.  After an error it waits for the write-done callback. -/
def ioWriteLoop : ℕ → List WriteResult → ℕ → IoSys → IoSys
  | 0, _, _, s => s
  | fuel + 1, answers, i, s =>
    let s := s.touch i
    match (s.ios i).writeBuffers with
    | [] => s
    | b :: _ =>
      let bytes := (s.bufs b).data.drop (s.ios i).nbrWritten
      let r := ioWriteBuffer answers bytes 0
      let s := ioAccept i (bytes.take r.2.1) s
      match r.1 with
      | .again => s.setIo i { s.ios i with nbrWritten := (s.ios i).nbrWritten + r.2.1 }
      | .ok => ioWriteLoop fuel r.2.2 i (ioWriteBufferComplete .ok i s)
      | .error =>
        let s := ioWriteBufferComplete .error i s
        s.setIo i { s.ios i with resume := true }

/-- `obus_io_write_events`.  Every round of the loop but the last one takes an entry out of the
list. -/
def ioWriteEvents (events : FdEvents) (answers : List WriteResult) (i : ℕ) (s : IoSys) : IoSys :=
  let s := s.touch i
  if events.error then ioWriteBufferComplete .error i s
  else if events.write then ioWriteLoop ((s.ios i).writeBuffers.length + 1) answers i s
  else s

/-- `obus_io_write_timer`. -/
def ioWriteTimer (i : ℕ) (s : IoSys) : IoSys := ioWriteBufferComplete .timeout i (s.touch i)

/-- `obus_io_destroy`: each entry of the list is given back, with the reference of the list.  An
`obus_io_write_events` that waited for the callback then goes on with its loop. -/
def ioDestroy (i : ℕ) (s : IoSys) : IoSys :=
  let s := (s.ios i).writeBuffers.foldl (fun s b => bufferUnref b s) s
  let s := s.setIo i { s.ios i with alive := false, writeBuffers := [] }
  if (s.ios i).resume then s.touch i else s

/-! ## Steps -/

/-- What happens to the ios of a pool.  Writing steps come with the answers of the descriptor, and
steps that allocate with the answer of the allocator. -/
inductive IoStep where
  | accept (mem : Bool)
  | receive (i : ℕ) (bytes : List UInt8)
  | peek (mem : Bool)
  | encode (b : ℕ) (bytes : List UInt8)
  | sendPeer (b i : ℕ) (mem : Bool) (answers : List WriteResult)
  | sendOne (b i : ℕ) (mem : Bool) (answers : List WriteResult)
  | release (b : ℕ)
  | writeEvents (i : ℕ) (events : FdEvents) (answers : List WriteResult)
  | writeTimeout (i : ℕ)
  | leave (i : ℕ)
  | closeDecoder (i : ℕ)
  | destroy (i : ℕ)

/-- `obus_server_accept` and `obus_client_socket_connected`: a new io, with a buffer for its decoder
(`obus_packet_decoder_init`). -/
def ioNew (mem : Bool) (s : IoSys) : IoSys :=
  match bufferPoolPeek mem s with
  | none => s
  | some (b, s) =>
    let s := bufferRef b s
    let s := s.setBuf b ⟨[], (s.bufs b).refcnt⟩
    let s := { s.setIo s.nIos { decoder := some b } with nIos := s.nIos + 1 }
    bufferUnref b s

lemma ioNew_of_none {mem : Bool} {s : IoSys} (h : bufferPoolPeek mem s = none) :
    ioNew mem s = s := by
  simp only [ioNew, h]

section

variable {mem : Bool} {s t : IoSys} {b : ℕ}

lemma ioNew_nIos (h : bufferPoolPeek mem s = some (b, t)) : (ioNew mem s).nIos = s.nIos + 1 := by
  simp only [ioNew, h, bufferUnref_nIos]
  exact congrArg (· + 1) (bufferPoolPeek_frame h).1

/-- The new io, and the others. -/
lemma ioNew_ios (h : bufferPoolPeek mem s = some (b, t)) :
    (ioNew mem s).ios = Function.update s.ios s.nIos { decoder := some b } := by
  obtain ⟨hn, hios, -⟩ := bufferPoolPeek_frame h
  simp only [ioNew, h, bufferUnref_ios]
  rw [← hios, ← hn]
  rfl

lemma ioNew_fault (h : bufferPoolPeek mem s = some (b, t)) : (ioNew mem s).fault = s.fault := by
  simp only [ioNew, h, bufferUnref_fault]
  exact (bufferPoolPeek_frame h).2.2.1

lemma ioNew_drafts (h : bufferPoolPeek mem s = some (b, t)) : (ioNew mem s).drafts = s.drafts := by
  simp only [ioNew, h, bufferUnref_drafts]
  exact (bufferPoolPeek_frame h).2.2.2.1

lemma ioNew_sending (h : bufferPoolPeek mem s = some (b, t)) :
    (ioNew mem s).sending = s.sending := by
  simp only [ioNew, h, bufferUnref_sending]
  exact (bufferPoolPeek_frame h).2.2.2.2

lemma ioNew_data (h : bufferPoolPeek mem s = some (b, t)) {x : ℕ} (hx : x ≠ b) :
    ((ioNew mem s).bufs x).data = (s.bufs x).data := by
  simp only [ioNew, h, bufferUnref_data, IoSys.setIo_bufs]
  simp only [IoSys.setBuf, Function.update_of_ne hx, bufferRef]
  exact bufferPoolPeek_data h hx

end

/-- A round of the walk of `obus_server_send_peers`. -/
def sendPeerBuffer (mem : Bool) (answers : List WriteResult) (i b : ℕ) (s : IoSys) : IoSys :=
  match ioWrite mem answers i b s with
  | (.again, s) => bufferRef b s
  | (.error, s) => ioLeave i s
  | (.ok, s) => s

/-- The end of `obus_peer_send_connection_response`, `obus_server_send_ack`, `obus_client_call` and
`obus_client_send_connection_request`: a buffer in the list keeps the reference of the operation. -/
def sendOneBuffer (mem : Bool) (answers : List WriteResult) (i b : ℕ) (s : IoSys) : IoSys :=
  match ioWrite mem answers i b s with
  | (.again, s) => s
  | (_, s) => bufferUnref b s

/-- `obus_packet_decoder_destroy`. -/
def decoderDestroy (i b : ℕ) (s : IoSys) : IoSys :=
  let s := s.setBuf b ⟨[], (s.bufs b).refcnt⟩
  let s := bufferUnref b s
  s.setIo i { s.ios i with decoder := none }

/-- Io `i` exists and was not destroyed. -/
abbrev IoSys.Live (s : IoSys) (i : ℕ) : Prop := i < s.nIos ∧ (s.ios i).alive = true

/-- A step.  The loop calls back ios that are in it, and none from within a callback. -/
def ioStep (s : IoSys) : IoStep → Option IoSys
  | .accept mem => some (ioNew mem s)
  | .receive i bytes =>
    match (s.ios i).decoder with
    | some b => if s.Live i then some (s.setBuf b ⟨bytes, (s.bufs b).refcnt⟩) else none
    | none => none
  | .peek mem =>
    match bufferPoolPeek mem s with
    | none => some s
    | some (b, s) => some { s with drafts := b :: s.drafts }
  | .encode b bytes =>
    if b ∈ s.drafts then
      some { s.setBuf b ⟨bytes, (s.bufs b).refcnt⟩ with
        drafts := s.drafts.erase b, sending := b :: s.sending }
    else none
  | .sendPeer b i mem answers =>
    if b ∈ s.sending ∧ s.Live i ∧ (s.ios i).leaving = false
      then some (sendPeerBuffer mem answers i b s) else none
  | .sendOne b i mem answers =>
    if b ∈ s.sending ∧ s.Live i then
      some (sendOneBuffer mem answers i b { s with sending := s.sending.erase b })
    else none
  | .release b =>
    if b ∈ s.drafts then some (bufferUnref b { s with drafts := s.drafts.erase b })
    else if b ∈ s.sending then some (bufferUnref b { s with sending := s.sending.erase b })
    else none
  | .writeEvents i events answers =>
    if s.Live i ∧ (s.ios i).leaving = false then some (ioWriteEvents events answers i s) else none
  | .writeTimeout i =>
    if s.Live i ∧ (s.ios i).leaving = false then some (ioWriteTimer i s) else none
  | .leave i => if s.Live i ∧ (s.ios i).leaving = false then some (ioLeave i s) else none
  | .closeDecoder i =>
    match (s.ios i).decoder with
    | some b => if i < s.nIos ∧ (s.ios i).leaving = true then some (decoderDestroy i b s) else none
    | none => none
  | .destroy i => if s.Live i ∧ (s.ios i).leaving = true then some (ioDestroy i s) else none

/-- The steps that are possible, with what they need and what they do. -/
inductive IoStepped (s : IoSys) : IoStep → IoSys → Prop
  | accept (mem : Bool) : IoStepped s (.accept mem) (ioNew mem s)
  | receive {i b : ℕ} (bytes : List UInt8) (hdecoder : (s.ios i).decoder = some b)
    (hlive : s.Live i) :
    IoStepped s (.receive i bytes) (s.setBuf b ⟨bytes, (s.bufs b).refcnt⟩)
  | peekNone (mem : Bool) : IoStepped s (.peek mem) s
  | peek {mem : Bool} {b : ℕ} {t : IoSys} (hpeek : bufferPoolPeek mem s = some (b, t)) :
    IoStepped s (.peek mem) { t with drafts := b :: t.drafts }
  | encode {b : ℕ} (bytes : List UInt8) (hb : b ∈ s.drafts) : IoStepped s (.encode b bytes)
    { s.setBuf b ⟨bytes, (s.bufs b).refcnt⟩ with
      drafts := s.drafts.erase b, sending := b :: s.sending }
  | sendPeer {b i : ℕ} (mem : Bool) (answers : List WriteResult) (hb : b ∈ s.sending)
    (hlive : s.Live i)
    (hstays : (s.ios i).leaving = false) :
    IoStepped s (.sendPeer b i mem answers) (sendPeerBuffer mem answers i b s)
  | sendOne {b i : ℕ} (mem : Bool) (answers : List WriteResult) (hb : b ∈ s.sending)
    (hlive : s.Live i) :
    IoStepped s (.sendOne b i mem answers)
      (sendOneBuffer mem answers i b { s with sending := s.sending.erase b })
  | releaseDraft {b : ℕ} (hb : b ∈ s.drafts) :
    IoStepped s (.release b) (bufferUnref b { s with drafts := s.drafts.erase b })
  | release {b : ℕ} (hb : b ∈ s.sending) :
    IoStepped s (.release b) (bufferUnref b { s with sending := s.sending.erase b })
  | writeEvents {i : ℕ} (events : FdEvents) (answers : List WriteResult) (hlive : s.Live i)
    (hstays : (s.ios i).leaving = false) :
    IoStepped s (.writeEvents i events answers) (ioWriteEvents events answers i s)
  | writeTimeout {i : ℕ} (hlive : s.Live i) (hstays : (s.ios i).leaving = false) :
    IoStepped s (.writeTimeout i) (ioWriteTimer i s)
  | leave {i : ℕ} (hlive : s.Live i) (hstays : (s.ios i).leaving = false) : IoStepped s (.leave i)
    (ioLeave i s)
  | closeDecoder {i b : ℕ} (hdecoder : (s.ios i).decoder = some b) (hi : i < s.nIos)
    (hleaves : (s.ios i).leaving = true) : IoStepped s (.closeDecoder i) (decoderDestroy i b s)
  | destroy {i : ℕ} (hlive : s.Live i) (hleaves : (s.ios i).leaving = true) :
    IoStepped s (.destroy i) (ioDestroy i s)

lemma ioStep_cases {s s' : IoSys} {a : IoStep} (h : ioStep s a = some s') : IoStepped s a s' := by
  cases a with
  | accept mem =>
    cases h
    exact .accept mem
  | receive i bytes =>
    simp only [ioStep] at h
    split at h
    · split at h
      · next hdecoder hlive =>
        cases h
        exact .receive bytes hdecoder hlive
      · cases h
    · cases h
  | peek mem =>
    simp only [ioStep] at h
    split at h
    · cases h
      exact .peekNone mem
    · next hpeek =>
      cases h
      exact .peek hpeek
  | encode b bytes =>
    obtain ⟨hb, heq⟩ := Option.ite_none_right_eq_some.mp h
    cases heq
    exact .encode bytes hb
  | sendPeer b i mem answers =>
    obtain ⟨⟨hb, hlive, hstays⟩, heq⟩ := Option.ite_none_right_eq_some.mp h
    cases heq
    exact .sendPeer mem answers hb hlive hstays
  | sendOne b i mem answers =>
    obtain ⟨⟨hb, hlive⟩, heq⟩ := Option.ite_none_right_eq_some.mp h
    cases heq
    exact .sendOne mem answers hb hlive
  | release b =>
    simp only [ioStep] at h
    split at h
    · next hb =>
      cases h
      exact .releaseDraft hb
    · obtain ⟨hb, heq⟩ := Option.ite_none_right_eq_some.mp h
      cases heq
      exact .release hb
  | writeEvents i events answers =>
    obtain ⟨⟨hlive, hstays⟩, heq⟩ := Option.ite_none_right_eq_some.mp h
    cases heq
    exact .writeEvents events answers hlive hstays
  | writeTimeout i =>
    obtain ⟨⟨hlive, hstays⟩, heq⟩ := Option.ite_none_right_eq_some.mp h
    cases heq
    exact .writeTimeout hlive hstays
  | leave i =>
    obtain ⟨⟨hlive, hstays⟩, heq⟩ := Option.ite_none_right_eq_some.mp h
    cases heq
    exact .leave hlive hstays
  | closeDecoder i =>
    simp only [ioStep] at h
    split at h
    · next hdecoder =>
      obtain ⟨⟨hi, hleaves⟩, heq⟩ := Option.ite_none_right_eq_some.mp h
      cases heq
      exact .closeDecoder hdecoder hi hleaves
    · cases h
  | destroy i =>
    obtain ⟨⟨hlive, hleaves⟩, heq⟩ := Option.ite_none_right_eq_some.mp h
    cases heq
    exact .destroy hlive hleaves

end Obus.Output
