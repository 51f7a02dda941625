import Obus.Buffer
import Obus.Lib.Run

/-!
# The loop

The two back-ends of the loop of descriptors.  The one for `poll` keeps its objects in a hash table
under their descriptors, the one for `epoll` in a list, where they are known by their addresses.  A
round polls the objects, and then goes through the events; callbacks are called on the way, which
may add and remove objects.  What they do, and what happens between two rounds, are actions of their
own; the answers of the kernel and of the allocator belong to the actions.

Each registration has a number, which the code does not have.  An event is looked up again under its
key before it is delivered, and in the meantime the key may have got a new registration.
`loop_correct_iff` says that this is the only way for an event to reach a wrong registration.
-/

namespace Obus

/-- `struct obus_fd`, without the data for its callback. -/
structure OFd where
  fd : ℤ
  events : ℕ
  cb : Bool
  /-- `loop` is not NULL. -/
  loop : Bool
  dupfd : ℤ

/-- A registration: the descriptor that is polled, the object, and a number. -/
structure Reg where
  fd : ℤ
  addr : ℕ
  serial : ℕ
  deriving DecidableEq

/-- What was polled for an object: nothing, something that is no event of the loop, or an event. -/
inductive Revents where
  | zero
  | unknown
  | events
  deriving DecidableEq

/-- An entry of the array of a round, with the registration that it is for. -/
structure Polled where
  reg : Reg
  revents : Revents

/-- The call of a callback: the registration that the event was reported for, and the one of the
object. -/
structure Delivery where
  polled : ℕ
  reached : ℕ
  deriving DecidableEq

/-- `struct obus_loop` with the objects, and the variables of `obus_loop_do_process`. -/
structure FdLoop where
  mem : ℕ → OFd
  /-- The objects in the loop, in the order of their registrations. -/
  regs : List Reg
  nfds : ℤ
  /-- The number of the next registration. -/
  fresh : ℕ
  running : Bool
  /-- The entries from the index `i` on. -/
  pending : List Polled
  i : ℤ
  j : ℤ
  ret : ℤ
  /-- The number of the next registration when the objects were polled. -/
  start : ℕ
  /-- What was delivered in the round. -/
  delivered : List Delivery
  /-- The array of entries was read behind its end. -/
  overrun : Bool

/-- The back-ends. -/
inductive Backend where
  | posix
  | epoll

/-- What an object is looked up by: its descriptor, or its address. -/
def Backend.key (b : Backend) (r : Reg) : ℤ :=
  match b with
  | .posix => r.fd
  | .epoll => r.addr

/-- The answers of `epoll_ctl` to a descriptor that is added. -/
inductive CtlAnswer where
  | ok
  | exist
  | failed (e : Errno)

/-- The answers to `obus_loop_add` and `obus_loop_remove`: of the allocator of hash entries, of
`dup`, and of `epoll_ctl`. -/
structure Answers where
  mem : Bool
  dup : Except Errno ℤ
  ctl : CtlAnswer
  ctlDup : Except Errno Unit
  ctlDel : Except Errno Unit

/-! ## Registrations -/

section Functions

variable (b : Backend) (answers : Answers) (a : ℕ) (s : FdLoop)

/-- An assignment to an object. -/
def FdLoop.setOFd (ofd : OFd) : FdLoop := { s with mem := Function.update s.mem a ofd }

/-- `obus_fd_init`. -/
def fdInit (fd : ℤ) (events : ℕ) (cb : Bool) : FdLoop := s.setOFd a ⟨fd, events, cb, false, -1⟩

/-- The registration under a key. -/
def FdLoop.lookup (key : ℤ) : Option Reg := s.regs.find? fun r => b.key r = key

/-- An object is added under a descriptor. -/
def loopRegister (fd : ℤ) : FdLoop :=
  { s.setOFd a { s.mem a with loop := true } with
    regs := s.regs ++ [⟨fd, a, s.fresh⟩], nfds := s.nfds + 1, fresh := s.fresh + 1 }

/-- An object is removed from under a key. -/
def loopUnregister (key : ℤ) : FdLoop :=
  { s.setOFd a { s.mem a with loop := false, dupfd := -1 } with
    regs := s.regs.eraseP fun r => b.key r = key, nfds := s.nfds - 1 }

/-- The descriptor that was duplicated is closed. -/
def closeDup : FdLoop := s.setOFd a { s.mem a with dupfd := -1 }

/-- `obus_hash_insert` in `obus_loop_add`, and what follows. -/
def posixInsert (fd : ℤ) : Except Errno Unit × FdLoop :=
  if (s.lookup .posix fd).isSome then (.error .eexist, closeDup a s)
  else if answers.mem then (.ok (), loopRegister a s fd)
  else (.error .enomem, closeDup a s)

/-- `obus_loop_add` of the back-end for `poll`. -/
def posixAdd : Except Errno Unit × FdLoop :=
  let ofd := s.mem a
  if ofd.fd < 0 ∨ ofd.events = 0 ∨ ofd.cb = false then (.error .einval, s)
  else if ofd.loop then (.error .eexist, s)
  else
    match s.lookup .posix ofd.fd with
    | some _ =>
      match answers.dup with
      | .error e => (.error e, s)
      | .ok d => posixInsert answers a (s.setOFd a { ofd with dupfd := d }) d
    | none => posixInsert answers a s ofd.fd

/-- `obus_loop_add` of the back-end for `epoll`. -/
def epollAdd : Except Errno Unit × FdLoop :=
  let ofd := s.mem a
  if ofd.fd < 0 ∨ ofd.events = 0 ∨ ofd.cb = false then (.error .einval, s)
  else if ofd.loop then (.error .eexist, s)
  else if (s.lookup .epoll a).isSome then (.error .eexist, s)
  else
    match answers.ctl with
    | .ok => (.ok (), loopRegister a s ofd.fd)
    | .failed e => (.error e, closeDup a s)
    | .exist =>
      match answers.dup with
      | .error e => (.error e, s)
      | .ok d =>
        match answers.ctlDup with
        | .error e => (.error e, closeDup a (s.setOFd a { ofd with dupfd := d }))
        | .ok () => (.ok (), loopRegister a (s.setOFd a { ofd with dupfd := d }) d)

/-- `obus_loop_remove` of the back-end for `poll`. -/
def posixRemove : Except Errno Unit × FdLoop :=
  let ofd := s.mem a
  let fd := if ofd.dupfd ≠ -1 then ofd.dupfd else ofd.fd
  if (s.lookup .posix fd).isSome then (.ok (), loopUnregister .posix a s fd)
    else (.error .enoent, s)

/-- `obus_loop_remove` of the back-end for `epoll`. -/
def epollRemove : Except Errno Unit × FdLoop :=
  if (s.lookup .epoll a).isSome then
    match answers.ctlDel with
    | .error e => (.error e, s)
    | .ok () => (.ok (), loopUnregister .epoll a s a)
  else (.error .enoent, s)

/-- `obus_loop_add`. -/
def loopAdd : Except Errno Unit × FdLoop :=
  match b with
  | .posix => posixAdd answers a s
  | .epoll => epollAdd answers a s

/-- `obus_loop_remove`. -/
def loopRemove : Except Errno Unit × FdLoop :=
  match b with
  | .posix => posixRemove a s
  | .epoll => epollRemove answers a s

end Functions

/-! ## Rounds -/

/-- The number of entries for which something was polled, which `poll` and `epoll_wait` return. -/
def readyCount (polled : List Polled) : ℕ := polled.countP fun e => e.revents ≠ .zero

/-- What may be polled.  `poll` fills in an entry for each object in the array, in its order;
`epoll_wait` gives an entry for some of the objects, in any order, and only for those with events.
-/
def CanPoll (b : Backend) (s : FdLoop) (polled : List Polled) : Prop :=
  match b with
  | .posix => polled.map Polled.reg = s.regs.take s.nfds.toNat
  | .epoll => (polled.map Polled.reg).Nodup ∧ (∀ e ∈ polled, e.reg ∈ s.regs ∧ e.revents ≠ .zero) ∧
      (polled.length : ℤ) ≤ s.nfds

instance : ∀ (b : Backend) (s : FdLoop) (polled : List Polled), Decidable (CanPoll b s polled)
  | .posix, s, polled =>
    inferInstanceAs (Decidable (polled.map Polled.reg = s.regs.take s.nfds.toNat))
  | .epoll, s, polled => inferInstanceAs (Decidable ((polled.map Polled.reg).Nodup ∧
      (∀ e ∈ polled, e.reg ∈ s.regs ∧ e.revents ≠ .zero) ∧ (polled.length : ℤ) ≤ s.nfds))

/-- The begin of `obus_loop_do_process`, up to the loop. -/
def loopPoll (polled : List Polled) (s : FdLoop) : FdLoop :=
  { s with
    running := true, pending := polled, i := 0, j := 0, ret := readyCount polled, start := s.fresh,
      delivered := [] }

/-- An event is delivered to the object under its key. -/
def loopDeliver (b : Backend) (e : Polled) (s : FdLoop) : FdLoop :=
  match s.lookup b (b.key e.reg) with
  | none => s
  | some r => { s with delivered := s.delivered ++ [⟨e.reg.serial, r.serial⟩] }

/-- An iteration of the loop of `obus_loop_do_process`, or its end. -/
def loopNext (b : Backend) (s : FdLoop) : FdLoop :=
  if s.i < s.nfds ∧ s.j < s.ret then
    match s.pending with
    | [] => { s with overrun := true, running := false }
    | e :: rest =>
      match e.revents with
      | .zero => { s with pending := rest, i := s.i + 1 }
      | .unknown => { s with pending := rest, i := s.i + 1, j := s.j + 1 }
      | .events => loopDeliver b e { s with pending := rest, i := s.i + 1, j := s.j + 1 }
  else { s with running := false, pending := [] }

/-- What happens: an object is initialised, added or removed, by a callback or between two rounds,
or a round goes on. -/
inductive LoopAction where
  | init (a : ℕ) (fd : ℤ) (events : ℕ) (cb : Bool)
  | add (answers : Answers) (a : ℕ)
  | remove (answers : Answers) (a : ℕ)
  | poll (polled : List Polled)
  | next

/-- One action, where it is possible. -/
def loopStep (b : Backend) (s : FdLoop) (action : LoopAction) : Option FdLoop :=
  match action with
  | .init a fd events cb => some (fdInit a s fd events cb)
  | .add answers a => some (loopAdd b answers a s).2
  | .remove answers a => some (loopRemove b answers a s).2
  | .poll polled =>
    if s.running = false ∧ CanPoll b s polled then some (loopPoll polled s) else none
  | .next => if s.running then some (loopNext b s) else none

/-- A loop without objects. -/
def loopNew : FdLoop :=
  ⟨fun _ => ⟨-1, 0, false, false, -1⟩, [], 0, 0, false, [], 0, 0, 0, 0, [], false⟩

/-- The counter is the number of registrations, the array is read within its bounds, and in the
round so far each event has been delivered at most once, and to the registration that it was
reported for. -/
structure FdLoop.Correct (s : FdLoop) : Prop where
  nfds : s.nfds = s.regs.length
  once : (s.delivered.map Delivery.polled).Nodup
  right : ∀ d ∈ s.delivered, d.reached = d.polled
  overrun : s.overrun = false

/-- The event that is next does not meet, under its key, a registration that was made after the
objects were polled. -/
def NoReuse (b : Backend) (s : FdLoop) : LoopAction → Prop
  | .next => s.i < s.nfds → s.j < s.ret → ∀ e rest, s.pending = e :: rest → e.revents = .events →
      ∀ r ∈ s.regs, b.key r = b.key e.reg → r.serial < s.start
  | _ => True

/-! ## What an action does -/

section Actions

variable {b : Backend} {answers : Answers} {a : ℕ} {s : FdLoop}

/-- The objects are written to only. -/
def OnlyMem (s s' : FdLoop) : Prop := ∃ mem, s' = { s with mem := mem }

/-- An object gets a registration, under a key that has none. -/
def Registers (b : Backend) (s s' : FdLoop) : Prop :=
  ∃ mem r, r.serial = s.fresh ∧ (∀ r' ∈ s.regs, b.key r' ≠ b.key r) ∧
    s' = { s with mem := mem, regs := s.regs ++ [r], nfds := s.nfds + 1, fresh := s.fresh + 1 }

/-- The registration under a key is removed. -/
def Unregisters (b : Backend) (s s' : FdLoop) : Prop :=
  ∃ mem key, (∃ r ∈ s.regs, b.key r = key) ∧
    s' = { s with mem := mem, regs := s.regs.eraseP fun r => b.key r = key, nfds := s.nfds - 1 }

lemma lookup_isSome {key : ℤ} : (s.lookup b key).isSome = true ↔ ∃ r ∈ s.regs, b.key r = key := by
  rw [FdLoop.lookup, List.find?_isSome]
  simp only [decide_eq_true_eq]

lemma posixInsert_cases {fd : ℤ} {mem : ℕ → OFd} :
    OnlyMem s (posixInsert answers a { s with mem := mem } fd).2 ∨
    Registers .posix s (posixInsert answers a { s with mem := mem } fd).2 := by
  unfold posixInsert
  split_ifs with hfound hmem
  · exact Or.inl ⟨_, rfl⟩
  · refine Or.inr ⟨_, ⟨fd, a, s.fresh⟩, rfl, fun r' hr' hkey => hfound ?_, rfl⟩
    exact lookup_isSome.mpr ⟨r', hr', hkey⟩
  · exact Or.inl ⟨_, rfl⟩

/-- `obus_loop_add` registers the object, or not. -/
lemma loopAdd_cases : OnlyMem s (loopAdd b answers a s).2 ∨
    Registers b s (loopAdd b answers a s).2 := by
  cases b with
  | posix =>
    change OnlyMem s (posixAdd answers a s).2 ∨ Registers .posix s (posixAdd answers a s).2
    unfold posixAdd
    simp only
    split_ifs
    · exact Or.inl ⟨_, rfl⟩
    · exact Or.inl ⟨_, rfl⟩
    · split
      · split
        · exact Or.inl ⟨_, rfl⟩
        · exact posixInsert_cases
      · exact posixInsert_cases
  | epoll =>
    change OnlyMem s (epollAdd answers a s).2 ∨ Registers .epoll s (epollAdd answers a s).2
    unfold epollAdd
    simp only
    split_ifs with _ _ hfound
    · exact Or.inl ⟨_, rfl⟩
    · exact Or.inl ⟨_, rfl⟩
    · exact Or.inl ⟨_, rfl⟩
    · have hnew : ∀ r' ∈ s.regs, Backend.epoll.key r' ≠ (a : ℤ) := fun r' hr' hkey =>
        hfound (lookup_isSome.mpr ⟨r', hr', hkey⟩)
      split
      · exact Or.inr ⟨_, ⟨(s.mem a).fd, a, s.fresh⟩, rfl, hnew, rfl⟩
      · exact Or.inl ⟨_, rfl⟩
      · split
        · exact Or.inl ⟨_, rfl⟩
        · next d _ =>
          split
          · exact Or.inl ⟨_, rfl⟩
          · exact Or.inr ⟨_, ⟨d, a, s.fresh⟩, rfl, hnew, rfl⟩

/-- `obus_loop_remove` removes a registration, or not. -/
lemma loopRemove_cases : OnlyMem s (loopRemove b answers a s).2 ∨
    Unregisters b s (loopRemove b answers a s).2 := by
  cases b with
  | posix =>
    change OnlyMem s (posixRemove a s).2 ∨ Unregisters .posix s (posixRemove a s).2
    unfold posixRemove
    simp only
    split_ifs with _ hfound hfound
    · exact Or.inr ⟨_, _, lookup_isSome.mp hfound, rfl⟩
    · exact Or.inl ⟨_, rfl⟩
    · exact Or.inr ⟨_, _, lookup_isSome.mp hfound, rfl⟩
    · exact Or.inl ⟨_, rfl⟩
  | epoll =>
    change OnlyMem s (epollRemove answers a s).2 ∨ Unregisters .epoll s (epollRemove answers a s).2
    unfold epollRemove
    split_ifs with hfound
    · split
      · exact Or.inl ⟨_, rfl⟩
      · exact Or.inr ⟨_, _, lookup_isSome.mp hfound, rfl⟩
    · exact Or.inl ⟨_, rfl⟩

end Actions

/-! ## The invariant -/

/-- What holds before and after each action: keys and numbers are distinct, the entries that are
left are for different registrations, all from before the round, and what has been registered since
then under the key of an entry is the only thing under that key that can be something else. -/
structure Sound (b : Backend) (s : FdLoop) : Prop where
  nfds : s.nfds = s.regs.length
  keys : (s.regs.map b.key).Nodup
  serials : (s.regs.map Reg.serial).Nodup
  fresh : ∀ r ∈ s.regs, r.serial < s.fresh
  start : s.start ≤ s.fresh
  polled : ∀ e ∈ s.pending, e.reg.serial < s.start
  kept : ∀ e ∈ s.pending, ∀ r ∈ s.regs, b.key r = b.key e.reg → r.serial < s.start →
  r.serial = e.reg.serial
  once : (s.delivered.map Delivery.polled ++ s.pending.map (·.reg.serial)).Nodup
  right : ∀ d ∈ s.delivered, d.reached = d.polled
  count : s.running = true → (readyCount s.pending : ℤ) = s.ret - s.j
  overrun : s.overrun = false

section Invariant

variable {b : Backend} {s s' : FdLoop}

lemma sound_new : Sound b loopNew := by
  constructor <;> simp [loopNew]

lemma Sound.correct (h : Sound b s) : s.Correct :=
  ⟨h.nfds, (List.nodup_append.mp h.once).1, h.right, h.overrun⟩

/-- What is found under the key of a registration is the registration. -/
lemma Sound.lookup_key (h : Sound b s) {r : Reg} (hr : r ∈ s.regs) :
    s.lookup b (b.key r) = some r := by
  obtain ⟨r', hfound⟩ := Option.isSome_iff_exists.mp (lookup_isSome.mpr ⟨r, hr, rfl⟩)
  have hr' : r' ∈ s.regs := List.mem_of_find?_eq_some hfound
  have hkey : b.key r' = b.key r := by simpa using List.find?_some hfound
  have heq : r' = r := List.inj_on_of_nodup_map h.keys hr' hr hkey
  rw [hfound, heq]

lemma OnlyMem.sound (h : Sound b s) (hmem : OnlyMem s s') : Sound b s' := by
  obtain ⟨mem, rfl⟩ := hmem
  exact ⟨h.nfds, h.keys, h.serials, h.fresh, h.start, h.polled, h.kept, h.once, h.right, h.count,
    h.overrun⟩

/-- A new registration has a number that is not below the start of the round. -/
lemma Registers.sound (h : Sound b s) (hadd : Registers b s s') : Sound b s' := by
  obtain ⟨mem, r, hserial, hkey, rfl⟩ := hadd
  have hsplit : ∀ r' ∈ s.regs ++ [r], r' ∈ s.regs ∨ r' = r := fun r' hr' => by
    simpa using hr'
  refine ⟨?_, ?_, ?_, ?_, ?_, h.polled, ?_, h.once, h.right, h.count, h.overrun⟩
  · have hnfds := h.nfds
    simp only [List.length_append, List.length_singleton]
    omega
  · rw [List.map_append]
    refine h.keys.append (List.nodup_singleton _) ?_
    simpa [List.disjoint_singleton] using hkey
  · rw [List.map_append]
    refine h.serials.append (List.nodup_singleton _) ?_
    have hnew : ∀ r' ∈ s.regs, r'.serial ≠ r.serial := fun r' hr' => by
      have hold := h.fresh r' hr'
      omega
    simpa [List.disjoint_singleton] using hnew
  · intro r' hr'
    obtain hold | rfl := hsplit r' hr'
    · have hfresh := h.fresh r' hold
      change r'.serial < s.fresh + 1
      omega
    · exact hserial ▸ Nat.lt_succ_self s.fresh
  · have hstart := h.start
    change s.start ≤ s.fresh + 1
    omega
  · intro e he r' hr' hkey' hbefore
    obtain hold | rfl := hsplit r' hr'
    · exact h.kept e he r' hold hkey' hbefore
    · have hstart := h.start
      have hafter : s.start ≤ r'.serial := hserial ▸ hstart
      exact absurd hbefore (Nat.not_lt.mpr hafter)

lemma Unregisters.sound (h : Sound b s) (hremove : Unregisters b s s') : Sound b s' := by
  obtain ⟨mem, key, ⟨r, hr, hkey⟩, rfl⟩ := hremove
  have hsub : List.Sublist (s.regs.eraseP fun r => b.key r = key) s.regs := List.eraseP_sublist
  refine ⟨?_, h.keys.sublist (hsub.map _), h.serials.sublist (hsub.map _), fun r' hr' => h.fresh r'
    (hsub.subset hr'),
    h.start, h.polled, fun e he r' hr' => h.kept e he r' (hsub.subset hr'), h.once, h.right,
      h.count, h.overrun⟩
  have hnfds := h.nfds
  have hlength := List.length_eraseP_add_one (p := fun r => decide (b.key r = key)) hr
    (by simpa using hkey)
  change s.nfds - 1 = ((s.regs.eraseP fun r => decide (b.key r = key)).length : ℤ)
  omega

/-- The registrations of the entries of a round are different ones of the loop. -/
lemma CanPoll.entries {polled : List Polled} (h : Sound b s) (hpoll : CanPoll b s polled) :
    (∀ e ∈ polled, e.reg ∈ s.regs) ∧ (polled.map (·.reg.serial)).Nodup := by
  have hserial : polled.map (·.reg.serial) = (polled.map Polled.reg).map Reg.serial := by
    rw [List.map_map]
    rfl
  rw [hserial]
  cases b with
  | posix =>
    have hpoll : polled.map Polled.reg = s.regs.take s.nfds.toNat := hpoll
    have hsub : List.Sublist (polled.map Polled.reg) s.regs := hpoll ▸ List.take_sublist _ _
    exact ⟨fun e he => hsub.subset (List.mem_map_of_mem he), h.serials.sublist (hsub.map _)⟩
  | epoll =>
    obtain ⟨hdistinct, hmem, -⟩ := hpoll
    refine ⟨fun e he => (hmem e he).1, hdistinct.map_on fun r hr r' hr' heq => ?_⟩
    obtain ⟨e, he, rfl⟩ := List.mem_map.mp hr
    obtain ⟨e', he', rfl⟩ := List.mem_map.mp hr'
    exact List.inj_on_of_nodup_map h.serials (hmem e he).1 (hmem e' he').1 heq

lemma loopPoll_sound {polled : List Polled} (h : Sound b s) (hpoll : CanPoll b s polled) :
    Sound b (loopPoll polled s) := by
  obtain ⟨hmem, hdistinct⟩ := hpoll.entries h
  refine ⟨h.nfds, h.keys, h.serials, h.fresh, le_refl _, fun e he => h.fresh _ (hmem e he), ?_,
    hdistinct,
    fun d hd => absurd hd List.not_mem_nil, fun _ => ?_, h.overrun⟩
  · intro e he r hr hkey _
    rw [List.inj_on_of_nodup_map h.keys hr (hmem e he) hkey]
  · simp [loopPoll]

/-- An entry is passed over. -/
lemma Sound.pass (h : Sound b s) {e : Polled} {rest : List Polled}
    (hpending : s.pending = e :: rest) (i : ℤ) {j : ℤ}
    (hj : s.running = true → (readyCount rest : ℤ) = s.ret - j) :
    Sound b { s with pending := rest, i := i, j := j } := by
  have hsub : List.Sublist rest s.pending := hpending ▸ List.sublist_cons_self e rest
  refine ⟨h.nfds, h.keys, h.serials, h.fresh, h.start, fun e he => h.polled e (hsub.subset he),
    fun e he => h.kept e (hsub.subset he), ?_, h.right, hj, h.overrun⟩
  exact h.once.sublist ((List.Sublist.refl _).append (hsub.map _))

/-- An entry is delivered, to the registration that it is for. -/
lemma Sound.deliver (h : Sound b s) {e : Polled} {rest : List Polled}
    (hpending : s.pending = e :: rest) (i : ℤ) {j : ℤ}
    (hj : s.running = true → (readyCount rest : ℤ) = s.ret - j) {r : Reg}
    (hr : r.serial = e.reg.serial) :
    Sound b
      { s with
        pending := rest, i := i, j := j, delivered := s.delivered ++
          [⟨e.reg.serial, r.serial⟩] } := by
  have hpass := h.pass hpending i hj
  refine ⟨hpass.nfds, hpass.keys, hpass.serials, hpass.fresh, hpass.start, hpass.polled, hpass.kept,
    ?_, ?_, hpass.count,
    hpass.overrun⟩
  · have honce := h.once
    rw [hpending] at honce
    simpa using honce
  · intro d hd
    rcases List.mem_append.mp hd with hd | hd
    · exact h.right d hd
    · rw [List.mem_singleton.mp hd]
      exact hr

lemma readyCount_cons {e : Polled} {rest : List Polled} :
    readyCount (e :: rest) = readyCount rest + if e.revents = .zero then 0 else 1 := by
  rw [readyCount, List.countP_cons, readyCount]
  split_ifs <;> simp_all

/-- Where no registration was made anew under the key of an entry, the entry is delivered to its own
registration, if at all. -/
lemma loopNext_sound (h : Sound b s) (hrunning : s.running = true) (hreuse : NoReuse b s .next) :
    Sound b (loopNext b s) := by
  have hcount := h.count hrunning
  unfold loopNext
  split_ifs with hloop
  · split
    · next hpending =>
      -- there is an entry as long as something is left that was polled
      rw [hpending] at hcount
      simp only [readyCount, List.countP_nil] at hcount
      omega
    · next e rest hpending =>
      rw [hpending, readyCount_cons] at hcount
      split
      · next hrevents =>
        refine h.pass hpending _ fun _ => ?_
        simpa [hrevents] using hcount
      · next hrevents =>
        refine h.pass hpending _ fun _ => ?_
        simp only [hrevents, reduceCtorEq, if_false] at hcount
        omega
      · next hrevents =>
        have hj : s.running = true → (readyCount rest : ℤ) = s.ret - (s.j + 1) := fun _ => by
          simp only [hrevents, reduceCtorEq, if_false] at hcount
          omega
        unfold loopDeliver
        split
        · exact h.pass hpending _ hj
        · next r hfound =>
          have hr : r ∈ s.regs := List.mem_of_find?_eq_some hfound
          have hkey : b.key r = b.key e.reg := by simpa using List.find?_some hfound
          have hbefore := hreuse hloop.1 hloop.2 e rest hpending hrevents r hr hkey
          have he : e ∈ s.pending := hpending ▸ List.mem_cons_self
          exact h.deliver hpending _ hj (h.kept e he r hr hkey hbefore)
  · refine ⟨h.nfds, h.keys, h.serials, h.fresh, h.start, fun e he => absurd he List.not_mem_nil,
      fun e he => absurd he List.not_mem_nil, ?_, h.right,
        fun hrun => absurd hrun Bool.false_ne_true, h.overrun⟩
    have honce := (List.nodup_append.mp h.once).1
    simpa using honce

/-- An event that meets a registration that was made anew under its key is delivered to it. -/
lemma loopNext_not_correct (h : Sound b s) (hreuse : ¬NoReuse b s .next) :
    ¬(loopNext b s).Correct := by
  simp only [NoReuse, not_forall, Nat.not_lt] at hreuse
  obtain ⟨hi, hj, e, rest, hpending, hrevents, r, hr, hkey, hafter⟩ := hreuse
  have hbefore : e.reg.serial < s.start := h.polled e (hpending ▸ List.mem_cons_self)
  have hfound : s.lookup b (b.key e.reg) = some r := hkey ▸ h.lookup_key hr
  have hdelivered : (⟨e.reg.serial, r.serial⟩ : Delivery) ∈ (loopNext b s).delivered := by
    have hfound' : FdLoop.lookup b { s with pending := rest, i := s.i + 1, j := s.j + 1 }
        (b.key e.reg) = some r := hfound
    simp [loopNext, hi, hj, hpending, hrevents, loopDeliver, hfound']
  intro hcorrect
  have heq : r.serial = e.reg.serial := hcorrect.right _ hdelivered
  omega

lemma loopStep_sound {action : LoopAction} (h : Sound b s) (hreuse : NoReuse b s action)
    (hstep : loopStep b s action = some s') : Sound b s' := by
  cases action with
  | init a fd events cb =>
    cases hstep
    exact OnlyMem.sound h ⟨_, rfl⟩
  | add answers a =>
    cases hstep
    exact (loopAdd_cases).elim (OnlyMem.sound h) (Registers.sound h)
  | remove answers a =>
    cases hstep
    exact (loopRemove_cases).elim (OnlyMem.sound h) (Unregisters.sound h)
  | poll polled =>
    obtain ⟨hpoll, hs⟩ := Option.ite_none_right_eq_some.mp hstep
    cases hs
    exact loopPoll_sound h hpoll.2
  | next =>
    obtain ⟨hrunning, hs⟩ := Option.ite_none_right_eq_some.mp hstep
    cases hs
    exact loopNext_sound h hrunning hreuse

end Invariant

/-- In a run each event is delivered at most once, only to the registration that it was reported
for, while that one is there, and the counter is right throughout, exactly if no event meets a
registration that was made anew under its key in the round. -/
theorem loop_correct_iff (b : Backend) {actions : List LoopAction} {s : FdLoop}
    (hrun : runs (loopStep b) actions loopNew = some s) :
    Always (loopStep b) FdLoop.Correct actions loopNew ↔
    MeetsAll (loopStep b) (NoReuse b) actions loopNew := by
  refine always_iff_meetsAll (I := Sound b) (fun _ => Sound.correct)
    (fun _ _ _ => loopStep_sound) ?_ sound_new hrun
  intro s action s' h hreuse hstep
  cases action with
  | next =>
    obtain ⟨-, hs⟩ := Option.ite_none_right_eq_some.mp hstep
    cases hs
    exact loopNext_not_correct h hreuse
  | init | add | remove | poll => exact absurd trivial hreuse

/-- The answers where nothing fails and no descriptor is in `epoll` already. -/
def answersOk : Answers := ⟨true, .error .enomem, .ok, .ok (), .ok ()⟩

/-- Two objects are ready in one round.  Before it comes to the second one it is removed, and an
object is added under its descriptor, at an address. -/
def reuseRun (a : ℕ) : List LoopAction :=
  [.init 1 5 1 true, .add answersOk 1, .init 2 6 1 true, .add answersOk 2,
    .poll [⟨⟨5, 1, 0⟩, .events⟩, ⟨⟨6, 2, 1⟩, .events⟩], .next, .remove answersOk 2,
      .init a 6 1 true, .add answersOk a, .next]

theorem loop_correct_iff_other : ∃ s, runs (loopStep .epoll) (reuseRun 3) loopNew = some s ∧
    (Always (loopStep .epoll) FdLoop.Correct (reuseRun 3) loopNew ↔
      MeetsAll (loopStep .epoll) (NoReuse .epoll) (reuseRun 3) loopNew) :=
  ⟨_, rfl, loop_correct_iff .epoll rfl⟩

/-- The removed registration had the number 1, the one that gets its event has the number 2. -/
theorem not_loop_correct : (¬∀ actions s, runs (loopStep .posix) actions loopNew = some s →
      Always (loopStep .posix) FdLoop.Correct actions loopNew) ∧
    ¬∀ actions s, runs (loopStep .epoll) actions loopNew = some s →
      Always (loopStep .epoll) FdLoop.Correct actions loopNew := by
  constructor
  · intro h
    have hcorrect := h (reuseRun 3) _ rfl (reuseRun 3) (List.prefix_refl _) _ rfl
    exact absurd (hcorrect.right ⟨1, 2⟩ (by decide)) (by decide)
  · intro h
    have hcorrect := h (reuseRun 2) _ rfl (reuseRun 2) (List.prefix_refl _) _ rfl
    exact absurd (hcorrect.right ⟨1, 2⟩ (by decide)) (by decide)

end Obus
