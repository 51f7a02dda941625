import Mathlib
import Obus.Lib.Run

/-!
# The sockets of a server

A server listens on any number of addresses, with a `struct obus_socket_server` for each of them:
its descriptor, its registration in the loop, the timer with which it tries to bind again, and its
peers.  The kernel gives the descriptors, and decides how each call goes; a timer that is there, and
the loop when something is removed from it, do not fail.  The descriptors that other parts of the
server open are left out: that of the loop itself and the duplicates that it makes, and the write
timer of each peer.

Each accepted connection has a peer of its socket server and one of the server, in a list of each.
When the server is destroyed it destroys its own peers first, and a socket server that still has a
peer would refuse to go; `sockets_conserved` says that none has, and that in every state the sockets
and the bind timers that are open are those that are in use.

A server whose address is not there yet tries again when its timer expires.  It does not try again
after other errors, nor after an error event, and one whose timer could not be made is not there at
all although the start succeeds; `listens_iff` says that these are the only ways in which a started
server stops listening.
-/

namespace Obus

/-- The kernel gives a descriptor that is not open. -/
structure Kernel where
  pick : List ℕ → ℕ
  fresh : ∀ opened, pick opened ∉ opened

/-- `struct obus_socket_server`. -/
structure SocketServer where
  /-- `addr` is an address of the family `AF_INET` or `AF_INET6`. -/
  ip : Bool
  /-- `sock.fd`; `none` is -1. -/
  fd : Option ℕ := none
  /-- `sock.ofd` is registered in the loop. -/
  used : Bool := false
  /-- The descriptor of the bind timer. -/
  timer : ℕ
  /-- The bind timer is set. -/
  armed : Bool := false
  /-- The descriptors of the peers. -/
  peers : List ℕ := []

/-- How `obus_socket_server_bind` goes: without a socket, with one that cannot be set up, with an
address that is not available, with another error of `bind`, of `listen` or of `obus_loop_add`, or
without an error. -/
inductive SocketBinding where
  | noSocket
  | notSet
  | unavailable
  | notBound
  | notListening
  | notAdded
  | listening
  deriving DecidableEq

/-- How `obus_socket_server_new` goes: without memory, with an address that is not understood,
without a timer, or up to `obus_socket_server_bind`. -/
inductive Creation where
  | noMemory
  | badAddress
  | noTimer
  | bound (ip : Bool) (b : SocketBinding)
  deriving DecidableEq

/-- How a connection is accepted: it is not, or it is closed again, or there is a peer, which the
server keeps or not. -/
inductive Accepting where
  | failed
  | closed
  | accepted (kept : Bool)
  deriving DecidableEq

/-! ## A socket server -/

/-- A socket is opened. -/
def openSocket (k : Kernel) (s : SocketServer) (opened : List ℕ) : SocketServer × List ℕ :=
  ({ s with fd := some (k.pick opened) }, k.pick opened :: opened)

/-- The socket is closed. -/
def closeSocket (s : SocketServer) (opened : List ℕ) : SocketServer × List ℕ :=
  ({ s with fd := none }, s.fd.elim opened opened.erase)

/-- `obus_socket_server_bind`; whether it succeeds. -/
def socketServerBind (k : Kernel) (b : SocketBinding) (s : SocketServer) (opened : List ℕ) :
    Bool × SocketServer × List ℕ :=
  let (o, opened') := openSocket k s opened
  let (c, closed) := closeSocket o opened'
  match b with
  | .noSocket => (false, s, opened)
  | .notSet => (false, s, opened'.erase (k.pick opened))
  | .unavailable => if s.ip then (true, { c with armed := true }, closed) else (false, c, closed)
  | .notBound | .notListening | .notAdded => (false, c, closed)
  | .listening => (true, { o with used := true }, opened')

/-- `obus_socket_bind_timer_cb`. -/
def socketBindTimerCb (k : Kernel) (b : SocketBinding) (s : SocketServer) (opened : List ℕ) :
    SocketServer × List ℕ :=
  (socketServerBind k b { s with armed := false } opened).2

/-- `obus_socket_server_destroy`, which refuses a server with peers; whether it succeeds. -/
def socketServerDestroy (sk : Option SocketServer) (opened : List ℕ) : Bool × List ℕ :=
  match sk with
  | none => (false, opened)
  | some s =>
    if s.peers = [] then (true, (closeSocket s (opened.erase s.timer)).2) else (false, opened)

/-- `obus_socket_server_new`; whether its result is 0, and the server.  The result is also 0 where
there is no timer. -/
def socketServerNew (k : Kernel) (c : Creation) (opened : List ℕ) :
    Bool × Option SocketServer × List ℕ :=
  match c with
  | .noMemory | .badAddress => (false, none, opened)
  | .noTimer => (true, none, opened)
  | .bound ip b =>
    match socketServerBind k b { ip := ip, timer := k.pick opened } (k.pick opened :: opened) with
    | (true, s, opened') => (true, some s, opened')
    | (false, s, opened') => (false, none, (closeSocket s (opened'.erase s.timer)).2)

/-! ## The server -/

/-- The sockets of `struct obus_server`, with the descriptors that are open. -/
structure ServerSockets where
  /-- Sockets and bind timers. -/
  opened : List ℕ := []
  /-- `sks`. -/
  sks : List (Option SocketServer) := []
  /-- `peers`: the socket server of each peer, by its number, and the descriptor. -/
  peers : List (ℕ × ℕ) := []
  started : Bool := false
  alive : Bool := true

namespace ServerSockets

/-- A socket server. -/
def server? (w : ServerSockets) (i : ℕ) : Option SocketServer := (w.sks[i]?).join

/-- A socket server and the open descriptors after something has been done with them. -/
def put (w : ServerSockets) (i : ℕ) (p : SocketServer × List ℕ) : ServerSockets :=
  { w with sks := w.sks.set i (some p.1), opened := p.2 }

/-- `obus_socket_peer_disconnect`. -/
def socketPeerDisconnect (w : ServerSockets) (i fd : ℕ) : ServerSockets :=
  match w.server? i with
  | some s => w.put i ({ s with peers := s.peers.erase fd }, w.opened.erase fd)
  | none => w

/-- `obus_peer_destroy`. -/
def peerDestroy (w : ServerSockets) (p : ℕ × ℕ) : ServerSockets :=
  { w.socketPeerDisconnect p.1 p.2 with peers := w.peers.erase p }

/-- `obus_socket_server_events` for a connection, and `obus_server_accept`. -/
def accept (k : Kernel) (a : Accepting) (i : ℕ) (s : SocketServer) (w : ServerSockets) :
    ServerSockets :=
  let fd := k.pick w.opened
  match a with
  | .failed => w
  | .closed => { w with opened := (fd :: w.opened).erase fd }
  | .accepted kept =>
    let w' := w.put i ({ s with peers := s.peers ++ [fd] }, fd :: w.opened)
    if kept then { w' with peers := w'.peers ++ [(i, fd)] } else w'.socketPeerDisconnect i fd

/-- Destroy socket servers, and go on if one refuses. -/
def destroyAll (sks : List (Option SocketServer)) (opened : List ℕ) : List ℕ :=
  sks.foldl (fun opened sk => (socketServerDestroy sk opened).2) opened

/-- Create socket servers, up to the first one that cannot be created. -/
def createAll (k : Kernel) : List Creation → List (Option SocketServer) → List ℕ →
    Bool × List (Option SocketServer) × List ℕ
  | [], sks, opened => (true, sks, opened)
  | c :: cs, sks, opened =>
    match socketServerNew k c opened with
    | (true, sk, opened') => createAll k cs (sks ++ [sk]) opened'
    | (false, _, opened') => (false, sks, opened')

/-- `obus_server_start`; whether it succeeds. -/
def start (k : Kernel) (cs : List Creation) (w : ServerSockets) : Bool × ServerSockets :=
  if cs = [] then (false, w)
  else if w.started then (false, w)
  else
    match createAll k cs [] w.opened with
    | (true, sks, opened) => (true, { w with sks := sks, opened := opened, started := true })
    | (false, sks, opened) => (false, { w with opened := destroyAll sks opened })

/-- `obus_server_destroy`. -/
def destroy (w : ServerSockets) : ServerSockets :=
  let w' := w.peers.foldl peerDestroy w
  { w' with opened := destroyAll w'.sks w'.opened, sks := [], alive := false }

end ServerSockets

/-! ## Runs -/

/-- What happens to the sockets of a server. -/
inductive SocketsOp where
  | start (k : Kernel) (cs : List Creation)
  /-- The bind timer of a socket server expires. -/
  | timer (i : ℕ) (k : Kernel) (b : SocketBinding)
  /-- An error event on the descriptor of a socket server. -/
  | error (i : ℕ)
  /-- A connection to a socket server. -/
  | accept (i : ℕ) (k : Kernel) (a : Accepting)
  /-- The server destroys a peer. -/
  | peerDestroy (p : ℕ × ℕ)
  | destroy

/-- One step, where it is possible. -/
def socketsStep (w : ServerSockets) (op : SocketsOp) : Option ServerSockets :=
  if w.alive then
    match op with
    | .start k cs => some (w.start k cs).2
    | .timer i k b =>
      (w.server? i).bind fun s =>
        if s.armed then some (w.put i (socketBindTimerCb k b s w.opened)) else none
    | .error i =>
      (w.server? i).bind fun s =>
        if s.used then some (w.put i ({ s with used := false }, w.opened)) else none
    | .accept i k a => (w.server? i).bind fun s => if s.used then some (w.accept k a i s) else none
    | .peerDestroy p => if w.peers.contains p then some (w.peerDestroy p) else none
    | .destroy => some w.destroy
  else none


/-! ## Descriptors in use -/

/-- The descriptors of a socket server: its bind timer, its socket and the sockets of its peers. -/
def held : Option SocketServer → List ℕ
  | none => []
  | some s => s.timer :: (s.fd.toList ++ s.peers)

/-- The open descriptors are those that something holds, and others. -/
def InUse (opened mine others : List ℕ) : Prop := opened.Nodup ∧ opened.Perm (mine ++ others)

section Held

variable {s : SocketServer} {opened mine others : List ℕ} {fd : ℕ}

lemma InUse.pick (k : Kernel) (h : InUse opened mine others) :
    InUse (k.pick opened :: opened) (k.pick opened :: mine) others :=
  ⟨List.nodup_cons.mpr ⟨k.fresh opened, h.1⟩, h.2.cons _⟩

lemma InUse.close (h : InUse opened (fd :: mine) others) : InUse (opened.erase fd) mine others := by
  refine ⟨h.1.erase fd, ?_⟩
  have herase := h.2.erase fd
  rwa [List.cons_append, List.erase_cons_head] at herase

lemma InUse.congr {mine' : List ℕ} (h : InUse opened mine others) (hperm : mine.Perm mine') :
    InUse opened mine' others :=
  ⟨h.1, h.2.trans (hperm.append_right others)⟩

/-- A socket is opened where there is none. -/
lemma InUse.openSocket (k : Kernel) (h : InUse opened (held (some s)) others) (hfd : s.fd = none) :
    InUse (openSocket k s opened).2 (held (some (openSocket k s opened).1)) others := by
  refine (h.pick k).congr ?_
  simp only [held, hfd, Option.toList_none, List.nil_append]
  exact List.Perm.swap _ _ _

lemma InUse.closeSocket (h : InUse opened (held (some s)) others) :
    InUse (closeSocket s opened).2 (held (some (closeSocket s opened).1)) others := by
  cases hfd : s.fd with
  | none =>
    simp only [Obus.closeSocket, held, hfd, Option.elim_none] at h ⊢
    exact h
  | some fd =>
    simp only [Obus.closeSocket, held, hfd, Option.elim_some, Option.toList_some,
      Option.toList_none] at h ⊢
    exact (h.congr (List.Perm.swap fd s.timer s.peers)).close

/-- Binding keeps what is held, whatever it comes to. -/
lemma InUse.socketServerBind (k : Kernel) (b : SocketBinding)
    (h : InUse opened (held (some s)) others) (hfd : s.fd = none) :
    InUse (socketServerBind k b s opened).2.2 (held (some (socketServerBind k b s opened).2.1))
      others := by
  have hopen := h.openSocket k hfd
  have hclosed := hopen.closeSocket
  cases b with
  | noSocket => exact h
  | notSet =>
    have herase : (k.pick opened :: opened).erase (k.pick opened) = opened :=
      List.erase_cons_head _ _
    simp only [Obus.socketServerBind, Obus.openSocket, herase]
    exact h
  | unavailable =>
    unfold Obus.socketServerBind
    dsimp only
    split
    · exact hclosed
    · exact hclosed
  | notBound | notListening | notAdded => exact hclosed
  | listening => exact hopen

/-- Binding leaves the address, the timer and the peers. -/
lemma socketServerBind_frame (k : Kernel) (b : SocketBinding) (s : SocketServer) (opened : List ℕ) :
    (socketServerBind k b s opened).2.1.ip = s.ip ∧ (socketServerBind k b s opened).2.1.peers =
      s.peers := by
  cases b with
  | unavailable =>
    unfold socketServerBind
    dsimp only
    split <;> exact ⟨rfl, rfl⟩
  | noSocket | notSet | notBound | notListening | notAdded | listening => exact ⟨rfl, rfl⟩

/-- A socket server that tries again has no socket. -/
def SocketServer.Waits (s : SocketServer) : Prop := s.armed = true → s.fd = none ∧ s.used = false

/-- A socket server listens, or tries to. -/
def SocketServer.Listens (s : SocketServer) : Prop := s.used = true ∨ s.armed = true

/-- Binding can go on. -/
def SocketBinding.Lasts (b : SocketBinding) (ip : Bool) : Prop :=
  b = .listening ∨ b = .unavailable ∧ ip = true

instance (b : SocketBinding) (ip : Bool) : Decidable (b.Lasts ip) :=
  inferInstanceAs (Decidable (_ ∨ _))

lemma socketServerBind_waits (k : Kernel) (b : SocketBinding) (opened : List ℕ)
    (hused : s.used = false) (harmed : s.armed = false) :
    (socketServerBind k b s opened).2.1.Waits := by
  have hidle : s.Waits := fun h => absurd (harmed.symm.trans h) Bool.false_ne_true
  cases b with
  | noSocket | notSet => exact hidle
  | unavailable =>
    unfold socketServerBind
    dsimp only
    split
    · exact fun _ => ⟨rfl, hused⟩
    · exact fun h => absurd (harmed.symm.trans h) Bool.false_ne_true
  | notBound | notListening | notAdded | listening =>
    exact fun h => absurd (harmed.symm.trans h) Bool.false_ne_true

/-- Binding succeeds, and the socket server then listens, exactly if it can go on. -/
lemma socketServerBind_listens (k : Kernel) (b : SocketBinding) (opened : List ℕ)
    (hused : s.used = false) (harmed : s.armed = false) :
    ((socketServerBind k b s opened).1 = true ↔ b.Lasts s.ip) ∧
      ((socketServerBind k b s opened).2.1.Listens ↔ b.Lasts s.ip) := by
  unfold SocketServer.Listens SocketBinding.Lasts
  cases b with
  | unavailable =>
    cases hip : s.ip <;> simp [socketServerBind, openSocket, closeSocket, hused, harmed, hip]
  | noSocket | notSet | notBound | notListening | notAdded | listening =>
    simp [socketServerBind, openSocket, closeSocket, hused, harmed]

/-- A socket server without peers goes, with all that it holds. -/
lemma InUse.socketServerDestroy (h : InUse opened (held (some s)) others) (hpeers : s.peers = []) :
    (socketServerDestroy (some s) opened).1 = true ∧
    InUse (socketServerDestroy (some s) opened).2 [] others := by
  unfold Obus.socketServerDestroy Obus.closeSocket
  rw [held, hpeers, List.append_nil] at h
  simp only [hpeers, if_true, true_and]
  have hrest := h.close
  cases hfd : s.fd with
  | none =>
    rw [hfd] at hrest
    exact hrest
  | some fd =>
    rw [hfd] at hrest
    exact hrest.close

end Held

namespace ServerSockets

/-! ## Creating and destroying -/

variable {opened others : List ℕ} {sks : List (Option SocketServer)}

/-- A socket server that has no peers yet. -/
structure Fresh (s : SocketServer) : Prop where
  peers : s.peers = []
  waits : s.Waits
  listens : s.Listens

/-- What is created holds its descriptors, and nothing else is left open. -/
lemma inUse_socketServerNew (k : Kernel) (c : Creation) (h : InUse opened [] others) :
    InUse (socketServerNew k c opened).2.2 (held (socketServerNew k c opened).2.1) others ∧
      (∀ s, (socketServerNew k c opened).2.1 = some s → Fresh s) ∧
      ((socketServerNew k c opened).1 = true →
        (none = (socketServerNew k c opened).2.1 ↔ .noTimer = c)) ∧
      ((socketServerNew k c opened).1 = false → (socketServerNew k c opened).2.1 = none) := by
  cases c with
  | noMemory | badAddress =>
    exact ⟨h, fun s hs => absurd hs.symm (Option.some_ne_none s), fun heq => Bool.noConfusion heq,
      fun _ => rfl⟩
  | noTimer =>
    exact ⟨h, fun s hs => absurd hs.symm (Option.some_ne_none s),
      fun _ => ⟨fun _ => rfl, fun _ => rfl⟩,
      fun heq => Bool.noConfusion heq⟩
  | bound ip b =>
    have htimer : InUse (k.pick opened :: opened) (held (some { ip := ip, timer := k.pick opened }))
        others := h.pick k
    have hbind := htimer.socketServerBind k b rfl
    have hwaits := socketServerBind_waits (s := { ip := ip, timer := k.pick opened }) k b
      (k.pick opened :: opened) rfl rfl
    obtain ⟨hok, hlistens⟩ := socketServerBind_listens (s := { ip := ip, timer := k.pick opened }) k
      b (k.pick opened :: opened)
      rfl rfl
    have hpeers :=
      (socketServerBind_frame k b { ip := ip, timer := k.pick opened } (k.pick opened :: opened)).2
    unfold socketServerNew
    dsimp only
    generalize socketServerBind k b { ip := ip, timer := k.pick opened }
      (k.pick opened :: opened) = r at *
    obtain ⟨ok, s, opened'⟩ := r
    cases ok with
    | true =>
      refine ⟨hbind, fun t ht => ?_, fun _ => ⟨fun heq => absurd heq.symm (Option.some_ne_none s),
        fun heq => Creation.noConfusion heq⟩, fun heq => Bool.noConfusion heq⟩
      obtain rfl := Option.some.inj ht
      exact ⟨hpeers, hwaits, hlistens.mpr (hok.mp rfl)⟩
    | false =>
      have hdestroy := (hbind.socketServerDestroy hpeers).2
      unfold socketServerDestroy at hdestroy
      dsimp only at hdestroy hpeers
      rw [if_pos hpeers] at hdestroy
      exact ⟨hdestroy, fun t ht => absurd ht.symm (Option.some_ne_none t),
        fun heq => Bool.noConfusion heq, fun _ => rfl⟩

/-- Servers without peers go, with all that they hold. -/
lemma inUse_destroyAll (h : InUse opened (sks.flatMap held) others)
    (hpeers : ∀ s, some s ∈ sks → s.peers = []) : InUse (destroyAll sks opened) [] others := by
  induction sks generalizing opened with
  | nil => exact h
  | cons sk sks ih =>
    have hrest : ∀ s, some s ∈ sks → s.peers = [] :=
      fun s hs => hpeers s (List.mem_cons_of_mem sk hs)
    rw [List.flatMap_cons] at h
    have hassoc : InUse opened (held sk) (sks.flatMap held ++ others) :=
      ⟨h.1, by rw [← List.append_assoc]; exact h.2⟩
    cases sk with
    | none => exact ih hassoc hrest
    | some s => exact ih (hassoc.socketServerDestroy (hpeers s List.mem_cons_self)).2 hrest

/-- What has been created so far holds its descriptors, and the socket servers are fresh; after a
success there is one for each creation, or none where the timer could not be made. -/
lemma inUse_createAll (k : Kernel) (cs : List Creation) (h : InUse opened (sks.flatMap held) others)
    (hfresh : ∀ s, some s ∈ sks → Fresh s) :
    InUse (createAll k cs sks opened).2.2 ((createAll k cs sks opened).2.1.flatMap held) others ∧
      (∀ s, some s ∈ (createAll k cs sks opened).2.1 → Fresh s) ∧
      ((createAll k cs sks opened).1 = true →
        (none ∈ (createAll k cs sks opened).2.1 ↔ none ∈ sks ∨ Creation.noTimer ∈ cs)) := by
  induction cs generalizing sks opened with
  | nil => exact ⟨h, hfresh, fun _ => ⟨Or.inl, fun hor => hor.resolve_right List.not_mem_nil⟩⟩
  | cons c cs ih =>
    have hnone : InUse opened [] (sks.flatMap held ++ others) := h
    obtain ⟨hnew, hnewFresh, hnewTimer, hnewNone⟩ := inUse_socketServerNew k c hnone
    unfold createAll
    generalize socketServerNew k c opened = r at *
    obtain ⟨ok, sk, opened'⟩ := r
    cases ok with
    | true =>
      have hall : InUse opened' ((sks ++ [sk]).flatMap held) others := by
        refine ⟨hnew.1, hnew.2.trans ?_⟩
        rw [List.flatMap_append, List.flatMap_singleton, ← List.append_assoc]
        exact List.perm_append_comm.append_right others
      have hallFresh : ∀ s, some s ∈ sks ++ [sk] → Fresh s := by
        intro s hs
        rcases List.mem_append.mp hs with hs | hs
        · exact hfresh s hs
        · exact hnewFresh s (List.mem_singleton.mp hs).symm
      obtain ⟨hin, hfr, hno⟩ := ih hall hallFresh
      refine ⟨hin, hfr, fun hok => (hno hok).trans ?_⟩
      rw [List.mem_append, List.mem_singleton, List.mem_cons, or_assoc, hnewTimer rfl]
    | false =>
      obtain rfl : sk = none := hnewNone rfl
      exact ⟨hnew, hfresh, fun heq => Bool.noConfusion heq⟩

/-! ## Steps -/

variable {w w' : ServerSockets} {i fd : ℕ} {s : SocketServer} {p : SocketServer × List ℕ}

/-- The open descriptors are those of the socket servers, and those that try again have no socket.
-/
structure Sound (w : ServerSockets) : Prop where
  inUse : InUse w.opened (w.sks.flatMap held) []
  waits : ∀ s, some s ∈ w.sks → s.Waits
  idle : w.started = false ∨ w.alive = false → w.sks = []

/-- The peers of the server are those of its socket servers. -/
structure Mirrored (w : ServerSockets) : Prop where
  nodup : w.peers.Nodup
  peers : ∀ i fd, (i, fd) ∈ w.peers ↔ ∃ s, w.server? i = some s ∧ fd ∈ s.peers

lemma server?_eq_some : w.server? i = some s ↔ w.sks[i]? = some (some s) := Option.join_eq_some_iff

lemma mem_of_server? (hs : w.server? i = some s) : some s ∈ w.sks :=
  List.mem_of_getElem? (server?_eq_some.mp hs)

lemma server?_put (hs : w.server? i = some s) (j : ℕ) :
    (w.put i p).server? j = if i = j then some p.1 else w.server? j := by
  have hlt := (List.getElem?_eq_some_iff.mp (server?_eq_some.mp hs)).1
  unfold server? put
  rw [List.getElem?_set]
  split_ifs <;> rfl

/-- What a socket server holds, and what the others do. -/
lemma exists_others (hs : w.server? i = some s) :
    ∃ others, (w.sks.flatMap held).Perm (held (some s) ++ others) ∧
    ∀ x, ((w.sks.set i x).flatMap held).Perm (held x ++ others) := by
  obtain ⟨hlt, hget⟩ := List.getElem?_eq_some_iff.mp (server?_eq_some.mp hs)
  have hset : ∀ x, ((w.sks.set i x).flatMap held).Perm
      (held x ++ ((w.sks.take i).flatMap held ++ (w.sks.drop (i + 1)).flatMap held)) := by
    intro x
    rw [List.set_eq_take_append_cons_drop, if_pos hlt, List.flatMap_append, List.flatMap_cons]
    exact List.perm_append_comm_assoc _ _ _
  refine ⟨_, ?_, hset⟩
  have hself := hset (some s)
  rwa [← hget, List.set_getElem_self, hget] at hself

/-- What a socket server does with its own descriptors. -/
lemma Sound.put (h : w.Sound) (hs : w.server? i = some s)
    (hin : ∀ others, InUse w.opened (held (some s)) others → InUse p.2 (held (some p.1)) others)
    (hwaits : p.1.Waits) : (w.put i p).Sound := by
  obtain ⟨others, hall, hset⟩ := exists_others hs
  have hother : InUse w.opened (held (some s)) others :=
    ⟨h.inUse.1, (by simpa using h.inUse.2.trans (hall.append_right []))⟩
  obtain ⟨hnodup, hperm⟩ := hin others hother
  refine ⟨⟨hnodup, ?_⟩, fun t ht => ?_, fun hidle => ?_⟩
  · rw [List.append_nil]
    exact hperm.trans (hset (some p.1)).symm
  · rcases List.mem_or_eq_of_mem_set ht with ht | ht
    · exact h.waits t ht
    · exact Option.some.inj ht ▸ hwaits
  · have hnil := h.idle hidle
    have hmem := mem_of_server? hs
    rw [hnil] at hmem
    cases hmem

/-- A socket server whose peers stay the same. -/
lemma Mirrored.put (h : w.Mirrored) (hs : w.server? i = some s) (hpeers : p.1.peers = s.peers) :
    (w.put i p).Mirrored := by
  refine ⟨h.nodup, fun j fd => (h.peers j fd).trans ?_⟩
  rw [server?_put hs]
  split_ifs with hij
  · subst hij
    simp only [hs, Option.some.injEq, exists_eq_left', hpeers]
  · exact Iff.rfl

lemma Sound.nodup_peers (h : w.Sound) (hs : w.server? i = some s) : s.peers.Nodup := by
  obtain ⟨others, hall, -⟩ := exists_others hs
  have hnodup : (held (some s) ++ others).Nodup := by
    have hperm := h.inUse.2
    rw [List.append_nil] at hperm
    exact (hperm.trans hall).nodup_iff.mp h.inUse.1
  exact (List.nodup_append.mp (List.nodup_cons.mp (List.nodup_append.mp hnodup).1).2).2.1

/-- A peer that the server has is destroyed in both lists. -/
lemma peerDestroy_spec (h : w.Sound) (hm : w.Mirrored) {q : ℕ × ℕ} (hq : q ∈ w.peers) :
    (w.peerDestroy q).Sound ∧ (w.peerDestroy q).Mirrored ∧
    (w.peerDestroy q).peers = w.peers.erase q := by
  obtain ⟨i, fd⟩ := q
  obtain ⟨s, hs, hfd⟩ := (hm.peers i fd).mp hq
  have heq : w.peerDestroy (i, fd) =
      { w.put i ({ s with peers := s.peers.erase fd }, w.opened.erase fd) with
      peers := w.peers.erase (i, fd) } := by
    unfold peerDestroy socketPeerDisconnect
    rw [hs]
  have hsound : (w.put i ({ s with peers := s.peers.erase fd }, w.opened.erase fd)).Sound := by
    refine h.put hs (fun others hin => ?_) (h.waits s (mem_of_server? hs))
    refine (hin.congr ?_).close
    have hperm := (List.perm_cons_erase hfd).append_left (s.timer :: s.fd.toList)
    exact hperm.trans List.perm_middle
  rw [heq]
  refine ⟨⟨hsound.inUse, hsound.waits, hsound.idle⟩, ⟨hm.nodup.erase _, fun j fd' => ?_⟩, rfl⟩
  have hserver := server?_put (p := ({ s with peers := s.peers.erase fd }, w.opened.erase fd)) hs j
  change _ ↔ ∃ t, (w.put i ({ s with peers := s.peers.erase fd }, w.opened.erase fd)).server? j =
      some t ∧ fd' ∈ t.peers
  rw [hserver, hm.nodup.mem_erase_iff, hm.peers]
  split_ifs with hij
  · subst hij
    simp only [hs, Option.some.injEq, exists_eq_left', (h.nodup_peers hs).mem_erase_iff, ne_eq,
      Prod.mk.injEq, true_and]
  · have hne : (j, fd') ≠ (i, fd) := fun heq => hij (Prod.mk.inj heq).1.symm
    exact ⟨And.right, fun hex => ⟨hne, hex⟩⟩

/-- The server destroys all of its peers. -/
lemma foldl_peerDestroy (h : w.Sound) (hm : w.Mirrored) {l : List (ℕ × ℕ)} (hl : w.peers = l) :
    (l.foldl peerDestroy w).Sound ∧ (l.foldl peerDestroy w).Mirrored ∧
    (l.foldl peerDestroy w).peers = [] := by
  induction l generalizing w with
  | nil => exact ⟨h, hm, hl⟩
  | cons q l ih =>
    obtain ⟨hsound, hmirrored, hpeers⟩ :=
      peerDestroy_spec h hm (hl.symm ▸ List.mem_cons_self : q ∈ w.peers)
    refine ih hsound hmirrored ?_
    rw [hpeers, hl, List.erase_cons_head]

/-- When the server is destroyed, nothing is left open. -/
lemma destroy_spec (h : w.Sound) (hm : w.Mirrored) : w.destroy.Sound ∧ w.destroy.Mirrored := by
  obtain ⟨hsound, hmirrored, hpeers⟩ := foldl_peerDestroy h hm rfl
  have hnone : ∀ s, some s ∈ (w.peers.foldl peerDestroy w).sks → s.peers = [] := by
    intro s hs
    obtain ⟨i, hi⟩ := List.mem_iff_getElem?.mp hs
    refine List.eq_nil_iff_forall_not_mem.mpr fun fd hfd => ?_
    have hmem := (hmirrored.peers i fd).mpr ⟨s, server?_eq_some.mpr hi, hfd⟩
    rw [hpeers] at hmem
    cases hmem
  refine ⟨⟨inUse_destroyAll hsound.inUse hnone, fun s hs => absurd hs List.not_mem_nil,
    fun _ => rfl⟩, ?_⟩
  refine ⟨hmirrored.nodup, fun i fd => ?_⟩
  change (i, fd) ∈ (w.peers.foldl peerDestroy w).peers ↔ _
  rw [hpeers]
  refine ⟨fun hmem => absurd hmem List.not_mem_nil, ?_⟩
  rintro ⟨s, hs, -⟩
  cases hs

/-- A peer that has just been added to a socket server goes again without a trace. -/
lemma socketPeerDisconnect_new (hs : w.server? i = some s) (hfd : fd ∉ s.peers) :
    (w.put i ({ s with peers := s.peers ++ [fd] }, fd :: w.opened)).socketPeerDisconnect i
      fd = w := by
  have hself : w.sks.set i (some s) = w.sks := by
    obtain ⟨hlt, hget⟩ := List.getElem?_eq_some_iff.mp (server?_eq_some.mp hs)
    rw [← hget, List.set_getElem_self]
  unfold socketPeerDisconnect
  rw [server?_put hs, if_pos rfl]
  simp only [put, List.set_set, List.erase_append_right _ hfd, List.erase_cons_head,
    List.append_nil, hself]

/-- A connection has its descriptor in both lists, or nothing is left of it. -/
lemma accept_spec (k : Kernel) (a : Accepting) (h : w.Sound) (hm : w.Mirrored)
    (hs : w.server? i = some s) : (w.accept k a i s).Sound ∧ (w.accept k a i s).Mirrored := by
  have hfd : k.pick w.opened ∉ s.peers := by
    intro hmem
    obtain ⟨others, hall, -⟩ := exists_others hs
    refine k.fresh w.opened (h.inUse.2.symm.subset ?_)
    refine List.mem_append_left [] (hall.symm.subset (List.mem_append_left others ?_))
    exact List.mem_cons_of_mem s.timer (List.mem_append_right s.fd.toList hmem)
  cases a with
  | failed => exact ⟨h, hm⟩
  | closed =>
    have hsame : w.accept k .closed i s = w := by
      unfold accept
      simp only [List.erase_cons_head]
    rw [hsame]
    exact ⟨h, hm⟩
  | accepted kept =>
    cases kept with
    | false =>
      have hsame : w.accept k (.accepted false) i s = w := socketPeerDisconnect_new hs hfd
      rw [hsame]
      exact ⟨h, hm⟩
    | true =>
      have hsound : (w.put i ({ s with peers := s.peers ++ [k.pick w.opened] }, k.pick w.opened ::
          w.opened)).Sound := by
        refine h.put hs (fun others hin => (hin.pick k).congr ?_) (h.waits s (mem_of_server? hs))
        have hperm : ([k.pick w.opened] ++ s.peers).Perm (s.peers ++ [k.pick w.opened]) :=
          List.perm_append_comm
        have hfirst : ((s.timer :: s.fd.toList) ++ k.pick w.opened :: s.peers).Perm
            (k.pick w.opened :: ((s.timer :: s.fd.toList) ++ s.peers)) := List.perm_middle
        exact hfirst.symm.trans (hperm.append_left (s.timer :: s.fd.toList))
      have hnew : (i, k.pick w.opened) ∉ w.peers := by
        intro hmem
        obtain ⟨t, ht, hmem⟩ := (hm.peers i _).mp hmem
        exact hfd (Option.some.inj (hs.symm.trans ht) ▸ hmem)
      refine ⟨⟨hsound.inUse, hsound.waits, hsound.idle⟩, ⟨?_, fun j fd => ?_⟩⟩
      · exact List.nodup_append.mpr ⟨hm.nodup, List.nodup_singleton _, fun q hq r hr heq =>
          hnew (List.mem_singleton.mp hr ▸ heq ▸ hq)⟩
      · have hserver :=
          server?_put (p := ({ s with peers := s.peers ++ [k.pick w.opened] }, k.pick w.opened ::
            w.opened)) hs j
        change (j, fd) ∈ w.peers ++ [(i, k.pick w.opened)] ↔ ∃ t, (w.put i _).server? j = some t ∧
            fd ∈ t.peers
        rw [hserver, List.mem_append, List.mem_singleton, hm.peers]
        split_ifs with hij
        · subst hij
          simp only [hs, Option.some.injEq, exists_eq_left', List.mem_append, List.mem_singleton,
            Prod.mk.injEq, true_and]
        · have hne : (j, fd) ≠ (i, k.pick w.opened) := fun heq => hij (Prod.mk.inj heq).1.symm
          exact ⟨fun hor => hor.resolve_right hne, Or.inl⟩

/-- A start that does not succeed leaves nothing behind, and one that does has all of its socket
servers, fresh, but for those without a timer. -/
lemma start_spec (k : Kernel) (cs : List Creation) (h : w.Sound) (hm : w.Mirrored)
    (halive : w.alive = true) : (w.start k cs).2.Sound ∧ (w.start k cs).2.Mirrored ∧
      ((w.start k cs).1 = false → (w.start k cs).2.sks = w.sks) ∧
      ((w.start k cs).1 = true → (∀ s, some s ∈ (w.start k cs).2.sks → s.Listens) ∧
        (none ∈ (w.start k cs).2.sks ↔ Creation.noTimer ∈ cs)) := by
  have hrefused : w.Sound ∧ w.Mirrored ∧ (false = false → w.sks = w.sks) ∧
      (false = true → (∀ s, some s ∈ w.sks → s.Listens) ∧ (none ∈ w.sks ↔ Creation.noTimer ∈ cs)) :=
    ⟨h, hm, fun _ => rfl, fun heq => Bool.noConfusion heq⟩
  unfold start
  split
  · exact hrefused
  · split
    · exact hrefused
    · rename_i hstarted
      have hidle : w.sks = [] := h.idle (Or.inl (Bool.eq_false_iff.mpr hstarted))
      have hnoPeers : w.peers = [] := by
        refine List.eq_nil_iff_forall_not_mem.mpr fun q hq => ?_
        obtain ⟨s, hs, -⟩ := (hm.peers q.1 q.2).mp hq
        have hmem := mem_of_server? hs
        rw [hidle] at hmem
        exact List.not_mem_nil hmem
      have hin : InUse w.opened (([] : List (Option SocketServer)).flatMap held) [] := by
        have hin := h.inUse
        rwa [hidle] at hin
      obtain ⟨hall, hfresh, htimer⟩ :=
        inUse_createAll k cs hin fun s hs => absurd hs List.not_mem_nil
      generalize createAll k cs [] w.opened = r at *
      obtain ⟨ok, sks, opened⟩ := r
      cases ok with
      | false =>
        refine ⟨⟨?_, h.waits, h.idle⟩, ⟨hm.nodup, hm.peers⟩, fun _ => rfl,
          fun heq => Bool.noConfusion heq⟩
        have hnone := inUse_destroyAll hall fun s hs => (hfresh s hs).peers
        change InUse _ (w.sks.flatMap held) []
        rwa [hidle]
      | true =>
        refine ⟨⟨hall, fun s hs => (hfresh s hs).waits, ?_⟩, ⟨hm.nodup, fun i fd => ?_⟩,
          fun heq => Bool.noConfusion heq, fun _ =>
          ⟨fun s hs => (hfresh s hs).listens,
            (htimer rfl).trans ⟨fun hor => hor.resolve_left List.not_mem_nil, Or.inr⟩⟩⟩
        · rintro (heq | heq)
          · exact Bool.noConfusion heq
          · exact absurd (halive.symm.trans heq) Bool.noConfusion
        · change (i, fd) ∈ w.peers ↔ _
          rw [hnoPeers]
          refine ⟨fun hmem => absurd hmem List.not_mem_nil, ?_⟩
          rintro ⟨s, hs, hfd⟩
          have hmem : some s ∈ sks := mem_of_server? hs
          rw [(hfresh s hmem).peers] at hfd
          exact absurd hfd List.not_mem_nil

/-! ## Runs of the sockets -/

variable {op : SocketsOp}

lemma initial_spec : ({} : ServerSockets).Sound ∧ ({} : ServerSockets).Mirrored := by
  refine ⟨⟨⟨List.nodup_nil, List.Perm.refl _⟩, fun s hs => absurd hs List.not_mem_nil,
    fun _ => rfl⟩, List.nodup_nil,
    fun i fd => ?_⟩
  refine ⟨fun hmem => absurd hmem List.not_mem_nil, ?_⟩
  rintro ⟨s, hs, -⟩
  cases hs

/-- What a step is. -/
lemma step_cases (hstep : socketsStep w op = some w') : w.alive = true ∧
    ((∃ k cs, op = .start k cs ∧ w' = (w.start k cs).2) ∨
      (∃ i k b s, op = .timer i k b ∧ w.server? i = some s ∧ s.armed = true ∧
        w' = w.put i (socketBindTimerCb k b s w.opened)) ∨
      (∃ i s, op = .error i ∧ w.server? i = some s ∧ s.used = true ∧
        w' = w.put i ({ s with used := false }, w.opened)) ∨
      (∃ i k a s, op = .accept i k a ∧ w.server? i = some s ∧ s.used = true ∧
        w' = w.accept k a i s) ∨
      (∃ q, op = .peerDestroy q ∧ q ∈ w.peers ∧ w' = w.peerDestroy q) ∨ op = .destroy ∧
        w' = w.destroy) := by
  obtain ⟨halive, hstep⟩ := Option.ite_none_right_eq_some.mp hstep
  refine ⟨halive, ?_⟩
  cases op with
  | start k cs => exact .inl ⟨k, cs, rfl, (Option.some.inj hstep).symm⟩
  | timer i k b =>
    obtain ⟨s, hs, hstep⟩ := Option.bind_eq_some_iff.mp hstep
    obtain ⟨harmed, hstep⟩ := Option.ite_none_right_eq_some.mp hstep
    exact .inr (.inl ⟨i, k, b, s, rfl, hs, harmed, (Option.some.inj hstep).symm⟩)
  | error i =>
    obtain ⟨s, hs, hstep⟩ := Option.bind_eq_some_iff.mp hstep
    obtain ⟨hused, hstep⟩ := Option.ite_none_right_eq_some.mp hstep
    exact .inr (.inr (.inl ⟨i, s, rfl, hs, hused, (Option.some.inj hstep).symm⟩))
  | accept i k a =>
    obtain ⟨s, hs, hstep⟩ := Option.bind_eq_some_iff.mp hstep
    obtain ⟨hused, hstep⟩ := Option.ite_none_right_eq_some.mp hstep
    exact .inr (.inr (.inr (.inl ⟨i, k, a, s, rfl, hs, hused, (Option.some.inj hstep).symm⟩)))
  | peerDestroy q =>
    obtain ⟨hq, hstep⟩ := Option.ite_none_right_eq_some.mp hstep
    exact .inr
      (.inr
        (.inr (.inr (.inl ⟨q, rfl, List.contains_iff_mem.mp hq, (Option.some.inj hstep).symm⟩))))
  | destroy => exact .inr (.inr (.inr (.inr (.inr ⟨rfl, (Option.some.inj hstep).symm⟩))))

/-- The bind timer expires where it was set, and so where there is no socket. -/
lemma timer_spec (k : Kernel) (b : SocketBinding) (h : w.Sound) (hm : w.Mirrored)
    (hs : w.server? i = some s) (harmed : s.armed = true) :
    (w.put i (socketBindTimerCb k b s w.opened)).Sound ∧
    (w.put i (socketBindTimerCb k b s w.opened)).Mirrored ∧
      ((socketBindTimerCb k b s w.opened).1.Listens ↔ b.Lasts s.ip) := by
  obtain ⟨hfd, hused⟩ := h.waits s (mem_of_server? hs) harmed
  refine ⟨h.put hs (fun others hin => ?_) (socketServerBind_waits k b w.opened hused rfl), ?_, ?_⟩
  · have hclear : InUse w.opened (held (some { s with armed := false })) others := hin
    exact hclear.socketServerBind k b hfd
  · exact hm.put hs (socketServerBind_frame k b _ w.opened).2
  · exact (socketServerBind_listens (s := { s with armed := false }) k b w.opened hused rfl).2

/-- Every step keeps the descriptors and the peers. -/
lemma step_spec (h : w.Sound) (hm : w.Mirrored) (hstep : socketsStep w op = some w') :
    w'.Sound ∧ w'.Mirrored := by
  obtain ⟨halive, hcases⟩ := step_cases hstep
  rcases hcases with ⟨k, cs, -, rfl⟩ | ⟨i, k, b, s, -, hs, harmed, rfl⟩ |
    ⟨i, s, -, hs, hused, rfl⟩ |
    ⟨i, k, a, s, -, hs, -, rfl⟩ | ⟨q, -, hq, rfl⟩ | ⟨-, rfl⟩
  · obtain ⟨hsound, hmirrored, -⟩ := start_spec k cs h hm halive
    exact ⟨hsound, hmirrored⟩
  · obtain ⟨hsound, hmirrored, -⟩ := timer_spec k b h hm hs harmed
    exact ⟨hsound, hmirrored⟩
  · refine ⟨h.put hs (fun others hin => hin) fun harmed => ?_, hm.put hs rfl⟩
    exact ⟨(h.waits s (mem_of_server? hs) harmed).1, rfl⟩
  · exact accept_spec k a h hm hs
  · obtain ⟨hsound, hmirrored, -⟩ := peerDestroy_spec h hm hq
    exact ⟨hsound, hmirrored⟩
  · exact destroy_spec h hm

/-- In every state that a run reaches, the open sockets and bind timers are those of the socket
servers and of their peers, each of them once; the peers of the server are those of its socket
servers; and before the server has been started, after a start that did not succeed and after the
server has been destroyed none of them is open. -/
theorem sockets_conserved {ops : List SocketsOp} {w : ServerSockets}
    (hrun : runs socketsStep ops {} = some w) :
    w.opened.Nodup ∧ w.opened.Perm (w.sks.flatMap held) ∧
      (∀ i fd, (i, fd) ∈ w.peers ↔ ∃ s, w.server? i = some s ∧ fd ∈ s.peers) ∧
      (w.started = false ∨ w.alive = false → w.opened = []) := by
  obtain ⟨hsound, hmirrored⟩ :=
    runs_invariant (C := fun _ _ => True) (I := fun w => w.Sound ∧ w.Mirrored)
    (fun w op w' h _ hstep => step_spec h.1 h.2 hstep) initial_spec
      (meetsAll_of_forall (fun _ _ _ => trivial) _) hrun
  have hperm := hsound.inUse.2
  rw [List.append_nil] at hperm
  refine ⟨hsound.inUse.1, hperm, hmirrored.peers, fun hidle => ?_⟩
  rw [hsound.idle hidle] at hperm
  exact hperm.eq_nil

/-- The kernel gives the first descriptor that is not open. -/
def firstFree : Kernel where
  pick opened := opened.foldr max 0 + 1
  fresh opened hmem := by
    have hle : ∀ (l : List ℕ) (n : ℕ), n ∈ l → n ≤ l.foldr max 0 := by
      intro l n hn
      induction l with
      | nil => exact absurd hn List.not_mem_nil
      | cons m l ih =>
        rcases List.mem_cons.mp hn with rfl | hn
        · exact Nat.le_max_left _ _
        · exact (ih hn).trans (Nat.le_max_right _ _)
    exact Nat.not_succ_le_self _ (hle opened _ hmem)

/-- The second address is not there yet; a client connects, and another one is not kept; then the
address is there, and the server is destroyed. -/
def twoAddresses : List SocketsOp :=
  [.start firstFree [.bound false .listening, .bound true .unavailable],
    .accept 0 firstFree (.accepted true),
    .accept 0 firstFree (.accepted false), .timer 1 firstFree .unavailable,
    .timer 1 firstFree .listening,
    .accept 1 firstFree (.accepted true), .peerDestroy (0, 4), .destroy]

/-- While the server runs. -/
theorem sockets_conserved_twoAddresses : ∃ w, runs socketsStep (twoAddresses.take 6) {} = some w ∧
    w.peers = [(0, 4), (1, 6)] ∧ w.opened.Nodup ∧ w.opened.Perm (w.sks.flatMap held) ∧
    (∀ i fd, (i, fd) ∈ w.peers ↔ ∃ s, w.server? i = some s ∧ fd ∈ s.peers) ∧
    (w.started = false ∨ w.alive = false → w.opened = []) := by
  have hpeers : (runs socketsStep (twoAddresses.take 6) {}).map peers = some [(0, 4), (1, 6)] := by
    decide
  obtain ⟨w, hw, hpeers⟩ := Option.map_eq_some_iff.mp hpeers
  exact ⟨w, hw, hpeers, sockets_conserved hw⟩

/-! ## Listening -/

/-- Every socket server of the server is there, and listens or tries to. -/
def Listening (w : ServerSockets) : Prop := ∀ sk ∈ w.sks, ∃ s, sk = some s ∧ s.Listens

/-- What keeps a server listening: a start that succeeds has made every timer, a timer that expires
finds the address or not, and there is no error event. -/
def KeepsListening (w : ServerSockets) : SocketsOp → Prop
  | .start k cs => (w.start k cs).1 = true → Creation.noTimer ∉ cs
  | .timer i _ b => ∀ s ∈ w.server? i, b.Lasts s.ip
  | .error _ => False
  | .accept _ _ _ | .peerDestroy _ | .destroy => True

instance (w : ServerSockets) (op : SocketsOp) : Decidable (w.KeepsListening op) :=
  match op with
  | .start k cs => inferInstanceAs (Decidable ((w.start k cs).1 = true → Creation.noTimer ∉ cs))
  | .timer i _ b => inferInstanceAs (Decidable (∀ s ∈ w.server? i, b.Lasts s.ip))
  | .error _ => .isFalse id
  | .accept _ _ _ | .peerDestroy _ | .destroy => .isTrue trivial

lemma Listening.put (h : w.Listening) (hp : p.1.Listens) : (w.put i p).Listening := by
  intro sk hsk
  rcases List.mem_or_eq_of_mem_set hsk with hsk | rfl
  · exact h sk hsk
  · exact ⟨p.1, rfl, hp⟩

lemma Listening.of_put (hs : w.server? i = some s) (h : (w.put i p).Listening) : p.1.Listens := by
  have hmem : some p.1 ∈ (w.put i p).sks :=
    mem_of_server? (i := i) (by rw [server?_put hs, if_pos rfl])
  obtain ⟨t, ht, hlistens⟩ := h (some p.1) hmem
  exact Option.some.inj ht ▸ hlistens

lemma Listening.listens (h : w.Listening) (hs : w.server? i = some s) : s.Listens := by
  obtain ⟨t, ht, hlistens⟩ := h (some s) (mem_of_server? hs)
  exact Option.some.inj ht ▸ hlistens

lemma listening_socketPeerDisconnect (h : w.Listening) (i fd : ℕ) :
    (w.socketPeerDisconnect i fd).Listening := by
  unfold socketPeerDisconnect
  split
  · rename_i hs
    have hlistens := h.listens hs
    exact h.put hlistens
  · exact h

lemma listening_accept (h : w.Listening) (k : Kernel) (a : Accepting) (hs : w.server? i = some s) :
    (w.accept k a i s).Listening := by
  have hlistens := h.listens hs
  have hput : (w.put i ({ s with peers := s.peers ++ [k.pick w.opened] }, k.pick w.opened ::
      w.opened)).Listening := h.put hlistens
  cases a with
  | failed | closed => exact h
  | accepted kept =>
    cases kept with
    | false => exact listening_socketPeerDisconnect hput i (k.pick w.opened)
    | true => exact hput

/-- A server goes on listening after a step exactly if the step is one that keeps it listening. -/
lemma listening_step (h : w.Sound) (hm : w.Mirrored) (hl : w.Listening)
    (hstep : socketsStep w op = some w') : w'.Listening ↔ KeepsListening w op := by
  obtain ⟨halive, hcases⟩ := step_cases hstep
  rcases hcases with ⟨k, cs, rfl, rfl⟩ | ⟨i, k, b, s, rfl, hs, harmed, rfl⟩ |
    ⟨i, s, rfl, hs, hused, rfl⟩ |
    ⟨i, k, a, s, rfl, hs, -, rfl⟩ | ⟨q, rfl, -, rfl⟩ | ⟨rfl, rfl⟩
  · obtain ⟨-, -, hfailed, hstarted⟩ := start_spec k cs h hm halive
    constructor
    · intro hall hok hmem
      obtain ⟨s, hs, -⟩ := hall none ((hstarted hok).2.mpr hmem)
      exact absurd hs.symm (Option.some_ne_none s)
    · intro hkeeps sk hsk
      cases hok : (w.start k cs).1 with
      | false => exact hl sk (hfailed hok ▸ hsk)
      | true =>
        obtain ⟨hlistens, hnone⟩ := hstarted hok
        cases sk with
        | none => exact absurd (hnone.mp hsk) (hkeeps hok)
        | some s => exact ⟨s, rfl, hlistens s hsk⟩
  · obtain ⟨-, -, hlasts⟩ := timer_spec k b h hm hs harmed
    constructor
    · intro hall t ht
      obtain rfl := Option.some.inj (hs.symm.trans ht)
      exact hlasts.mp (hall.of_put hs)
    · intro hkeeps
      exact hl.put (hlasts.mpr (hkeeps s hs))
  -- a server that tries again has no descriptor in the loop, so that one with an error event does
  -- not
  · refine ⟨fun hall => ?_, False.elim⟩
    rcases hall.of_put hs with heq | harmed
    · exact Bool.noConfusion heq
    · have hidle := (h.waits s (mem_of_server? hs) harmed).2
      exact absurd (hused.symm.trans hidle) Bool.noConfusion
  · exact ⟨fun _ => trivial, fun _ => listening_accept hl k a hs⟩
  · exact ⟨fun _ => trivial, fun _ => listening_socketPeerDisconnect hl q.1 q.2⟩
  · exact ⟨fun _ => trivial, fun _ sk hsk => absurd hsk List.not_mem_nil⟩

/-- In a run a server always listens, or tries to, with every address that it has been given,
exactly if each start that succeeds made every timer, each bind timer that expires finds the address
or finds that it is not there yet, and there is no error event on a listening socket. -/
theorem listens_iff {ops : List SocketsOp} {w : ServerSockets}
    (hrun : runs socketsStep ops {} = some w) :
    Always socketsStep Listening ops {} ↔ MeetsAll socketsStep KeepsListening ops {} := by
  have hinit : (({} : ServerSockets).Sound ∧ ({} : ServerSockets).Mirrored) ∧
      ({} : ServerSockets).Listening :=
    ⟨initial_spec, fun sk hsk => absurd hsk List.not_mem_nil⟩
  refine always_iff_meetsAll (I := fun w => (w.Sound ∧ w.Mirrored) ∧ w.Listening)
    (fun w h => h.2) ?_ ?_ hinit hrun
  · intro w op w' h hC hstep
    exact ⟨step_spec h.1.1 h.1.2 hstep, (listening_step h.1.1 h.1.2 h.2 hstep).mpr hC⟩
  · intro w op w' h hC hstep
    exact fun hall => hC ((listening_step h.1.1 h.1.2 h.2 hstep).mp hall)

/-- The second address is not there at first, and the server goes on listening. -/
theorem listens_iff_twoAddresses : MeetsAll socketsStep KeepsListening twoAddresses {} ∧
    Always socketsStep Listening twoAddresses {} := by
  obtain ⟨w, hw⟩ := Option.isSome_iff_exists.mp
    (by decide : (runs socketsStep twoAddresses {}).isSome = true)
  have hmeets : MeetsAll socketsStep KeepsListening twoAddresses {} := by decide
  exact ⟨hmeets, (listens_iff hw).mpr hmeets⟩

end ServerSockets

end Obus
