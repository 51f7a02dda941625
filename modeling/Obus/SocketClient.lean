import Obus.Lib.Run

/-!
# The socket of a client

`struct obus_socket_client`: its descriptor, its registration in the loop while a connection is in
progress, and its timer.  The kernel chooses the descriptors, and decides how a connection goes on
and whether the loop takes a descriptor; the functions of timers succeed.  The connected callback
comes last in the functions that call it, so that what it does to the socket is a further action.

`obus_socket_client_reconnect` opens a socket and sets the timer, and when this expires a socket is
opened over it.  `conserved_iff` says that this is the only way to lose a descriptor.  When no
socket can be opened, or the loop does not take the one whose connection is in progress, neither the
timer nor the loop is left to try again; `reconnectable_iff` says that these are the only ways to
get stuck.
-/

namespace Obus

/-- `struct obus_socket_client`. -/
structure SocketClient where
  /-- `sock.fd`; `none` is -1. -/
  fd : Option ℕ
  /-- `sock.ofd` is registered in the loop. -/
  used : Bool
  /-- The connect timer is set. -/
  armed : Bool
  /-- The connected callback has been called for the descriptor, and the connection was not given
  up. -/
  connected : Bool
  /-- The descriptors that `obus_socket_base_open` has opened, and that were not closed. -/
  opened : List ℕ
  alive : Bool
  deriving DecidableEq

/-- How `obus_socket_base_open` goes: without a socket, with one that cannot be set up, or with one
that can. -/
inductive Opening where
  | noSocket
  | notSet (fd : ℕ)
  | opened (fd : ℕ)
  deriving DecidableEq

/-- A descriptor that the kernel gives is not open already. -/
def Opening.Fresh (o : Opening) (c : SocketClient) : Prop :=
  match o with
  | .noSocket => True
  | .notSet fd => fd ∉ c.opened
  | .opened fd => fd ∉ c.opened

instance (o : Opening) (c : SocketClient) : Decidable (o.Fresh c) := by
  unfold Opening.Fresh
  cases o with
  | noSocket => exact inferInstanceAs (Decidable True)
  | notSet fd => exact inferInstanceAs (Decidable (fd ∉ c.opened))
  | opened fd => exact inferInstanceAs (Decidable (fd ∉ c.opened))

/-- How `connect` goes; a connection in progress is watched by the loop, unless `obus_loop_add`
fails. -/
inductive Connecting where
  | connected
  | inProgress
  | notAdded
  | failed
  deriving DecidableEq

/-- What a connection in progress comes to: an error event, or what `getsockopt` says, if anything.
-/
inductive ConnEvent where
  | fdError
  | noSockopt
  | sockopt (err : ℤ)
  deriving DecidableEq

/-! ## The functions -/

/-- `close` of the descriptor of the socket. -/
def closeFd (c : SocketClient) : SocketClient :=
  { c with fd := none, opened := c.fd.elim c.opened c.opened.erase }

/-- `obus_socket_base_close`. -/
def socketBaseClose (c : SocketClient) : SocketClient :=
  { closeFd c with used := false, connected := false }

/-- `obus_socket_base_open`; whether it succeeds. -/
def socketBaseOpen (o : Opening) (c : SocketClient) : Bool × SocketClient :=
  match o with
  | .noSocket => (false, c)
  | .notSet fd => (false, { c with opened := (fd :: c.opened).erase fd })
  | .opened fd => (true, { c with fd := some fd, opened := fd :: c.opened, connected := false })

/-- `obus_fd_init` of `sock.ofd`. -/
def socketFdInit (c : SocketClient) : SocketClient := { c with used := false }

/-- `obus_socket_client_connected`. -/
def socketClientConnected (c : SocketClient) : SocketClient := { c with connected := true }

/-- `obus_socket_client_events`. -/
def socketClientEvents (e : ConnEvent) (c : SocketClient) : SocketClient :=
  let c := { c with used := false }
  let err : ℤ :=
    match e with
    | .fdError => -1
    | .noSockopt => -1
    | .sockopt err => err
  if err = 0 then socketClientConnected c else { closeFd c with armed := true }

/-- `obus_socket_client_do_connect`. -/
def socketClientDoConnect (o : Opening) (k : Connecting) (c : SocketClient) : SocketClient :=
  match socketBaseOpen o c with
  | (false, c) => c
  | (true, c) =>
    let c := socketFdInit c
    match k with
    | .connected => socketClientConnected c
    | .inProgress => { c with used := true }
    -- the result of `obus_loop_add` is not looked at
    | .notAdded => c
    | .failed => { closeFd c with armed := true }

/-- `obus_socket_connect_timer_cb`. -/
def socketConnectTimerCb (o : Opening) (k : Connecting) (c : SocketClient) : SocketClient :=
  socketClientDoConnect o k { c with armed := false }

/-- `obus_socket_client_new`, where it succeeds. -/
def socketClientNew : SocketClient := ⟨none, false, true, false, [], true⟩

/-- `obus_socket_client_destroy`. -/
def socketClientDestroy (c : SocketClient) : SocketClient :=
  { socketBaseClose c with armed := false, alive := false }

/-- `obus_socket_client_reconnect`. -/
def socketClientReconnect (o : Opening) (c : SocketClient) : SocketClient :=
  match socketBaseOpen o (socketBaseClose { c with armed := false }) with
  | (false, c) => c
  | (true, c) => { socketFdInit c with armed := true }

/-! ## Runs -/

/-- What happens to a client: an expiry of its timer, an event of its descriptor, or a call of its
user. -/
inductive SocketAction where
  | timer (o : Opening) (k : Connecting)
  | event (e : ConnEvent)
  | reconnect (o : Opening)
  | destroy
  deriving DecidableEq

/-- One action, where it is possible. -/
def socketStep (c : SocketClient) (a : SocketAction) : Option SocketClient :=
  if c.alive then
    match a with
    | .timer o k => if c.armed ∧ o.Fresh c then some (socketConnectTimerCb o k c) else none
    | .event e => if c.used then some (socketClientEvents e c) else none
    | .reconnect o => if o.Fresh (socketBaseClose c) then some (socketClientReconnect o c) else none
    | .destroy => some (socketClientDestroy c)
  else none

/-- No descriptor is lost: what is open is the descriptor of the socket, and nothing after the end.
-/
def SocketClient.Conserved (c : SocketClient) : Prop :=
  c.opened = c.fd.toList ∧ (c.alive = false → c.opened = [])

/-- There is a way to a connection: it is there, or in progress, or the timer is set. -/
def SocketClient.Reconnectable (c : SocketClient) : Prop :=
  c.alive = true → c.connected = true ∨ c.used = true ∨ c.armed = true

/-- No socket is opened over another one when the timer expires. -/
def OpensOnce (c : SocketClient) : SocketAction → Prop
  | .timer (.opened _) _ => c.fd = none
  | _ => True

/-- A socket is opened where one is needed, and the loop takes it while its connection is in
progress. -/
def Opens (_ : SocketClient) : SocketAction → Prop
  | .timer (.opened _) k => k ≠ .notAdded
  | .timer _ _ => False
  | .reconnect (.opened _) => True
  | .reconnect _ => False
  | _ => True

/-! ## Steps -/

section Steps

variable {c c' : SocketClient} {a : SocketAction}

/-- What an action needs, and what it does. -/
def Performs (c : SocketClient) (a : SocketAction) (c' : SocketClient) : Prop :=
  match a with
  | .timer o k => c.armed = true ∧ o.Fresh c ∧ c' = socketConnectTimerCb o k c
  | .event e => c.used = true ∧ c' = socketClientEvents e c
  | .reconnect o => o.Fresh (socketBaseClose c) ∧ c' = socketClientReconnect o c
  | .destroy => c' = socketClientDestroy c

lemma socketStep_cases (h : socketStep c a = some c') : c.alive = true ∧ Performs c a c' := by
  by_cases halive : c.alive = true
  · refine ⟨halive, ?_⟩
    unfold socketStep at h
    rw [if_pos halive] at h
    cases a with
    | timer o k =>
      by_cases hcan : c.armed = true ∧ o.Fresh c
      · exact ⟨hcan.1, hcan.2, (Option.some.inj ((if_pos hcan).symm.trans h)).symm⟩
      · exact nomatch (if_neg hcan).symm.trans h
    | event e =>
      by_cases hcan : c.used = true
      · exact ⟨hcan, (Option.some.inj ((if_pos hcan).symm.trans h)).symm⟩
      · exact nomatch (if_neg hcan).symm.trans h
    | reconnect o =>
      by_cases hcan : o.Fresh (socketBaseClose c)
      · exact ⟨hcan, (Option.some.inj ((if_pos hcan).symm.trans h)).symm⟩
      · exact nomatch (if_neg hcan).symm.trans h
    | destroy => exact (Option.some.inj h).symm
  · unfold socketStep at h
    rw [if_neg halive] at h
    cases h

end Steps

/-! ## Descriptors -/

section Descriptors

variable {c c' : SocketClient} {a : SocketAction}

/-- Closing leaves nothing open. -/
lemma closeFd_opened (h : c.opened = c.fd.toList) : (closeFd c).opened = [] := by
  unfold closeFd
  rw [h]
  cases c.fd with
  | none => rfl
  | some fd => exact List.erase_cons_head fd []

lemma conserved_of_alive (halive : c.alive = true) (h : c.opened = c.fd.toList) : c.Conserved :=
  ⟨h, fun hdead => nomatch halive.symm.trans hdead⟩

/-- A connection that fails closes the only descriptor. -/
lemma conserved_failed (halive : c.alive = true) (h : c.opened = c.fd.toList) :
    SocketClient.Conserved { closeFd c with armed := true } :=
      conserved_of_alive halive (closeFd_opened h)

/-- A socket is opened where there is none. -/
lemma socketClientDoConnect_conserved {o : Opening} {k : Connecting} (halive : c.alive = true)
    (h : c.opened = c.fd.toList)
    (hopens : ∀ fd, o = .opened fd → c.fd = none) : (socketClientDoConnect o k c).Conserved := by
  cases o with
  | noSocket => exact conserved_of_alive halive h
  | notSet fd => exact conserved_of_alive halive ((List.erase_cons_head fd c.opened).trans h)
  | opened fd =>
    rw [hopens fd rfl] at h
    have hone : fd :: c.opened = [fd] := congrArg (fd :: ·) h
    cases k with
    | connected => exact conserved_of_alive halive hone
    | inProgress => exact conserved_of_alive halive hone
    | notAdded => exact conserved_of_alive halive hone
    | failed =>
      refine conserved_failed (c := socketFdInit (socketBaseOpen (.opened fd) c).2) halive ?_
      exact hone

/-- An action that does not open a socket over another one loses no descriptor. -/
lemma conserved_step (h : c.Conserved) (hopens : OpensOnce c a) (hstep : socketStep c a = some c') :
    c'.Conserved := by
  obtain ⟨halive, hperforms⟩ := socketStep_cases hstep
  obtain ⟨hopened, -⟩ := h
  have hclosed := closeFd_opened hopened
  cases a with
  | timer o k =>
    obtain ⟨-, -, rfl⟩ := hperforms
    refine socketClientDoConnect_conserved halive hopened fun fd ho => ?_
    subst ho
    exact hopens
  | event e =>
    obtain ⟨-, rfl⟩ := hperforms
    unfold socketClientEvents
    simp only
    split_ifs
    · exact conserved_of_alive halive hopened
    · exact conserved_failed (c := { c with used := false }) halive hopened
  | reconnect o =>
    obtain ⟨-, rfl⟩ := hperforms
    cases o with
    | noSocket => exact conserved_of_alive halive hclosed
    | notSet fd => exact conserved_of_alive halive ((List.erase_cons_head fd _).trans hclosed)
    | opened fd => exact conserved_of_alive halive (congrArg (fd :: ·) hclosed)
  | destroy =>
    cases hperforms
    exact ⟨hclosed, fun _ => hclosed⟩

/-- A socket that is opened over another one stays open, and is no longer the one of the client. -/
lemma not_conserved_step (h : c.Conserved) (hopens : ¬OpensOnce c a)
    (hstep : socketStep c a = some c') : ¬c'.Conserved := by
  obtain ⟨-, hperforms⟩ := socketStep_cases hstep
  obtain ⟨hopened, -⟩ := h
  cases a with
  | timer o k =>
    cases o with
    | noSocket => exact absurd trivial hopens
    | notSet fd => exact absurd trivial hopens
    | opened fd =>
      obtain ⟨old, hold⟩ := Option.ne_none_iff_exists'.mp hopens
      obtain ⟨-, -, rfl⟩ := hperforms
      rw [hold] at hopened
      rintro ⟨hone, -⟩
      have htwo : fd :: c.opened ≠ [fd] := by
        rw [hopened]
        simp
      cases k with
      | connected => exact htwo hone
      | inProgress => exact htwo hone
      | notAdded => exact htwo hone
      | failed =>
        have hnone : (fd :: c.opened).erase fd = [] := hone
        rw [List.erase_cons_head, hopened] at hnone
        cases hnone
  | event e => exact absurd trivial hopens
  | reconnect o => exact absurd trivial hopens
  | destroy => exact absurd trivial hopens

end Descriptors

/-- In a run, the open descriptors are always just the one of the socket exactly if no expiry of the
timer opens a socket over another one. -/
theorem conserved_iff {actions : List SocketAction} {c : SocketClient}
    (hrun : runs socketStep actions socketClientNew = some c) :
    Always socketStep SocketClient.Conserved actions socketClientNew ↔
      MeetsAll socketStep OpensOnce actions socketClientNew :=
  always_iff_meetsAll (fun _ h => h) (fun _ _ _ => conserved_step) (fun _ _ _ => not_conserved_step)
    ⟨rfl, fun hdead => nomatch hdead⟩ hrun

/-- A connection that is made at the second attempt, and ended. -/
def twoAttempts : List SocketAction :=
  [.timer (.opened 3) .failed, .timer (.opened 3) .inProgress, .event (.sockopt 0), .destroy]

theorem conserved_iff_twoAttempts :
    Always socketStep SocketClient.Conserved twoAttempts socketClientNew ↔
    MeetsAll socketStep OpensOnce twoAttempts socketClientNew :=
  conserved_iff (c := ⟨none, false, false, false, [], false⟩) (by decide)

/-- A client that connects, reconnects and connects again has two descriptors open. -/
theorem not_conserved_reconnect : ¬∀ (actions : List SocketAction) (c : SocketClient),
    runs socketStep actions socketClientNew = some c →
    Always socketStep SocketClient.Conserved actions socketClientNew := by
  intro h
  have hrun : runs socketStep [.timer (.opened 3) .connected, .reconnect (.opened 3),
      .timer (.opened 4) .connected]
      socketClientNew = some ⟨some 4, false, false, true, [4, 3], true⟩ := by decide
  have hopened := (h _ _ hrun _ List.prefix_rfl _ hrun).1
  cases hopened

/-! ## Ways to a connection -/

section Connections

variable {c c' : SocketClient} {a : SocketAction}

/-- There is exactly one way to a connection, as long as the client is there. -/
def OneWay (c : SocketClient) : Prop := c.alive = true →
  c.connected = true ∧ c.used = false ∧ c.armed = false ∨ c.connected = false ∧ c.used = true ∧
  c.armed = false ∨
    c.connected = false ∧ c.used = false ∧ c.armed = true

lemma reconnectable_of_oneWay (h : OneWay c) : c.Reconnectable := by
  intro halive
  rcases h halive with ⟨hconnected, -⟩ | ⟨-, hused, -⟩ | ⟨-, -, harmed⟩
  · exact Or.inl hconnected
  · exact Or.inr (Or.inl hused)
  · exact Or.inr (Or.inr harmed)

lemma OneWay.of_armed (h : OneWay c) (halive : c.alive = true) (harmed : c.armed = true) :
    c.connected = false ∧ c.used = false := by
  rcases h halive with ⟨-, -, hno⟩ | ⟨-, -, hno⟩ | ⟨hconnected, hused, -⟩
  · exact nomatch harmed.symm.trans hno
  · exact nomatch harmed.symm.trans hno
  · exact ⟨hconnected, hused⟩

lemma OneWay.of_used (h : OneWay c) (halive : c.alive = true) (hused : c.used = true) :
    c.connected = false ∧ c.armed = false := by
  rcases h halive with ⟨-, hno, -⟩ | ⟨hconnected, -, harmed⟩ | ⟨-, hno, -⟩
  · exact nomatch hused.symm.trans hno
  · exact ⟨hconnected, harmed⟩
  · exact nomatch hused.symm.trans hno

/-- Where a socket is opened, one way is left. -/
lemma oneWay_step (h : OneWay c) (hopens : Opens c a) (hstep : socketStep c a = some c') :
    OneWay c' := by
  obtain ⟨halive, hperforms⟩ := socketStep_cases hstep
  cases a with
  | timer o k =>
    obtain ⟨-, -, rfl⟩ := hperforms
    cases o with
    | noSocket => exact hopens.elim
    | notSet fd => exact hopens.elim
    | opened fd =>
      intro _
      cases k with
      | connected => exact Or.inl ⟨rfl, rfl, rfl⟩
      | inProgress => exact Or.inr (Or.inl ⟨rfl, rfl, rfl⟩)
      | notAdded => exact absurd rfl hopens
      | failed => exact Or.inr (Or.inr ⟨rfl, rfl, rfl⟩)
  | event e =>
    obtain ⟨hused, rfl⟩ := hperforms
    obtain ⟨hconnected, harmed⟩ := h.of_used halive hused
    intro _
    unfold socketClientEvents
    simp only
    split_ifs
    · exact Or.inl ⟨rfl, rfl, harmed⟩
    · exact Or.inr (Or.inr ⟨hconnected, rfl, rfl⟩)
  | reconnect o =>
    obtain ⟨-, rfl⟩ := hperforms
    cases o with
    | noSocket => exact hopens.elim
    | notSet fd => exact hopens.elim
    | opened fd => exact fun _ => Or.inr (Or.inr ⟨rfl, rfl, rfl⟩)
  | destroy =>
    cases hperforms
    exact fun hdead => nomatch hdead

/-- A client without a way. -/
lemma not_reconnectable (halive : c.alive = true) (hconnected : c.connected = false)
    (hused : c.used = false) (harmed : c.armed = false) : ¬c.Reconnectable := by
  intro h
  rcases h halive with hway | hway | hway
  · exact nomatch hconnected.symm.trans hway
  · exact nomatch hused.symm.trans hway
  · exact nomatch harmed.symm.trans hway

/-- Where no socket is opened, or the loop does not take it, no way is left. -/
lemma not_reconnectable_step (h : OneWay c) (hopens : ¬Opens c a)
    (hstep : socketStep c a = some c') : ¬c'.Reconnectable := by
  obtain ⟨halive, hperforms⟩ := socketStep_cases hstep
  cases a with
  | timer o k =>
    obtain ⟨harmed, -, rfl⟩ := hperforms
    obtain ⟨hconnected, hused⟩ := h.of_armed halive harmed
    cases o with
    | noSocket => exact not_reconnectable halive hconnected hused rfl
    | notSet fd => exact not_reconnectable halive hconnected hused rfl
    | opened fd =>
      obtain rfl : k = .notAdded := not_not.mp hopens
      exact not_reconnectable halive rfl rfl rfl
  | event e => exact absurd trivial hopens
  | reconnect o =>
    obtain ⟨-, rfl⟩ := hperforms
    cases o with
    | noSocket => exact not_reconnectable halive rfl rfl rfl
    | notSet fd => exact not_reconnectable halive rfl rfl rfl
    | opened fd => exact absurd trivial hopens
  | destroy => exact absurd trivial hopens

end Connections

/-- In a run, there is always a way to a connection exactly if each time a socket is needed, one is
opened, and the loop takes those whose connection is in progress. -/
theorem reconnectable_iff {actions : List SocketAction} {c : SocketClient}
    (hrun : runs socketStep actions socketClientNew = some c) :
    Always socketStep SocketClient.Reconnectable actions socketClientNew ↔
      MeetsAll socketStep Opens actions socketClientNew :=
  always_iff_meetsAll (I := OneWay) (fun _ => reconnectable_of_oneWay) (fun _ _ _ => oneWay_step)
    (fun _ _ _ => not_reconnectable_step) (fun _ => Or.inr (Or.inr ⟨rfl, rfl, rfl⟩)) hrun

theorem reconnectable_iff_twoAttempts :
    Always socketStep SocketClient.Reconnectable twoAttempts socketClientNew ↔
    MeetsAll socketStep Opens twoAttempts socketClientNew :=
  reconnectable_iff (c := ⟨none, false, false, false, [], false⟩) (by decide)

/-- A client whose timer expires when no socket can be opened. -/
theorem not_reconnectable_noSocket : ¬∀ (actions : List SocketAction) (c : SocketClient),
    runs socketStep actions socketClientNew = some c →
    Always socketStep SocketClient.Reconnectable actions socketClientNew := by
  intro h
  have hrun : runs socketStep [.timer .noSocket .failed] socketClientNew =
      some ⟨none, false, false, false, [], true⟩ := by
    decide
  rcases h _ _ hrun _ List.prefix_rfl _ hrun rfl with hway | hway | hway
  · cases hway
  · cases hway
  · cases hway

end Obus
