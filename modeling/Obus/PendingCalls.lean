import Mathlib.Data.List.AList
import Obus.Lib.Run

/-!
# Pending calls of the Java and Python clients

The clients of `Client.java` and `client.py` keep the calls that wait for their acknowledgement in a
table under the handle of the call.  Handles come from a counter that starts again at 1.  An
acknowledgement callback may submit calls; between the beginning and the end of a callback the
client is in the frame of the function that called it.

The callers see the submissions and the callbacks, which a log records.  A client is right if the
log shows one callback at most for each submission, with the status that was received for its handle
or because its object was removed, if every call that still waits is in the table, and if no
exception came out of the client (`Client.Right`).

A submission takes the next handle and overwrites a call that waits under it; in Java, a submission
from a callback of a removal invalidates the iterator of the removal.  Where neither happens, and no
call is submitted while it waits, the client stays right (`calls_complete_once`).
-/

namespace Obus

namespace Binding

/-- `MethodCallAck`, or `CallAck`. -/
inductive MethodCallAck where
  | invalid | acked | aborted | methodDisabled | methodNotSupported | invalidArguments | refused
  deriving DecidableEq, Repr

/-- The client of `Client.java`, or the one of `client.py`. -/
inductive Language where
  | java | python
  deriving DecidableEq, Repr

/-- What the callers of a client see. -/
inductive CallEvent where
  | submitted (call handle : ℕ)
  /-- The acknowledgement callback; without a handle the object of the call was removed. -/
  | acked (call : ℕ) (received : Option ℕ) (ack : MethodCallAck)
  deriving DecidableEq, Repr

/-- The function whose acknowledgement callback runs. -/
inductive Frame where
  | idle
  /-- `recvAck`, for a call. -/
  | acking (call : ℕ)
  /-- `removePendingCalls` of Java, for an object, with the keys that its iterator has still to
  visit, the key at which it is, and the modification count that it expects. -/
  | iterating (obj : ℕ) (keys : List ℕ) (key expected : ℕ)
  /-- `_removePendingCalls` of Python, for an object, with the rest of the copied list of calls. -/
  | walking (obj : ℕ) (calls : List ℕ) (call : ℕ)
  deriving DecidableEq

/-- The table of pending calls: from handles to calls. -/
abbrev CallTable := AList fun _ : ℕ => ℕ

/-- A client, as far as its pending calls go. -/
structure Client where
  handleCall : ℕ := 1
  pendingCalls : CallTable := ∅
  /-- The member `handle` of each call. -/
  handle : ℕ → ℕ := fun _ => 0
  /-- How often a key was put into the table or removed from it. -/
  modCount : ℕ := 0
  frame : Frame := .idle
  log : List CallEvent := []
  /-- An exception came out of the client because of the table. -/
  raised : Bool := false

/-- The order in which a table is iterated. -/
structure MapOrder where
  keys : CallTable → List ℕ
  perm : ∀ t, (keys t).Perm t.keys

/-! ## The functions of the clients -/

/-- Put a call into the table under a key. -/
def put (k c : ℕ) (s : Client) : Client :=
  { s with
    pendingCalls := s.pendingCalls.insert k c
    modCount := if k ∈ s.pendingCalls then s.modCount else s.modCount + 1 }

/-- Remove a key from the table. -/
def remove (k : ℕ) (s : Client) : Client :=
  { s with
    pendingCalls := s.pendingCalls.erase k
    modCount := if k ∈ s.pendingCalls then s.modCount + 1 else s.modCount }

/-- The counter starts again at 1. -/
def wrapHandle (h : ℕ) : ℕ := if 65536 ≤ h then 1 else h

/-- The handle that the next call gets. -/
def nextHandle (s : Client) : ℕ := wrapHandle (s.handleCall + 1)

/-- The beginning of `callBusMethod` and `sendMethodCall`: the call gets a handle and is put into
the table. -/
def enter (c : ℕ) (s : Client) : Client :=
  { put (nextHandle s) c s with
    handleCall := nextHandle s, handle := Function.update s.handle c (nextHandle s) }

/-- `callBusMethod` of Java. -/
def callBusMethod (c : ℕ) (s : Client) : Client :=
  { enter c s with log := s.log ++ [.submitted c (nextHandle s)] }

/-- `sendMethodCall` of Python: a call that cannot be encoded is taken out of the table again. -/
def sendMethodCall (c : ℕ) (encodes : Bool) (s : Client) : Client :=
  if encodes then { enter c s with log := s.log ++ [.submitted c (nextHandle s)] }
  else remove ((enter c s).handle c) (enter c s)

/-- `recvAck` and `_recvAck`, up to the callback. -/
def recvAck (h : ℕ) (a : MethodCallAck) (s : Client) : Client :=
  match s.pendingCalls.lookup h with
  | none => s
  | some c => { s with log := s.log ++ [.acked c (some h) a], frame := .acking c }

section Removals

variable (objOf : ℕ → ℕ)

/-- The loop of `removePendingCalls` of Java, up to the next callback. -/
def visitKeys (obj : ℕ) (s : Client) : List ℕ → Client
  | [] => { s with frame := .idle }
  | k :: keys =>
    match s.pendingCalls.lookup k with
    | none => visitKeys obj s keys
    | some c =>
      if objOf c = obj then
        { s with
          log := s.log ++ [.acked c none .aborted], frame := .iterating obj keys k s.modCount }
      else visitKeys obj s keys

/-- The loop of `_removePendingCalls` of Python, up to the next callback. -/
def visitCalls (obj : ℕ) (s : Client) : List ℕ → Client
  | [] => { s with frame := .idle }
  | c :: calls =>
    if objOf c = obj then { s with
      log := s.log ++ [.acked c none .aborted], frame := .walking obj calls c }
    else visitCalls obj s calls

/-- What a client does when the callback returns. -/
def callbackReturns (lang : Language) (s : Client) : Option Client :=
  match s.frame with
  | .idle => none
  | .acking c =>
    -- Java removes a key that may be absent, Python raises a `KeyError`
    if lang = .java ∨ s.handle c ∈ s.pendingCalls
      then some { remove (s.handle c) s with frame := .idle }
    else some { s with frame := .idle, raised := true }
  | .iterating obj keys k expected =>
    -- `it.remove()` raises a `ConcurrentModificationException`
    if s.modCount = expected then some (visitKeys objOf obj (remove k s) keys)
    else some { s with frame := .idle, raised := true }
  | .walking obj calls c =>
    -- `dispatchBusEvent` catches a `KeyError`
    if s.handle c ∈ s.pendingCalls then some (visitCalls objOf obj (remove (s.handle c) s) calls)
    else some { s with frame := .idle }

end Removals

/-- What is done with a client. -/
inductive CallInput where
  /-- A call is submitted, also by a callback; Python may not be able to encode it. -/
  | submit (call : ℕ) (encodes : Bool)
  /-- An ACK packet. -/
  | ack (handle : ℕ) (ack : MethodCallAck)
  /-- An object is removed: one of a REMOVE packet, of a bus event or, one after the other, of a
  disconnection. -/
  | remove (obj : ℕ)
  /-- The acknowledgement callback that runs returns. -/
  | finish
  deriving DecidableEq

section Runs

variable (lang : Language) (order : MapOrder) (objOf : ℕ → ℕ)

/-- A step of a client. -/
def step (s : Client) : CallInput → Option Client
  | .submit c encodes =>
    match lang with
    | .java => some (callBusMethod c s)
    | .python => some (sendMethodCall c encodes s)
  | .ack h a => if s.frame = .idle then some (recvAck h a s) else none
  | .remove obj =>
    if s.frame = .idle then
      match lang with
      | .java => some (visitKeys objOf obj s (order.keys s.pendingCalls))
      | .python =>
        some (visitCalls objOf obj s ((order.keys s.pendingCalls).filterMap s.pendingCalls.lookup))
    else none
  | .finish => callbackReturns objOf lang s

/-- A callback of a removal runs in Java. -/
def Frame.isIterating : Frame → Bool
  | .iterating .. => true
  | _ => false

/-- A call that is submitted gets a handle that no call in the table has and is not itself in the
table, and in Java no callback of a removal runs. -/
def Takes (s : Client) : CallInput → Prop
  | .submit c _ =>
    nextHandle s ∉ s.pendingCalls ∧ (∀ e ∈ s.pendingCalls.entries, e.2 ≠ c) ∧
    s.frame.isIterating = false
  | _ => True

instance (s : Client) : DecidablePred (Takes s)
  | .submit c _ => inferInstanceAs (Decidable (nextHandle s ∉ s.pendingCalls ∧
      (∀ e ∈ s.pendingCalls.entries, e.2 ≠ c) ∧ s.frame.isIterating = false))
  | .ack _ _ | .remove _ | .finish => .isTrue trivial

end Runs

/-! ## What the callers see -/

/-- The submissions that wait for their acknowledgement after an event, if it may happen: an
acknowledgement is for a call that waits, under the handle of the packet, or is `ABORTED`. -/
def waiting (o : List (ℕ × ℕ)) : CallEvent → Option (List (ℕ × ℕ))
  | .submitted c h => some ((c, h) :: o)
  | .acked c (some h) _ => if (c, h) ∈ o then some (o.erase (c, h)) else none
  | .acked c none a => if a = .aborted then (o.find? fun e => e.1 = c).map o.erase else none

/-- The submissions that wait at the end of a log. -/
def outstanding (log : List CallEvent) : Option (List (ℕ × ℕ)) := log.foldlM waiting []

/-- Each submission has had one callback at most, with the status that was received for its handle
or `ABORTED`; every call that waits is in the table under its handle; and no exception came out of
the client. -/
def Client.Right (s : Client) : Prop :=
  ∃ o, outstanding s.log = some o ∧
    (∀ e ∈ o, s.handle e.1 = e.2 ∧ s.pendingCalls.lookup (s.handle e.1) = some e.1) ∧
    s.raised = false

/-! ## The account of the table -/

/-- The table holds the submissions that wait, and the one whose callback runs. -/
structure Accounted (s : Client) (o busy : List (ℕ × ℕ)) : Prop where
  log : outstanding s.log = some o
  table : ∀ c h, s.pendingCalls.lookup h = some c ↔ (c, h) ∈ o ++ busy
  nodup : (o ++ busy).Nodup
  handle : ∀ e ∈ o ++ busy, s.handle e.1 = e.2
  raised : s.raised = false

lemma outstanding_append (log : List CallEvent) (e : CallEvent) :
    outstanding (log ++ [e]) = (outstanding log).bind fun o => waiting o e := by
  unfold outstanding
  rw [List.foldlM_append]
  cases log.foldlM waiting [] with
  | none => rfl
  | some o =>
    change (waiting o e).bind some = waiting o e
    cases waiting o e <;> rfl

section Account

variable {s : Client} {o busy : List (ℕ × ℕ)} {c k : ℕ}

lemma Accounted.right (hs : Accounted s o busy) : s.Right := by
  refine ⟨o, hs.log, fun e he => ?_, hs.raised⟩
  have hmem : (e.1, e.2) ∈ o ++ busy := List.mem_append_left _ he
  have hhandle : s.handle e.1 = e.2 := hs.handle e hmem
  refine ⟨hhandle, ?_⟩
  rw [hhandle]
  exact (hs.table _ _).mpr hmem

/-- A client at the start. -/
lemma accounted_start : Accounted {} [] [] := by
  refine ⟨rfl, fun c h => ?_, List.nodup_nil, fun _ he => absurd he List.not_mem_nil, rfl⟩
  exact iff_of_false (fun hlookup => nomatch hlookup) List.not_mem_nil

/-- A handle of the account is a key of the table. -/
lemma Accounted.mem (hs : Accounted s o busy) (he : (c, k) ∈ o ++ busy) : k ∈ s.pendingCalls := by
  rw [← AList.lookup_isSome, (hs.table c k).mpr he]
  rfl

/-- A call that is not in the table is not in the account. -/
lemma Accounted.not_mem (hs : Accounted s o busy)
    (hnew : ∀ e ∈ s.pendingCalls.entries, e.2 ≠ c) (k : ℕ) :
    (c, k) ∉ o ++ busy := fun he => hnew _ (AList.mem_lookup_iff.mp ((hs.table c k).mpr he)) rfl

/-- The handles of the calls of the account do not change when another call gets one. -/
lemma Accounted.handle_update (hs : Accounted s o busy)
    (hnew : ∀ e ∈ s.pendingCalls.entries, e.2 ≠ c) (h : ℕ) :
    ∀ e ∈ o ++ busy, Function.update s.handle c h e.1 = e.2 := by
  intro e he
  have hne : e.1 ≠ c := by
    rintro rfl
    exact hs.not_mem hnew e.2 he
  rw [Function.update_of_ne hne]
  exact hs.handle e he

/-- The submission of a call. -/
lemma Accounted.submit (hs : Accounted s o busy) (hfresh : nextHandle s ∉ s.pendingCalls)
    (hnew : ∀ e ∈ s.pendingCalls.entries, e.2 ≠ c) :
    Accounted (callBusMethod c s) ((c, nextHandle s) :: o) busy := by
  have hnot := hs.not_mem hnew (nextHandle s)
  refine ⟨?_, fun c' h => ?_, List.nodup_cons.mpr ⟨hnot, hs.nodup⟩, fun e he => ?_, hs.raised⟩
  · change outstanding (s.log ++ _) = _
    rw [outstanding_append, hs.log]
    rfl
  · change (s.pendingCalls.insert (nextHandle s) c).lookup h = some c' ↔
        (c', h) ∈ (c, nextHandle s) :: (o ++ busy)
    rw [List.mem_cons]
    by_cases hh : h = nextHandle s
    · rw [hh, AList.lookup_insert, Option.some_inj]
      constructor
      · exact fun heq => Or.inl (by rw [heq])
      · rintro (heq | hmem)
        · exact (congrArg Prod.fst heq).symm
        · exact absurd (hs.mem hmem) hfresh
    · rw [AList.lookup_insert_ne hh, hs.table]
      exact ⟨Or.inr, fun hmem => hmem.resolve_left fun heq => hh (congrArg Prod.snd heq)⟩
  · rcases List.mem_cons.mp he with rfl | he
    · exact Function.update_self ..
    · exact hs.handle_update hnew (nextHandle s) e he

/-- A call that cannot be encoded. -/
lemma Accounted.withdraw (hs : Accounted s o busy) (hfresh : nextHandle s ∉ s.pendingCalls)
    (hnew : ∀ e ∈ s.pendingCalls.entries, e.2 ≠ c) :
    Accounted (sendMethodCall c false s) o busy := by
  have hkey : (enter c s).handle c = nextHandle s := Function.update_self ..
  refine ⟨hs.log, fun c' h => ?_, hs.nodup, hs.handle_update hnew (nextHandle s), hs.raised⟩
  change ((s.pendingCalls.insert (nextHandle s) c).erase ((enter c s).handle c)).lookup h =
      some c' ↔ _
  rw [hkey]
  by_cases hh : h = nextHandle s
  · rw [hh, AList.lookup_erase]
    exact ⟨fun hnone => (nomatch hnone), fun hmem => absurd (hs.mem hmem) hfresh⟩
  · rw [AList.lookup_erase_ne hh, AList.lookup_insert_ne hh, hs.table]

/-- The callback of a call that waits. -/
lemma Accounted.call (hs : Accounted s o []) (hmem : (c, k) ∈ o) {e : CallEvent}
    (hevent : waiting o e = some (o.erase (c, k))) (f : Frame) :
    Accounted { s with log := s.log ++ [e], frame := f } (o.erase (c, k)) [(c, k)] := by
  have hperm : (o.erase (c, k) ++ [(c, k)]).Perm (o ++ []) := by
    rw [List.append_nil]
    exact (List.perm_append_comm).trans (List.perm_cons_erase hmem).symm
  refine ⟨?_, fun c' h => ?_, hperm.nodup_iff.mpr hs.nodup, fun e he => hs.handle e
    (hperm.mem_iff.mp he), hs.raised⟩
  · change outstanding (s.log ++ [e]) = _
    rw [outstanding_append, hs.log]
    exact hevent
  · exact (hs.table c' h).trans hperm.mem_iff.symm

/-- The end of a callback, when its call leaves the table. -/
lemma Accounted.remove (hs : Accounted s o [(c, k)]) : Accounted (Binding.remove k s) o [] := by
  obtain ⟨hnodup, -, hdisjoint⟩ := List.nodup_append'.mp hs.nodup
  have hkey : s.pendingCalls.lookup k = some c :=
    (hs.table c k).mpr (List.mem_append_right _ List.mem_cons_self)
  refine ⟨hs.log, fun c' h => ?_, ?_, fun e he => ?_, hs.raised⟩
  · change (s.pendingCalls.erase k).lookup h = some c' ↔ _
    rw [List.append_nil]
    by_cases hh : h = k
    · subst hh
      rw [AList.lookup_erase]
      refine ⟨fun hnone => (nomatch hnone), fun hmem => ?_⟩
      have hsame := (hs.table c' h).mpr (List.mem_append_left _ hmem)
      rw [hkey] at hsame
      rw [← Option.some.inj hsame] at hmem
      exact absurd List.mem_cons_self (hdisjoint hmem)
    · rw [AList.lookup_erase_ne hh, hs.table, List.mem_append, List.mem_singleton]
      exact ⟨fun hmem => hmem.resolve_right fun heq => hh (congrArg Prod.snd heq), Or.inl⟩
  · rw [List.append_nil]
    exact hnodup
  · rw [List.append_nil] at he
    exact hs.handle e (List.mem_append_left _ he)

/-- An acknowledgement for a call that waits under the handle of the packet. -/
lemma waiting_received (hmem : (c, k) ∈ o) (a : MethodCallAck) :
    waiting o (.acked c (some k) a) = some (o.erase (c, k)) := if_pos hmem

/-- An abortion of a call that waits. -/
lemma Accounted.waiting_aborted (hs : Accounted s o []) (hmem : (c, k) ∈ o) :
    waiting o (.acked c none .aborted) = some (o.erase (c, k)) := by
  obtain ⟨e, he⟩ : ∃ e, o.find? (fun e => e.1 = c) = some e := by
    rw [← Option.isSome_iff_exists, List.find?_isSome]
    exact ⟨(c, k), hmem, decide_eq_true rfl⟩
  have hcall : e.1 = c :=
    of_decide_eq_true (List.find?_some (p := fun e : ℕ × ℕ => decide (e.1 = c)) he)
  have hhandle : e.2 = k := by
    have hfirst := hs.handle e (List.mem_append_left _ (List.mem_of_find?_eq_some he))
    rw [hcall] at hfirst
    exact hfirst.symm.trans (hs.handle (c, k) (List.mem_append_left _ hmem))
  change (o.find? fun e => e.1 = c).map o.erase = _
  rw [he, ← hcall, ← hhandle]
  rfl

end Account

/-! ## The invariant -/

/-- A client whose table is in order, in each of its frames. -/
inductive Good (s : Client) : Prop where
  | idle (o : List (ℕ × ℕ)) (frame : s.frame = .idle) (account : Accounted s o [])
  | acking (o : List (ℕ × ℕ)) (c : ℕ) (frame : s.frame = .acking c)
    (account : Accounted s o [(c, s.handle c)])
  | iterating (o : List (ℕ × ℕ)) (obj : ℕ) (keys : List ℕ) (k c : ℕ)
    (frame : s.frame = .iterating obj keys k s.modCount) (account : Accounted s o [(c, k)])
  /-- The calls that are still to be visited wait. -/
  | walking (o : List (ℕ × ℕ)) (obj : ℕ) (calls : List ℕ) (c : ℕ)
    (frame : s.frame = .walking obj calls c)
    (account : Accounted s o [(c, s.handle c)]) (nodup : calls.Nodup)
    (waits : ∀ c' ∈ calls, (c', s.handle c') ∈ o)

lemma Good.right {s : Client} (hs : Good s) : s.Right := by
  cases hs with
  | idle _ _ account => exact account.right
  | acking _ _ _ account => exact account.right
  | iterating _ _ _ _ _ _ account => exact account.right
  | walking _ _ _ _ _ account => exact account.right

section Steps

variable {lang : Language} {order : MapOrder} {objOf : ℕ → ℕ} {s s' : Client} {o : List (ℕ × ℕ)}

/-- The iteration of Java, from an account without a callback. -/
lemma Accounted.visitKeys (hs : Accounted s o []) (obj : ℕ) (keys : List ℕ) :
    Good (Binding.visitKeys objOf obj s keys) := by
  induction keys with
  | nil => exact .idle o rfl ⟨hs.log, hs.table, hs.nodup, hs.handle, hs.raised⟩
  | cons k keys ih =>
    unfold Binding.visitKeys
    split
    · exact ih
    · next c hkey =>
      split
      · have hmem : (c, k) ∈ o := List.append_nil o ▸ (hs.table c k).mp hkey
        exact .iterating _ obj keys k c rfl (hs.call hmem (hs.waiting_aborted hmem) _)
      · exact ih

/-- The iteration of Python, over calls that wait. -/
lemma Accounted.visitCalls (hs : Accounted s o []) (obj : ℕ) {calls : List ℕ} (hnodup : calls.Nodup)
    (hwaits : ∀ c ∈ calls, (c, s.handle c) ∈ o) : Good (Binding.visitCalls objOf obj s calls) := by
  induction calls with
  | nil => exact .idle o rfl ⟨hs.log, hs.table, hs.nodup, hs.handle, hs.raised⟩
  | cons c calls ih =>
    obtain ⟨hc, hnodup⟩ := List.nodup_cons.mp hnodup
    have hrest : ∀ c' ∈ calls, (c', s.handle c') ∈ o :=
      fun c' hc' => hwaits c' (List.mem_cons_of_mem c hc')
    unfold Binding.visitCalls
    split
    · have hmem := hwaits c List.mem_cons_self
      refine .walking _ obj calls c rfl (hs.call hmem (hs.waiting_aborted hmem) _) hnodup
        fun c' hc' => ?_
      have hne : (c', s.handle c') ≠ (c, s.handle c) := by
        intro heq
        have hsame : c' = c := congrArg Prod.fst heq
        exact hc (hsame ▸ hc')
      exact (List.mem_erase_of_ne hne).mpr (hrest c' hc')
    · exact ih hnodup hrest

/-- The calls of the table, in the order of an iteration, wait. -/
lemma Accounted.values (hs : Accounted s o []) (order : MapOrder) :
    ((order.keys s.pendingCalls).filterMap s.pendingCalls.lookup).Nodup ∧
      ∀ c ∈ (order.keys s.pendingCalls).filterMap s.pendingCalls.lookup, (c, s.handle c) ∈ o := by
  have hkey : ∀ c k, s.pendingCalls.lookup k = some c → (c, k) ∈ o ∧ s.handle c = k := by
    intro c k hlookup
    have hmem := (hs.table c k).mp hlookup
    exact ⟨List.append_nil o ▸ hmem, hs.handle (c, k) hmem⟩
  have hkeys : (order.keys s.pendingCalls).Nodup :=
    (order.perm _).nodup_iff.mpr s.pendingCalls.keys_nodup
  refine ⟨hkeys.filterMap fun k k' c hk hk' => ?_, fun c hc => ?_⟩
  · exact (hkey c k hk).2.symm.trans (hkey c k' hk').2
  · obtain ⟨k, -, hlookup⟩ := List.mem_filterMap.mp hc
    obtain ⟨hmem, hhandle⟩ := hkey c k hlookup
    rwa [hhandle]

/-- An ACK packet, outside of callbacks. -/
lemma Accounted.recvAck (hs : Accounted s o []) (hframe : s.frame = .idle) (h : ℕ)
    (a : MethodCallAck) : Good (Binding.recvAck h a s) := by
  unfold Binding.recvAck
  split
  · exact .idle o hframe hs
  · next c hkey =>
    have hmem := (hs.table c h).mp hkey
    have hhandle : s.handle c = h := hs.handle (c, h) hmem
    rw [List.append_nil] at hmem
    refine .acking (o.erase (c, h)) c rfl ?_
    change Accounted _ _ [(c, s.handle c)]
    rw [hhandle]
    exact hs.call hmem (waiting_received hmem a) _

/-- The return of a callback. -/
lemma Good.callbackReturns (hs : Good s) (hstep : Binding.callbackReturns objOf lang s = some s') :
    Good s' := by
  unfold Binding.callbackReturns at hstep
  cases hs with
  | idle o frame account =>
    simp only [frame] at hstep
    cases hstep
  | acking o c frame account =>
    have hkey := account.mem (List.mem_append_right _ List.mem_cons_self)
    simp only [frame, hkey, or_true, if_true] at hstep
    cases hstep
    have hleft := account.remove
    exact .idle o rfl ⟨hleft.log, hleft.table, hleft.nodup, hleft.handle, hleft.raised⟩
  | iterating o obj keys k c frame account =>
    simp only [frame, if_true] at hstep
    cases hstep
    exact account.remove.visitKeys obj keys
  | walking o obj calls c frame account nodup waits =>
    have hkey := account.mem (List.mem_append_right _ List.mem_cons_self)
    simp only [frame, hkey, if_true] at hstep
    cases hstep
    exact account.remove.visitCalls obj nodup waits

/-- The submission of a call, in a callback or outside. -/
lemma Good.submit (hs : Good s) {c : ℕ} {encodes : Bool} (htakes : Takes s (.submit c encodes)) :
    Good (callBusMethod c s) ∧ Good (sendMethodCall c encodes s) := by
  obtain ⟨hfresh, hnew, hframe⟩ := htakes
  have hother : ∀ {o busy c' h}, Accounted s o busy → (c', h) ∈ o ++ busy →
      Function.update s.handle c (nextHandle s) c' = s.handle c' := by
    intro o busy c' h account hmem
    refine Function.update_of_ne ?_ ..
    rintro rfl
    exact account.not_mem hnew h hmem
  -- the two ways of a submission change the account, and leave the frame
  suffices hgood : ∀ t : Client, t.frame = s.frame →
      t.handle = Function.update s.handle c (nextHandle s) →
      (∀ {o busy}, Accounted s o busy → ∃ o', o ⊆ o' ∧ Accounted t o' busy) → Good t by
    refine ⟨hgood _ rfl rfl fun account =>
      ⟨_, List.subset_cons_self .., account.submit hfresh hnew⟩, ?_⟩
    cases encodes with
    | true =>
      exact hgood _ rfl rfl fun account => ⟨_, List.subset_cons_self .., account.submit hfresh hnew⟩
    | false =>
      exact hgood _ rfl rfl fun account => ⟨_, List.Subset.refl _, account.withdraw hfresh hnew⟩
  intro t htframe hthandle haccount
  cases hs with
  | idle o frame account =>
    obtain ⟨o', -, account'⟩ := haccount account
    exact .idle o' (htframe.trans frame) account'
  | acking o c' frame account =>
    obtain ⟨o', -, account'⟩ := haccount account
    refine .acking o' c' (htframe.trans frame) ?_
    rw [hthandle, hother account (List.mem_append_right _ List.mem_cons_self)]
    exact account'
  | iterating o obj keys k c' frame account =>
    rw [frame] at hframe
    cases hframe
  | walking o obj calls c' frame account nodup waits =>
    obtain ⟨o', hsub, account'⟩ := haccount account
    refine .walking o' obj calls c' (htframe.trans frame) ?_ nodup fun c'' hc'' => ?_
    · rw [hthandle, hother account (List.mem_append_right _ List.mem_cons_self)]
      exact account'
    · rw [hthandle, hother account (List.mem_append_left _ (waits c'' hc''))]
      exact hsub (waits c'' hc'')

/-- A step in which a submitted call takes a handle of its own. -/
lemma Good.step (hs : Good s) {a : CallInput} (htakes : Takes s a)
    (hstep : Binding.step lang order objOf s a = some s') : Good s' := by
  have hidle : s.frame = .idle → ∃ o, Accounted s o [] := by
    intro hframe
    cases hs with
    | idle o _ account => exact ⟨o, account⟩
    | acking _ _ frame => cases frame.symm.trans hframe
    | iterating _ _ _ _ _ frame => cases frame.symm.trans hframe
    | walking _ _ _ _ frame => cases frame.symm.trans hframe
  cases a with
  | submit c encodes =>
    cases lang with
    | java =>
      cases hstep
      exact (hs.submit htakes).1
    | python =>
      cases hstep
      exact (hs.submit htakes).2
  | ack h ack =>
    simp only [Binding.step] at hstep
    split at hstep
    · next hframe =>
      cases hstep
      obtain ⟨o, account⟩ := hidle hframe
      exact account.recvAck hframe h ack
    · cases hstep
  | remove obj =>
    simp only [Binding.step] at hstep
    split at hstep
    · next hframe =>
      obtain ⟨o, account⟩ := hidle hframe
      cases lang with
      | java =>
        cases hstep
        exact account.visitKeys obj _
      | python =>
        cases hstep
        exact account.visitCalls obj (account.values order).1 (account.values order).2
    · cases hstep
  | finish => exact hs.callbackReturns hstep

end Steps

/-- In every run of either client in which each submitted call takes a handle that no call of the
table has, and is not itself in the table, and in which no callback of a removal submits a call in
Java, every call completes at most once and waits in the table until then. -/
theorem calls_complete_once (lang : Language) (order : MapOrder) (objOf : ℕ → ℕ)
    {inputs : List CallInput} {s : Client}
    (htakes : MeetsAll (step lang order objOf) Takes inputs {})
    (hrun : runs (step lang order objOf) inputs {} = some s) : s.Right := by
  have hgood := runs_invariant (fun _ _ _ hs htakes hstep => Good.step hs htakes hstep)
    (Good.idle [] rfl accounted_start) htakes hrun
  exact hgood.right

/-- A table is iterated from its last key on. -/
def keyOrder : MapOrder := ⟨AList.keys, fun _ => .refl _⟩

/-- Two calls of an object, of which one is acknowledged, with another call from the callback; then
the object is removed, and a call is submitted afterwards. -/
def twoCalls : List CallInput :=
  [.submit 0 true, .submit 1 true, .ack 2 .acked, .submit 2 true, .finish, .remove 5, .finish,
    .finish, .submit 3 true]

theorem calls_complete_once_twoCalls :
    ∃ s, runs (step .java keyOrder fun _ => 5) twoCalls {} = some s ∧ s.log.length = 7 ∧
    s.Right := by
  obtain ⟨s, hrun, hlog⟩ : ∃ s, runs (step .java keyOrder fun _ => 5) twoCalls {} = some s ∧
    s.log.length = 7 :=
    ⟨_, rfl, rfl⟩
  exact ⟨s, hrun, hlog, calls_complete_once .java keyOrder (fun _ => 5) (by decide) hrun⟩

/-! ## Handles that come again -/

/-- A call with a handle, which is acknowledged at once. -/
def round (h : ℕ) : List CallInput := [.submit h true, .ack h .acked, .finish]

section Rounds

variable {lang : Language} {order : MapOrder} {objOf : ℕ → ℕ} {s : Client}

/-- A client in which call 0 waits under handle 2, and no callback runs. -/
structure FirstWaits (s : Client) (h : ℕ) : Prop where
  account : Accounted s [(0, 2)] []
  frame : s.frame = .idle
  next : nextHandle s = h

lemma step_submit (c : ℕ) :
    step lang order objOf s (.submit c true) = some (callBusMethod c s) := by
  cases lang <;> rfl

/-- A round leaves the first call where it is. -/
lemma FirstWaits.round {h : ℕ} (hs : FirstWaits s h) (hne : h ≠ 2) (hpos : h ≠ 0) :
    ∃ s', runs (step lang order objOf) (Binding.round h) s = some s' ∧
      FirstWaits s' (wrapHandle (h + 1)) := by
  obtain ⟨account, frame, rfl⟩ := hs
  have honly : ∀ {c k}, s.pendingCalls.lookup k = some c → c = 0 ∧ k = 2 := fun hkey =>
    Prod.mk.inj (List.mem_singleton.mp ((account.table _ _).mp hkey))
  have hfresh : nextHandle s ∉ s.pendingCalls := by
    intro hmem
    obtain ⟨c, hc⟩ := Option.isSome_iff_exists.mp (AList.lookup_isSome.mpr hmem)
    exact hne (honly hc).2
  have hnew : ∀ e ∈ s.pendingCalls.entries, e.2 ≠ nextHandle s := fun e he heq =>
    hpos (heq.symm.trans (honly (AList.mem_lookup_iff.mpr he)).1)
  generalize hh : nextHandle s = h at hne hpos hfresh hnew ⊢
  have hsubmit := hh ▸ account.submit (hh.symm ▸ hfresh) hnew
  have hmem : (h, h) ∈ [(h, h), (0, 2)] := List.mem_cons_self
  have hkey : (callBusMethod h s).pendingCalls.lookup h = some h := (hsubmit.table h h).mpr hmem
  have hcalled := hsubmit.call hmem (waiting_received hmem .acked) (.acking h)
  rw [List.erase_cons_head] at hcalled
  let called : Client :=
    { callBusMethod h s with
      log := (callBusMethod h s).log ++ [.acked h (some h) .acked]
      frame := .acking h }
  have hhandle : called.handle h = h :=
    hcalled.handle (h, h) (List.mem_append_right _ List.mem_cons_self)
  have hleft := hcalled.remove
  refine ⟨{ remove h called with frame := .idle }, ?_,
    ⟨hleft.log, hleft.table, hleft.nodup, hleft.handle, hleft.raised⟩, rfl, ?_⟩
  · have hack : step lang order objOf (callBusMethod h s) (.ack h .acked) = some called := by
      have hrecv : recvAck h .acked (callBusMethod h s) = called := by
        unfold recvAck
        rw [hkey]
      rw [← hrecv]
      exact if_pos frame
    have hfinish : step lang order objOf called .finish =
        some { remove h called with frame := .idle } := by
      have hin : lang = .java ∨ called.handle h ∈ called.pendingCalls := by
        rw [hhandle]
        exact Or.inr (hcalled.mem (List.mem_append_right _ List.mem_cons_self))
      have hreturn : step lang order objOf called .finish =
          some { remove (called.handle h) called with frame := .idle } := if_pos hin
      rw [hreturn, hhandle]
    exact runs_cons.mpr ⟨_, step_submit h, runs_cons.mpr ⟨_, hack, runs_cons.mpr ⟨_, hfinish, rfl⟩⟩⟩
  · change wrapHandle (nextHandle s + 1) = _
    rw [hh]

/-- Rounds with the handles from one on, up to the last. -/
lemma FirstWaits.rounds (n : ℕ) {h : ℕ} (hs : FirstWaits s (wrapHandle h)) (hlow : 2 < h)
    (hhigh : h + n ≤ 65536) :
    ∃ s', runs (step lang order objOf) ((List.range' h n).flatMap Binding.round) s = some s' ∧
      FirstWaits s' (wrapHandle (h + n)) := by
  induction n generalizing h s with
  | zero => exact ⟨s, rfl, hs⟩
  | succ n ih =>
    have hwrap : wrapHandle h = h := if_neg (by omega)
    rw [hwrap] at hs
    have hround : ∃ s', runs (step lang order objOf) (Binding.round h) s = some s' ∧ _ :=
      hs.round (by omega) (by omega)
    obtain ⟨s₁, hfirst, hs₁⟩ := hround
    obtain ⟨s', hrest, hs'⟩ := ih hs₁ (by omega) (by omega)
    refine ⟨s', ?_, ?_⟩
    · rw [List.range'_succ, List.flatMap_cons]
      exact runs_append.mpr ⟨s₁, hfirst, hrest⟩
    · rwa [Nat.add_right_comm] at hs'

end Rounds

/-- The first call waits while each handle is given to a call, until its own comes again. -/
def wholeRound : List CallInput :=
  [.submit 0 true] ++ ((List.range' 3 65533).flatMap round ++ (round 1 ++ [.submit 65536 true]))

/-- A call that is submitted after all handles takes the one of a call that still waits; a Java
callback of a removal that submits a call makes an exception come out of the client; and a call that
is submitted again by its own callback is taken out of the table. -/
theorem calls_not_complete_once :
    (∀ lang order objOf, ∃ s, runs (step lang order objOf) wholeRound {} = some s ∧ ¬s.Right) ∧
      (∃ s, runs (step .java keyOrder fun _ => 5) [.submit 0 true, .remove 5, .submit 1 true,
        .finish] {} = some s ∧
        s.raised = true ∧ ¬s.Right) ∧
      ∀ lang, ∃ s, runs (step lang keyOrder fun _ => 5) [.submit 0 true, .ack 2 .refused,
        .submit 0 true, .finish] {} =
        some s ∧ ¬s.Right := by
  refine ⟨fun lang order objOf => ?_, ⟨_, rfl, rfl, fun hright => ?_⟩, fun lang => ?_⟩
  · have hfirst : FirstWaits (callBusMethod 0 {}) (wrapHandle 3) :=
      ⟨accounted_start.submit (AList.notMem_empty _) fun _ he =>
        absurd he List.not_mem_nil, rfl, rfl⟩
    have hrounds : ∃ s, runs (step lang order objOf) ((List.range' 3 65533).flatMap round)
        (callBusMethod 0 {}) = some s ∧ _ :=
      hfirst.rounds 65533 (by decide) (by decide)
    obtain ⟨s₁, hrounds, hs₁⟩ := hrounds
    have hround : ∃ s, runs (step lang order objOf) (round 1) s₁ = some s ∧ _ :=
      hs₁.round (by decide) (by decide)
    obtain ⟨s₂, hround, hs₂⟩ := hround
    refine ⟨callBusMethod 65536 s₂, ?_, ?_⟩
    · refine runs_append.mpr ⟨_, runs_cons.mpr ⟨_, step_submit 0, rfl⟩,
        runs_append.mpr ⟨s₁, hrounds, ?_⟩⟩
      exact runs_append.mpr ⟨s₂, hround, runs_cons.mpr ⟨_, step_submit 65536, rfl⟩⟩
    · rintro ⟨o, hlog, hwaits, -⟩
      have hnext : nextHandle s₂ = 2 := hs₂.next
      have hlog' : outstanding (callBusMethod 65536 s₂).log =
          some [(65536, nextHandle s₂), (0, 2)] := by
        change outstanding (s₂.log ++ _) = _
        rw [outstanding_append, hs₂.account.log]
        rfl
      rw [hlog'] at hlog
      cases hlog
      obtain ⟨hhandle, hkey⟩ := hwaits (0, 2) (List.mem_cons_of_mem _ List.mem_cons_self)
      rw [hhandle] at hkey
      change (s₂.pendingCalls.insert (nextHandle s₂) 65536).lookup 2 = some 0 at hkey
      rw [hnext, AList.lookup_insert] at hkey
      cases hkey
  · obtain ⟨-, -, -, hraised⟩ := hright
    cases hraised
  · have hlost : ∀ s : Client, outstanding s.log = some [(0, 3)] → s.pendingCalls.lookup 3 = none →
        ¬s.Right := by
      rintro s hlog hnone ⟨o, hwait, hwaits, -⟩
      rw [hlog] at hwait
      cases hwait
      obtain ⟨hhandle, hkey⟩ := hwaits (0, 3) List.mem_cons_self
      rw [hhandle, hnone] at hkey
      cases hkey
    cases lang with
    | java => exact ⟨_, rfl, hlost _ rfl rfl⟩
    | python => exact ⟨_, rfl, hlost _ rfl rfl⟩

end Binding

end Obus
