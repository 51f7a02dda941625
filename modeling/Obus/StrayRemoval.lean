import Obus.Disconnection

/-!
# Removals of what is not there

A removal brings the uid and the handle of an object.  It is stray when the bytes end before, when
no object has the handle, or when the object that has it is of another type (`Bus.Stray`).

`obus_object_remove_decode` reads the uid but compares it with nothing, and gives back no object for
every failure.  The decoder of a bus event leaves out what it gives back as no object, but that of a
removal packet passes it on, and `obus_client_remove_object` takes no object as all objects.  A
stray removal changes nothing exactly if it stands in a bus event and its handle is unknown
(`stray_removal_ignored_iff`).
-/

namespace Obus

open Prog

/-! ## Stray removals -/

/-- The uid and the handle of a removal, absent when the bytes end before. -/
def removalHead (b : Buffer) : Option (UInt16 × UInt16) :=
  ((do let uid ← readU16; let handle ← readU16; pure (uid, handle) : Dec _).on b).1.toOption

/-- A removal names no object of its type: it is truncated, or no object of the bus has its handle,
or the one that has it is of another type. -/
def Bus.Stray (bus : Bus) (head : Option (UInt16 × UInt16)) : Prop :=
  ∀ uid handle, head = some (uid, handle) → ∀ o, bus.object? handle = some o → o.desc.uid ≠ uid

/-- A removal is truncated, or no object of the bus has its handle. -/
def Bus.Unknown (bus : Bus) (head : Option (UInt16 × UInt16)) : Prop :=
  ∀ uid handle, head = some (uid, handle) → bus.object? handle = none

/-- The removals that a bus event announces, as far as `obus_bus_event_decode` has read `n` of them.
-/
def removalsRead (bus : Bus) (b : Buffer) (n : ℕ) : List ObjectRef :=
  match ((decodeMany (objectRemoveDecode bus) n).on b).1 with
  | .ok refs => refs
  | .error _ => []

/-- Where a client meets a removal: in a packet of its own, or behind `k` others in a bus event. -/
inductive RemovalSite where
  | packet
  | busEvent (desc : BusEventDesc) (addObjs : List Object) (objEvents : List Event) (k : ℕ)

namespace RemovalSite

/-- The buffer when the removal is read, where `b` is the buffer at the first removal. -/
def buffer (bus : Bus) (b : Buffer) : RemovalSite → Buffer
  | packet => b
  | busEvent _ _ _ k => ((decodeMany (objectRemoveDecode bus) k).on b).2

/-- What a client makes of a packet, with what it announces. -/
def handle (providers : UInt16 → Bool) (c : Client) (info : PacketInfo) : WatchedClient :=
  (c.packet info, c.stepAnnounces providers (.packet info))

/-- A client, with what it announces, up to the removal. -/
def before (providers : UInt16 → Bool) (c : Client) (b : Buffer) : RemovalSite → WatchedClient
  | packet => (c, [])
  | busEvent desc addObjs objEvents k =>
    handle providers c (.busEvent ⟨desc, addObjs, removalsRead c.bus b k, objEvents⟩)

/-- A client, with what it announces, up to the removal and with it. -/
def after (providers : UInt16 → Bool) (c : Client) (b : Buffer) : RemovalSite → WatchedClient
  | packet =>
    match ((packetDecode c.bus .remove).on b).1 with
    | .ok info => handle providers c info
    | .error _ => (c, [])
  | busEvent desc addObjs objEvents k =>
    handle providers c (.busEvent ⟨desc, addObjs, removalsRead c.bus b (k + 1), objEvents⟩)

end RemovalSite

/-- Between two states of a client no object and no call has changed, no call was notified, nothing
was announced, and no absent object was used. -/
structure Ignored (w w' : WatchedClient) : Prop where
  registered : w'.1.bus.registered = w.1.bus.registered
  calls : w'.1.calls = w.1.calls
  callsHash : w'.1.callsHash = w.1.callsHash
  notified : w'.1.notified = w.1.notified
  announced : w'.2 = w.2
  present : w'.1.fault = false

/-! ## What the decoders make of a removal -/

/-- The object of a removal is looked up by the handle alone. -/
def removalObject (bus : Bus) (b : Buffer) : Option ObjectRef :=
  (removalHead b).bind fun head => (bus.object? head.2).map Object.ref

lemma objectRemoveDecode_fst (bus : Bus) (b : Buffer) :
    ((objectRemoveDecode bus).on b).1 = .ok (removalObject bus b) := by
  have hattempt := run_attempt readHandler
    (do let uid ← readU16; let handle ← readU16; pure (uid, handle) : Dec (UInt16 × UInt16)) b
  rw [Dec.on, objectRemoveDecode, run_bind, hattempt]
  unfold removalObject removalHead Dec.on
  rcases Prog.run readHandler
    (do let uid ← readU16; let handle ← readU16; pure (uid, handle) : Dec (UInt16 × UInt16)) b
    with ⟨e | ⟨uid, handle⟩, b'⟩ <;> rfl

/-- The decoding of the removals of a bus event never fails. -/
lemma decodeMany_remove (bus : Bus) (b : Buffer) (n : ℕ) :
    ((decodeMany (objectRemoveDecode bus) n).on b).1 = .ok (removalsRead bus b n) ∧
      removalsRead bus b (n + 1) = removalsRead bus b n ++
        (removalObject bus ((decodeMany (objectRemoveDecode bus) n).on b).2).toList := by
  have hround : ∀ (refs : List ObjectRef) (b : Buffer),
      ((do pure (refs ++ (← objectRemoveDecode bus).toList) : Dec (List ObjectRef)).on b).1 =
        .ok (refs ++ (removalObject bus b).toList) := by
    intro refs b
    have hdecode := objectRemoveDecode_fst bus b
    rw [Dec.on] at hdecode ⊢
    rw [run_bind]
    rcases hrun : Prog.run readHandler (objectRemoveDecode bus) b with ⟨r, b'⟩
    rw [hrun] at hdecode
    obtain rfl := hdecode
    rfl
  have hnext : ∀ (n : ℕ) (refs : List ObjectRef) (b' : Buffer),
      (decodeMany (objectRemoveDecode bus) n).on b = (.ok refs, b') →
      ((decodeMany (objectRemoveDecode bus) (n + 1)).on b).1 =
        .ok (refs ++ (removalObject bus b').toList) := by
    intro n refs b' hrun
    rw [Dec.on, decodeMany, run_iter_succ]
    exact (congrArg Prod.fst (run_bind_ok _ hrun)).trans (hround refs b')
  have hok : ∃ refs b', (decodeMany (objectRemoveDecode bus) n).on b = (.ok refs, b') := by
    induction n with
    | zero => exact ⟨[], b, rfl⟩
    | succ n ih =>
      obtain ⟨refs, b', hrun⟩ := ih
      exact ⟨_, _, Prod.ext (hnext n refs b' hrun) rfl⟩
  obtain ⟨refs, b', hrun⟩ := hok
  have hread : removalsRead bus b n = refs := by rw [removalsRead, hrun]
  refine ⟨by rw [hrun, hread], ?_⟩
  rw [removalsRead, hnext n refs b' hrun, hread, hrun]

/-! ## What the client makes of a removal -/

namespace Client

variable {c : Client}

/-- Removing an object changes the objects, or uses an object that is not there. -/
lemma Steady.removeObject_changes (h : Steady c) (r : ObjectRef) :
    (c.removeObject (some r)).fault = true ∨ (c.removeObject (some r)).bus.registered ≠
      c.bus.registered := by
  obtain ⟨hbus, -⟩ := c.abortCall_frame (some r.handle)
  cases hfound : c.bus.object? r.handle with
  | none =>
    left
    simp only [Client.removeObject, Option.map_some, hbus, hfound, Option.isNone_none, if_true]
  | some o =>
    right
    have hflag : isRegistered r.handle c.bus = true :=
      Bus.Ok.isRegistered_iff.mpr ⟨o, hfound, h.all _ o hfound⟩
    have hhandle := Bus.object?_handle hfound
    have hmem : o ∈ c.bus.registered := by
      rw [Bus.mem_registered, hhandle]
      exact ⟨(h.bus.flags _).mpr hflag, hfound⟩
    obtain ⟨-, hreg, -⟩ := remove_spec (h := r.handle) h.bus
    have heq : (c.removeObject (some r)).bus = busRemoveObject r.handle
        (busUnregisterObject r.handle c.bus) := by
      simp only [Client.removeObject, Option.map_some, hbus, hfound, Option.isNone_some,
        Bool.false_eq_true, if_false]
    intro hsame
    rw [heq, hreg] at hsame
    rw [← hsame] at hmem
    simpa [hhandle] using (List.mem_filter.mp hmem).2

/-- After a run a client has faulted or is at rest. -/
lemma resting_of_runs {api : BusDesc} {ops : List ClientOp}
    (hrun : runs clientStep ops (clientNew api) = some c) : c.fault = true ∨ c.Resting := by
  refine runs_invariant (C := fun _ _ => True) (I := fun c => c.fault = true ∨ Resting c) ?_
    (.inr (Resting.new api))
    (meetsAll_of_forall (fun _ _ _ => trivial) _) hrun
  intro c op c' h _ hstep
  rcases h with hfault | hrest
  · simp [clientStep, hfault] at hstep
  · exact (hrest.step (fun _ => false) hstep).imp id And.left

end Client

open RemovalSite in
/-- For every client that a run leads to and every stray removal, in a packet of its own or in a bus
event: the removal changes nothing exactly if it stands in a bus event and its handle is unknown. -/
theorem stray_removal_ignored_iff (api : BusDesc) (ops : List ClientOp) (c : Client)
    (providers : UInt16 → Bool)
    (site : RemovalSite) (b : Buffer) (hrun : runs clientStep ops (clientNew api) = some c)
    (hreached : c.fault = false ∧ (site.before providers c b).1.fault = false)
    (hstray : c.bus.Stray (removalHead (site.buffer c.bus b))) :
    Ignored (site.before providers c b) (site.after providers c b) ↔
      site ≠ .packet ∧ c.bus.Unknown (removalHead (site.buffer c.bus b)) := by
  have hrest : c.Resting :=
    (Client.resting_of_runs hrun).resolve_left (by rw [hreached.1]; rintro ⟨⟩)
  have hunknown : ∀ b', c.bus.Unknown (removalHead b') ↔ removalObject c.bus b' = none := by
    intro b'
    unfold Bus.Unknown removalObject
    rcases removalHead b' with _ | ⟨uid, handle⟩
    · simp
    · simp
  cases site with
  | packet =>
    refine iff_of_false (fun h => ?_) fun h => h.1 rfl
    have hdecode : ((packetDecode c.bus .remove).on b).1 =
        .ok (.remove (removalObject c.bus b)) := by
      have hobj := objectRemoveDecode_fst c.bus b
      change ((objectRemoveDecode c.bus >>= fun obj =>
          pure (PacketInfo.remove obj) : Dec PacketInfo).on b).1 = _
      rw [Dec.on] at hobj ⊢
      rw [run_bind]
      rcases hread : Prog.run readHandler (objectRemoveDecode c.bus) b with ⟨r, b'⟩
      rw [hread] at hobj
      obtain rfl := hobj
      rfl
    have hafter : after providers c b packet = handle providers c
        (.remove (removalObject c.bus b)) := by
      rw [after, hdecode]
    rw [hafter] at h
    cases hobj : removalObject c.bus b with
    | none =>
      rw [hobj] at h
      cases h.present
    | some r =>
      rw [hobj] at h
      rcases hrest.toSteady.removeObject_changes r with hfault | hchanged
      · cases hfault.symm.trans h.present
      · exact hchanged h.registered
  | busEvent desc addObjs objEvents k =>
    rw [hunknown]
    obtain ⟨-, hnext⟩ := decodeMany_remove c.bus b k
    change removalsRead c.bus b (k + 1) = removalsRead c.bus b k ++
      (removalObject c.bus ((busEvent desc addObjs objEvents k).buffer c.bus b)).toList at hnext
    cases hobj : removalObject c.bus ((busEvent desc addObjs objEvents k).buffer c.bus b) with
    | none =>
      -- the entry is left out of the list
      rw [hobj, Option.toList_none, List.append_nil] at hnext
      have hsame : after providers c b (busEvent desc addObjs objEvents k) =
          before providers c b (busEvent desc addObjs objEvents k) := by
        rw [after, before, hnext]
      refine iff_of_true ?_ ⟨(by rintro ⟨⟩), rfl⟩
      rw [hsame]
      exact ⟨rfl, rfl, rfl, rfl, rfl, hreached.2⟩
    | some r =>
      refine iff_of_false (fun h => ?_) fun h => by cases h.2
      have hcommitted := @Client.Steady.commitBusEvent providers c hrest.toSteady
        ⟨desc, addObjs, removalsRead c.bus b k, objEvents⟩
      have hsteady : (before providers c b (busEvent desc addObjs objEvents k)).1.Steady :=
        (hcommitted.resolve_left fun hfault => by cases hfault.symm.trans hreached.2).steady
      have hstep : (after providers c b (busEvent desc addObjs objEvents k)).1 =
          (before providers c b (busEvent desc addObjs objEvents k)).1.removeObject (some r) := by
        rw [hobj] at hnext
        simp only [after, before, handle, Client.packet, Client.commitBusEvent, hnext,
          Option.toList_some,
          List.foldl_append, List.foldl_cons, List.foldl_nil]
      rcases hsteady.removeObject_changes r with hfault | hchanged
      · cases (hstep ▸ hfault).symm.trans h.present
      · exact hchanged (hstep ▸ h.registered)

/-- A client with an object under the handle 7 and a pending call on it. -/
def callPending : List ClientOp :=
  [.start, .packet (.conresp .accepted [⟨methodDesc, 7, false, enabledInfo⟩]),
    .call ⟨7, ⟨2, none⟩, none, true, [5], true, true, true⟩]

/-- A removal of type 1 under the handle 9, which no object has. -/
def unknownRemoval : Buffer := ⟨[0, 1, 0, 9], 4, 0⟩

theorem stray_removal_ignored_unknown :
    ∃ c, runs clientStep callPending (clientNew methodApi) = some c ∧
      Ignored ((RemovalSite.busEvent ⟨1⟩ [] [] 0).before (fun _ => true) c unknownRemoval)
        ((RemovalSite.busEvent ⟨1⟩ [] [] 0).after (fun _ => true) c unknownRemoval) := by
  obtain ⟨c, hrun⟩ : ∃ c, runs clientStep callPending (clientNew methodApi) = some c := ⟨_, rfl⟩
  have hhead : removalHead ((RemovalSite.busEvent ⟨1⟩ [] [] 0).buffer c.bus unknownRemoval) =
      some (1, 9) := by
    change removalHead unknownRemoval = some (1, 9)
    decide
  have hnone : c.bus.object? 9 = none ∧ c.fault = false ∧
      ((RemovalSite.busEvent ⟨1⟩ [] [] 0).before (fun _ => true) c unknownRemoval).1.fault =
        false := by
    cases hrun
    exact ⟨by decide, by decide, by decide⟩
  refine ⟨c, hrun, (stray_removal_ignored_iff methodApi callPending c (fun _ => true)
    (.busEvent ⟨1⟩ [] [] 0)
    unknownRemoval hrun hnone.2 ?_).mpr ⟨nofun, ?_⟩⟩
  · intro uid handle h o ho
    rw [hhead] at h
    cases h
    rw [hnone.1] at ho
    cases ho
  · intro uid handle h
    rw [hhead] at h
    cases h
    exact hnone.1

/-- A packet that removes an unknown object aborts the call on another object and uses the absent
object; a bus event that removes an object of another type under the handle 7 removes the object. -/
theorem stray_removals_not_ignored :
    ∃ c, runs clientStep callPending (clientNew methodApi) = some c ∧ c.fault = false ∧
      removalHead unknownRemoval = some (1, 9) ∧ c.bus.object? 9 = none ∧
      ¬Ignored (RemovalSite.packet.before (fun _ => true) c unknownRemoval)
        (RemovalSite.packet.after (fun _ => true) c unknownRemoval) ∧
      (RemovalSite.packet.after (fun _ => true) c unknownRemoval).1.notified =
        [(0, CallStatus.aborted.code)] ∧
      (RemovalSite.packet.after (fun _ => true) c unknownRemoval).1.fault = true ∧
      removalHead ⟨[0, 9, 0, 7], 4, 0⟩ = some (9, 7) ∧ methodDesc.uid ≠ 9 ∧
      c.bus.registered.map Object.ref = [⟨methodDesc, 7⟩] ∧
      ((RemovalSite.busEvent ⟨1⟩ [] [] 0).after (fun _ => true) c
        ⟨[0, 9, 0, 7], 4, 0⟩).1.bus.registered = [] := by
  obtain ⟨c, hrun⟩ : ∃ c, runs clientStep callPending (clientNew methodApi) = some c := ⟨_, rfl⟩
  refine ⟨c, hrun, ?_⟩
  cases hrun
  refine ⟨by decide, by decide, by decide,
    fun h => ?_, by decide, by decide, by decide, by decide, by decide,
    by decide⟩
  exact absurd h.present (by decide)

end Obus
