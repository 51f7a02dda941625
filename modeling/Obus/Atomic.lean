import Obus.Acks
import Obus.BusLemmas

/-!
# Operations that fail

The four operations that change the objects of a server and tell the peers about it (`Update`) fail
when they are refused and when there is no buffer for the packet.  Where they fail, nothing should
have changed (`Undone`).  This holds exactly if the failure finds nothing that was changed before
and is not undone (`Harmless`): `updates_atomic_iff`.

Registering and unregistering an object do not undo anything.  Events are sanitised before the
packet is encoded, and they stay so.
-/

namespace Obus

/-- A call of one of the operations that change the objects of a server. -/
inductive Update where
  | registerObject (handle : UInt16)
  | unregisterObject (handle : UInt16)
  | sendEvent (event : OwnEvent)
  | sendBusEvent (event : BusEventReq)
  deriving DecidableEq

/-- What a call returns, its arguments as it leaves them, and the server. -/
def Update.run (env : Env) (notify : Notify) : Update → Server → Except Errno Unit × Update × Server
  | .registerObject h, s =>
    let r := serverRegisterObject env notify h s
    (r.1, .registerObject h, r.2)
  | .unregisterObject h, s =>
    let r := serverUnregisterObject env notify h s
    (r.1, .unregisterObject h, r.2)
  | .sendEvent v, s =>
    let r := serverSendEvent env notify v s
    (r.1, .sendEvent r.2.1, r.2.2)
  | .sendBusEvent e, s =>
    let r := serverSendBusEvent env notify e s
    (r.1, .sendBusEvent r.2.1, r.2.2)

/-- The packets that were sent, with the peers that they went to. -/
def packets (trace : List Action) : List (ℕ × PacketInfo) :=
  trace.filterMap fun
    | .sent p _ info => some (p, info)
    | _ => none

/-- Nothing has changed: the objects with their flags and fields, the list of the registered ones,
the arguments of the call, and the packets that were sent. -/
structure Undone (u u' : Update) (s s' : Server) : Prop where
  bus : s'.bus = s.bus
  args : u' = u
  packets : packets s'.trace = packets s.trace

/-- There are connected peers, and no buffer for a packet of a type. -/
def Env.Starved (env : Env) (type : PacketType) (s : Server) : Prop :=
  s.nPeersConnected ≠ 0 ∧ env.buffer s.ticks type = false

/-- The fields that an event brings are those that it declares. -/
def OwnEvent.Declared (v : OwnEvent) : Prop :=
  ∀ f ∈ v.event.info, f.has = true → f.desc.uid ∈ v.event.desc.updates

/-- The object of an event is there and registered. -/
def OwnEvent.onRegistered (bus : Bus) (v : OwnEvent) : Bool :=
  (v.event.obj.object? bus).any Object.isRegistered

/-- The events that the check of a bus event gets to: those in front of the first one whose object
is not registered, if all objects of the bus event are as they must be. -/
def BusEventReq.examined (e : BusEventReq) (bus : Bus) : List OwnEvent :=
  if (e.addObjs.all fun h => (bus.object? h).any fun o => !o.isRegistered) &&
      e.removeObjs.all fun h => isRegistered h bus then
    e.objEvents.takeWhile (OwnEvent.onRegistered bus)
  else []

/-- A failure finds nothing that was changed before and is not undone. -/
def Harmless (env : Env) (s : Server) : Update → Prop
  | .registerObject h => env.Starved .add s → ∀ o, s.bus.object? h = some o → o.isRegistered = true
  | .unregisterObject h =>
    env.Starved .remove s → ∀ o, s.bus.object? h = some o → o.isRegistered = false
  | .sendEvent v => env.Starved .event s → v.onRegistered s.bus = true → v.Declared
  | .sendBusEvent e =>
    ¬e.Accepted s.bus ∨ env.Starved .busEvent s → ∀ v ∈ e.examined s.bus, v.Declared

/-! ## Sanitising -/

/-- Sanitising changes an event unless the fields that it brings are those that it declares. -/
lemma OwnEvent.sanitize_eq_self (v : OwnEvent) : v.sanitize = v ↔ v.Declared := by
  have hinfo : v.sanitize = v ↔ v.sanitize.event.info = v.event.info := by
    constructor
    · intro h
      rw [h]
    · intro h
      obtain ⟨⟨obj, desc, info⟩, committed⟩ := v
      exact congrArg (fun info => OwnEvent.mk ⟨obj, desc, info⟩ committed) h
  rw [hinfo]
  change List.map _ v.event.info = v.event.info ↔ _
  conv_lhs => rhs; rw [← List.map_id v.event.info]
  rw [List.map_eq_map_iff]
  refine forall₂_congr fun f _ => ?_
  obtain ⟨desc, has, val⟩ := f
  cases has <;> simp

lemma serverCheckEvents_eq_self {bus : Bus} (vs : List OwnEvent) :
    (serverCheckEvents bus vs).2 = vs ↔ ∀ v ∈ vs.takeWhile (OwnEvent.onRegistered bus),
    v.Declared := by
  induction vs with
  | nil => simp [serverCheckEvents]
  | cons v vs ih =>
    unfold serverCheckEvents
    split
    · next hnone =>
      have hstop : OwnEvent.onRegistered bus v = false := by simp [OwnEvent.onRegistered, hnone]
      simp [hstop]
    · next o ho =>
      split
      · next hreg =>
        have hstop : OwnEvent.onRegistered bus v = false := by
          simpa [OwnEvent.onRegistered, ho] using hreg
        simp [hstop]
      · next hreg =>
        have hgo : OwnEvent.onRegistered bus v = true := by
          simpa [OwnEvent.onRegistered, ho] using hreg
        rw [List.takeWhile_cons, if_pos hgo, List.forall_mem_cons, ← ih, ← v.sanitize_eq_self]
        exact List.cons_eq_cons

lemma serverCheckObjects_eq_ok {registered : Bool} {bus : Bus} {hs : List UInt16} :
    serverCheckObjects registered bus hs = .ok () ↔
      hs.all (fun h => (bus.object? h).any fun o => o.isRegistered == registered) = true := by
  induction hs with
  | nil => simp [serverCheckObjects]
  | cons h hs ih =>
    unfold serverCheckObjects
    cases hfound : bus.object? h with
    | none => simp [hfound]
    | some o =>
      by_cases hreg : o.isRegistered = registered
      · simp [hfound, hreg, ih]
      · simp [hfound, hreg]

/-- The check of a bus event leaves the bus event as it was if the events that it gets to bring what
they declare. -/
lemma serverCheckBusEvent_eq_self (e : BusEventReq) (bus : Bus) :
    (serverCheckBusEvent e bus).2 = e ↔ ∀ v ∈ e.examined bus, v.Declared := by
  have hadd : (e.addObjs.all fun h => (bus.object? h).any fun o => !o.isRegistered) =
      e.addObjs.all fun h => (bus.object? h).any fun o => o.isRegistered == false := by
    simp
  have hremove : (e.removeObjs.all fun h => isRegistered h bus) =
      e.removeObjs.all fun h => (bus.object? h).any fun o => o.isRegistered == true := by
    simp [isRegistered]
  unfold serverCheckBusEvent BusEventReq.examined
  rw [hadd, hremove]
  cases hadds : serverCheckObjects false bus e.addObjs with
  | error f =>
    have hfail : (e.addObjs.all fun h => (bus.object? h).any fun o => o.isRegistered == false) =
        false := by
      rw [← Bool.not_eq_true, ← serverCheckObjects_eq_ok, hadds]
      rintro ⟨⟩
    rw [hfail]
    simp
  | ok _ =>
    rw [serverCheckObjects_eq_ok.mp hadds]
    cases hremoves : serverCheckObjects true bus e.removeObjs with
    | error f =>
      have hfail : (e.removeObjs.all fun h => (bus.object? h).any fun o => o.isRegistered == true) =
          false := by
        rw [← Bool.not_eq_true, ← serverCheckObjects_eq_ok, hremoves]
        rintro ⟨⟩
      rw [hfail]
      simp
    | ok _ =>
      rw [serverCheckObjects_eq_ok.mp hremoves]
      simp only [Bool.and_self, if_true]
      rw [← serverCheckEvents_eq_self]
      constructor
      · intro h
        exact congrArg BusEventReq.objEvents h
      · intro h
        rw [h]

/-! ## Registering and the way back -/

lemma foldl_busRegisterObject (hs : List UInt16) (bus : Bus) :
    hs.foldl (fun bus h => busRegisterObject h bus) bus =
      { bus with
        hash := bus.hash.map fun o => if o.handle ∈ hs then { o with isRegistered := true } else o
        objects := bus.objects ++ hs } := by
  induction hs generalizing bus with
  | nil => simp
  | cons h hs ih =>
    rw [List.foldl_cons, ih]
    simp only [busRegisterObject, Bus.modify, List.map_map, List.append_assoc,
      List.singleton_append]
    congr 1
    refine List.map_congr_left fun o _ => ?_
    simp only [Function.comp_apply, List.mem_cons]
    grind

lemma foldl_busUnregisterObject (hs : List UInt16) (bus : Bus) :
    hs.foldl (fun bus h => busUnregisterObject h bus) bus =
      { bus with
        hash := bus.hash.map fun o => if o.handle ∈ hs then { o with isRegistered := false } else o
        objects := bus.objects.diff hs } := by
  induction hs generalizing bus with
  | nil => simp
  | cons h hs ih =>
    rw [List.foldl_cons, ih, List.diff_cons]
    simp only [busUnregisterObject, Bus.modify, List.map_map]
    congr 1
    refine List.map_congr_left fun o _ => ?_
    simp only [Function.comp_apply, List.mem_cons]
    grind

/-- Unregistering new objects undoes their registration. -/
lemma Bus.Ok.undo_register {bus : Bus} (hok : bus.Ok) {hs : List UInt16}
    (hnew : ∀ h ∈ hs, ∃ o, bus.object? h = some o ∧ o.isRegistered = false) :
    hs.foldl (fun bus h => busUnregisterObject h bus)
      (hs.foldl (fun bus h => busRegisterObject h bus) bus) =
      bus := by
  have hobjects : ∀ l : List UInt16, (∀ h ∈ l, h ∉ bus.objects) →
      (bus.objects ++ l).diff l = bus.objects := by
    intro l hl
    induction l with
    | nil => simp
    | cons h l ih =>
      rw [List.diff_cons, List.erase_append_right _ (hl h List.mem_cons_self), List.erase_cons_head]
      exact ih fun x hx => hl x (List.mem_cons_of_mem h hx)
  have hfree : ∀ h ∈ hs, h ∉ bus.objects := by
    intro h hmem hlisted
    obtain ⟨o, ho, hflag⟩ := hnew h hmem
    obtain ⟨o', ho', hflag'⟩ := Bus.Ok.isRegistered_iff.mp ((hok.flags h).mp hlisted)
    rw [ho, Option.some.injEq] at ho'
    rw [← ho', hflag] at hflag'
    cases hflag'
  have hhash : (bus.hash.map fun o => if o.handle ∈ hs then { o with isRegistered := true }
      else o).map
      (fun o => if o.handle ∈ hs then { o with isRegistered := false } else o) = bus.hash := by
    rw [List.map_map]
    refine (List.map_congr_left fun o ho => ?_).trans (List.map_id _)
    simp only [Function.comp_apply, id]
    by_cases hmem : o.handle ∈ hs
    · obtain ⟨o', ho', hflag⟩ := hnew o.handle hmem
      rw [hok.object?_of_mem ho, Option.some.injEq] at ho'
      rw [if_pos hmem, if_pos hmem, ← hflag, ho']
    · rw [if_neg hmem, if_neg hmem]
  rw [foldl_busRegisterObject, foldl_busUnregisterObject]
  simp only [hhash, hobjects hs hfree]

/-! ## The four operations -/

section Operations

variable {env : Env} {notify : Notify} {s : Server}

/-- A broadcast fails only for want of a buffer, and then it has done nothing. -/
lemma broadcast_error {info : PacketInfo} {err : Errno}
    (h : (broadcast env notify info s).1 = .error err) :
    env.Starved info.type s ∧
    broadcast env notify info s = (.error .enomem, { s with ticks := s.ticks + 1 }) := by
  rcases broadcast_cases env notify info s with ⟨-, heq⟩ | ⟨hpeers, hbuf, heq⟩ | ⟨-, -, heq⟩
  · rw [heq] at h
    cases h
  · exact ⟨⟨hpeers, hbuf⟩, heq⟩
  · rw [heq] at h
    cases h

lemma Env.Starved.broadcast {info : PacketInfo} (h : env.Starved info.type s) :
    broadcast env notify info s = (.error .enomem, { s with ticks := s.ticks + 1 }) := by
  unfold Obus.broadcast getBuffer
  rw [if_neg h.1, h.2]

/-- A call leaves nothing behind when it fails. -/
def AtomicOnError (env : Env) (notify : Notify) (u : Update) (s : Server) : Prop :=
  ∀ err, (u.run env notify s).1 = .error err →
  Undone u (u.run env notify s).2.1 s (u.run env notify s).2.2

lemma registerObject_atomic_iff (h : UInt16) :
    AtomicOnError env notify (.registerObject h) s ↔ Harmless env s (.registerObject h) := by
  constructor
  · intro hatomic hstarved o ho
    by_contra hreg
    have hrun : (serverRegisterObject env notify h s) = (.error .enomem,
        { { s with bus := busRegisterObject h s.bus }.log (.committed (.add o)) with
          ticks := s.ticks + 1 }) := by
      rw [serverRegisterObject, ho]
      simp only [hreg, if_false]
      exact Env.Starved.broadcast hstarved
    have hundone := (hatomic .enomem (congrArg Prod.fst hrun)).bus
    simp only [Update.run, hrun] at hundone
    -- the list of registered objects has become longer
    have hlen := congrArg (fun bus => bus.objects.length) hundone
    simp [Server.log, busRegisterObject] at hlen
  · intro hharmless err herr
    simp only [Update.run] at herr ⊢
    unfold serverRegisterObject at herr ⊢
    split at herr
    · exact ⟨rfl, rfl, rfl⟩
    · next o ho =>
      split at herr
      · next hreg =>
        rw [if_pos hreg]
        exact ⟨rfl, rfl, rfl⟩
      · next hreg => exact absurd (hharmless (broadcast_error herr).1 o ho) hreg

lemma unregisterObject_atomic_iff (h : UInt16) :
    AtomicOnError env notify (.unregisterObject h) s ↔ Harmless env s (.unregisterObject h) := by
  constructor
  · intro hatomic hstarved o ho
    by_contra hreg
    rw [Bool.not_eq_false] at hreg
    have hrun : (serverUnregisterObject env notify h s) = (.error .enomem,
        { { s with bus := busUnregisterObject h s.bus }.log (.committed (.remove (some o.ref))) with
          ticks := s.ticks + 1 }) := by
      rw [serverUnregisterObject, ho]
      simp only [hreg, Bool.not_true, Bool.false_eq_true, if_false]
      exact Env.Starved.broadcast hstarved
    have hundone := (hatomic .enomem (congrArg Prod.fst hrun)).bus
    simp only [Update.run, hrun] at hundone
    -- the flag of the object has been cleared
    have hfound : (busUnregisterObject h s.bus).object? h = s.bus.object? h :=
      congrArg (fun bus => bus.object? h) hundone
    rw [Bus.object?_unregister, ho, Option.map_some, if_pos rfl, Option.some.injEq] at hfound
    have hflag := congrArg Object.isRegistered hfound
    rw [hreg] at hflag
    cases hflag
  · intro hharmless err herr
    simp only [Update.run] at herr ⊢
    unfold serverUnregisterObject at herr ⊢
    split at herr
    · exact ⟨rfl, rfl, rfl⟩
    · next o ho =>
      split at herr
      · next hreg =>
        rw [if_pos hreg]
        exact ⟨rfl, rfl, rfl⟩
      · next hreg =>
        have hflag := hharmless (broadcast_error herr).1 o ho
        simp [hflag] at hreg

lemma sendEvent_atomic_iff (v : OwnEvent) :
    AtomicOnError env notify (.sendEvent v) s ↔ Harmless env s (.sendEvent v) := by
  constructor
  · intro hatomic hstarved hreg
    obtain ⟨o, ho, hflag⟩ : ∃ o, v.event.obj.object? s.bus = some o ∧ o.isRegistered = true := by
      simpa [OwnEvent.onRegistered, Option.any_eq_true] using hreg
    have hrun : serverSendEvent env notify v s =
        (.error .enomem, v.sanitize, { s with ticks := s.ticks + 1 }) := by
      have hsend : broadcast env notify (.event v.sanitize.event) s =
          (.error .enomem, { s with ticks := s.ticks + 1 }) := Env.Starved.broadcast hstarved
      rw [serverSendEvent, ho]
      simp only [hflag, Bool.not_true, Bool.false_eq_true, if_false, hsend]
    have hargs := (hatomic .enomem (congrArg Prod.fst hrun)).args
    simp only [Update.run, hrun, Update.sendEvent.injEq] at hargs
    exact v.sanitize_eq_self.mp hargs
  · intro hharmless err herr
    simp only [Update.run] at herr ⊢
    unfold serverSendEvent at herr ⊢
    split at herr
    · exact ⟨rfl, rfl, rfl⟩
    · next o ho =>
      split at herr
      · next hreg =>
        rw [if_pos hreg]
        exact ⟨rfl, rfl, rfl⟩
      · next hreg =>
        rw [if_neg hreg]
        have honreg : v.onRegistered s.bus = true := by simpa [OwnEvent.onRegistered, ho] using hreg
        split at herr
        · next e s' hsend =>
          obtain ⟨hstarved, heq⟩ := broadcast_error (congrArg Prod.fst hsend)
          have hclean := v.sanitize_eq_self.mpr (hharmless hstarved honreg)
          rw [hsend] at heq
          obtain ⟨-, rfl⟩ := Prod.mk.inj heq
          exact ⟨rfl, congrArg Update.sendEvent hclean, rfl⟩
        · cases herr

/-- The check of a bus event accepts what can be accepted. -/
lemma serverCheckBusEvent_of_accepted {e : BusEventReq} {bus : Bus} (h : e.Accepted bus) :
    (serverCheckBusEvent e bus).1 = .ok () := by
  have hadd : serverCheckObjects false bus e.addObjs = .ok () := by
    refine serverCheckObjects_eq_ok.mpr (List.all_eq_true.mpr fun x hx => ?_)
    obtain ⟨o, ho, hflag⟩ := h.addObjs x hx
    simp [ho, hflag]
  have hremove : serverCheckObjects true bus e.removeObjs = .ok () := by
    refine serverCheckObjects_eq_ok.mpr (List.all_eq_true.mpr fun x hx => ?_)
    obtain ⟨o, ho, hflag⟩ := h.removeObjs x hx
    simp [ho, hflag]
  have hevents : ∀ vs : List OwnEvent,
      (∀ v ∈ vs, ∃ o, v.event.obj.object? bus = some o ∧ o.isRegistered = true) →
      (serverCheckEvents bus vs).1 = .ok () := by
    intro vs hvs
    induction vs with
    | nil => rfl
    | cons v vs ih =>
      obtain ⟨o, ho, hflag⟩ := hvs v List.mem_cons_self
      unfold serverCheckEvents
      simp only [ho, hflag, Bool.not_true, Bool.false_eq_true, if_false]
      exact ih fun w hw => hvs w (List.mem_cons_of_mem v hw)
  unfold serverCheckBusEvent
  rw [hadd, hremove]
  exact hevents e.objEvents h.objEvents

/-- A bus event fails if it is not accepted or there is no buffer.  The bus event is left as the
check leaves it, and nothing else has changed. -/
lemma serverSendBusEvent_error (hok : s.bus.Ok) (e : BusEventReq) :
    let r := serverSendBusEvent env notify e s
    ((∃ err, r.1 = .error err) ↔ ¬e.Accepted s.bus ∨ env.Starved .busEvent s) ∧
      ∀ err, r.1 = .error err →
        r.2.1 = (serverCheckBusEvent e s.bus).2 ∧ r.2.2.bus = s.bus ∧ r.2.2.trace = s.trace := by
  intro r
  have haccepted : ∀ f e', serverCheckBusEvent e s.bus = (.error f, e') → ¬e.Accepted s.bus := by
    intro f e' hcheck h
    have hfirst := serverCheckBusEvent_of_accepted h
    rw [hcheck] at hfirst
    cases hfirst
  unfold r serverSendBusEvent
  split
  · next e' hcheck =>
    rw [hcheck]
    exact ⟨iff_of_true ⟨_, rfl⟩ (.inl (haccepted _ _ hcheck)), fun _ _ => ⟨rfl, rfl, rfl⟩⟩
  · next f e' hcheck =>
    rw [hcheck]
    exact ⟨iff_of_true ⟨_, rfl⟩ (.inl (haccepted _ _ hcheck)), fun _ _ => ⟨rfl, rfl, rfl⟩⟩
  · next e' hcheck =>
    obtain ⟨he', hacc⟩ := serverCheckBusEvent_ok hcheck
    have hundo : e'.addObjs.foldl (fun bus h => busUnregisterObject h bus)
        (e'.addObjs.foldl (fun bus h => busRegisterObject h bus) s.bus) = s.bus := by
      rw [he']
      exact hok.undo_register hacc.addObjs
    simp only [hcheck, hacc, not_true_eq_false, false_or]
    rcases broadcast_cases env notify (.busEvent (e'.packet s.bus))
        { s with bus := e'.addObjs.foldl (fun bus h => busRegisterObject h bus) s.bus }
      with ⟨hnone, heq⟩ | ⟨hsome, hbuf, heq⟩ | ⟨-, hbuf, heq⟩
    · rw [heq]
      exact ⟨iff_of_false nofun fun h => h.1 hnone, nofun⟩
    · rw [heq]
      exact ⟨iff_of_true ⟨_, rfl⟩ ⟨hsome, hbuf⟩, fun _ _ => ⟨rfl, hundo, rfl⟩⟩
    · rw [heq]
      refine ⟨iff_of_false nofun fun h => ?_, nofun⟩
      exact Bool.false_ne_true (h.2.symm.trans hbuf)

lemma sendBusEvent_atomic_iff (hok : s.bus.Ok) (e : BusEventReq) :
    AtomicOnError env notify (.sendBusEvent e) s ↔ Harmless env s (.sendBusEvent e) := by
  obtain ⟨herror, hleft⟩ := @serverSendBusEvent_error env notify s hok e
  constructor
  · intro hatomic hfail
    obtain ⟨err, herr⟩ := herror.mpr hfail
    have hargs := (hatomic err herr).args
    simp only [Update.run, (hleft err herr).1, Update.sendBusEvent.injEq] at hargs
    exact (serverCheckBusEvent_eq_self e s.bus).mp hargs
  · intro hharmless err herr
    obtain ⟨hargs, hbus, htrace⟩ := hleft err herr
    have hclean := (serverCheckBusEvent_eq_self e s.bus).mpr (hharmless (herror.mp ⟨err, herr⟩))
    exact ⟨hbus, congrArg Update.sendBusEvent (hargs.trans hclean), congrArg packets htrace⟩

end Operations

/-- An operation that fails leaves the objects, its arguments and the packets as they were exactly
if it is harmless: an object is not registered or unregistered while there is no buffer for the
packet, and the events that were sanitised before the failure bring only the fields that they
declare. -/
theorem updates_atomic_iff (env : Env) (notify : Notify) (u : Update) (s : Server)
    (hok : s.bus.Ok) : AtomicOnError env notify u s ↔ Harmless env s u := by
  cases u with
  | registerObject h => exact registerObject_atomic_iff h
  | unregisterObject h => exact unregisterObject_atomic_iff h
  | sendEvent v => exact sendEvent_atomic_iff v
  | sendBusEvent e => exact sendBusEvent_atomic_iff hok e

/-- No buffer can be had. -/
def barrenEnv : Env := ⟨fun _ _ => false, fun _ _ _ => true⟩

/-- The server has an object that is not registered, and a connected peer. -/
def awaiting : List (ServerOp × Env) :=
  [(.api (.newObject methodDesc (some enabledInfo) [7]), fairEnv), (.accept, fairEnv),
    (.packet 0 (.conreq methodRequest), fairEnv)]

/-- Registering the object that is registered already is refused, and nothing changes. -/
theorem updates_atomic_iff_offering :
    ∃ s, runs (serverStep idleHandler 0) offering (serverNew methodApi) = some s ∧
      ((Update.registerObject 7).run barrenEnv (callback idleHandler barrenEnv 0) s).1 =
        .error .eperm ∧
      AtomicOnError barrenEnv (callback idleHandler barrenEnv 0) (.registerObject 7) s := by
  obtain ⟨s, hrun⟩ : ∃ s, runs (serverStep idleHandler 0) offering (serverNew methodApi) =
    some s := ⟨_, rfl⟩
  have hhash : s.bus.hash = [⟨methodDesc, 7, true, enabledInfo⟩] := by
    cases hrun
    decide
  have hobjects : s.bus.objects = [7] := by
    cases hrun
    decide
  have hfound : ∀ h, s.bus.object? h = if h = 7 then some ⟨methodDesc, 7, true, enabledInfo⟩
      else none := by
    intro h
    rw [Bus.object?, hhash]
    by_cases h7 : h = 7
    · subst h7
      decide
    · simp [h7, Ne.symm h7]
  have hok : s.bus.Ok := by
    refine ⟨by simp [hhash], by simp [hhash], fun h => ?_, by simp [hobjects]⟩
    rw [hobjects, isRegistered, hfound]
    by_cases h7 : h = 7 <;> simp [h7]
  refine ⟨s, hrun, ?_, (updates_atomic_iff _ _ _ _ hok).mpr ?_⟩
  · simp [Update.run, serverRegisterObject, hfound]
  · intro _ o ho
    rw [hfound, if_pos rfl, Option.some.injEq] at ho
    rw [← ho]

/-- Without a buffer for the packet, registering an object fails and the object is registered. -/
theorem register_not_undone :
    ∃ s, runs (serverStep idleHandler 0) awaiting (serverNew methodApi) = some s ∧
      ((Update.registerObject 7).run barrenEnv (callback idleHandler barrenEnv 0) s).1 =
        .error .enomem ∧
      s.bus.objects = [] ∧
      ((Update.registerObject 7).run barrenEnv
        (callback idleHandler barrenEnv 0) s).2.2.bus.objects = [7] ∧
      ¬AtomicOnError barrenEnv (callback idleHandler barrenEnv 0) (.registerObject 7) s := by
  obtain ⟨s, hrun⟩ : ∃ s, runs (serverStep idleHandler 0) awaiting (serverNew methodApi) =
    some s := ⟨_, rfl⟩
  have hfails : ((Update.registerObject 7).run barrenEnv (callback idleHandler barrenEnv 0) s).1 =
      .error .enomem := by
    cases hrun
    decide
  have hbefore : s.bus.objects = [] := by
    cases hrun
    decide
  have hafter :
      ((Update.registerObject 7).run barrenEnv
        (callback idleHandler barrenEnv 0) s).2.2.bus.objects = [7] := by
    cases hrun
    decide
  refine ⟨s, hrun, hfails, hbefore, hafter, fun hatomic => ?_⟩
  have hsame := congrArg Bus.objects (hatomic _ hfails).bus
  rw [hbefore, hafter] at hsame
  cases hsame

end Obus
