import Obus.JavaRegistries
import Obus.Lib.Loop
import Obus.Lib.Run

/-!
# When the registries are a view of the bus

Each packet makes objects arrive one after the other, commits events, and makes objects leave one
after the other (`perform`).  An object that arrives, or leaves, keeps the client sound if it fits,
or has its key still; otherwise it stays in a registry without being on the bus, whatever comes
after it in the packet.

So the registries are a view of the bus as long as the packets are in step, and only so long
(`registries_view_iff`).
-/

namespace Obus.JavaClient

/-! ## What the parts of a packet do -/

section Parts

variable {κ V : Type*} {registries : ℕ → Option (Registry κ V)} {evt : Option ℕ} {s : Client κ V}
  {o o' : ObusObject}

lemma registerObject_cases : (o.handle ≠ obusInvalidHandle ∧ o.handle ∉ s.bus ∧
      registerObject s o = { s with bus := s.bus.insert o.handle o }) ∨
    ((o.handle = obusInvalidHandle ∨ o.handle ∈ s.bus) ∧ registerObject s o = s) := by
  unfold registerObject Bus.registerObject
  split_ifs with hinvalid hmem
  · exact Or.inr ⟨Or.inl hinvalid, rfl⟩
  · exact Or.inr ⟨Or.inr hmem, rfl⟩
  · exact Or.inl ⟨hinvalid, hmem, rfl⟩

lemma unregisterObject_cases :
    (o.handle ∈ s.bus ∧ unregisterObject s o = { s with bus := s.bus.erase o.handle }) ∨
    (o.handle ∉ s.bus ∧ unregisterObject s o = s) := by
  unfold unregisterObject Bus.unregisterObject
  split_ifs with hmem
  · exact Or.inl ⟨hmem, rfl⟩
  · exact Or.inr ⟨hmem, rfl⟩

variable [DecidableEq κ]

lemma addObjectToRegistry_cases :
    (∃ r ∈ registries o.uid, s.stores o.uid (r.key (s.struct o.id)) = none ∧
      addObjectToRegistry registries evt s o = { s with
        stores := Function.update s.stores o.uid
          (Function.update (s.stores o.uid) (r.key (s.struct o.id)) (some o))
        notices := s.notices ++ [⟨.added, o, evt⟩] }) ∨
    ((∀ r ∈ registries o.uid, (s.stores o.uid (r.key (s.struct o.id))).isSome) ∧
      addObjectToRegistry registries evt s o = s) := by
  unfold addObjectToRegistry
  cases hr : registries o.uid with
  | none => exact Or.inr ⟨fun r hmem => absurd hmem (Option.not_mem_none r), rfl⟩
  | some r =>
    simp only [Registry.add]
    split_ifs with hsome
    · refine Or.inr ⟨fun r' hr' => ?_, rfl⟩
      cases hr'
      exact hsome
    · exact Or.inl ⟨r, rfl, Option.not_isSome_iff_eq_none.mp hsome, rfl⟩

lemma removeObjectFromRegistry_cases :
    (∃ r ∈ registries o.uid, s.stores o.uid (r.key (s.struct o.id)) = some o ∧
      removeObjectFromRegistry registries evt s o = { s with
        stores := Function.update s.stores o.uid
          (Function.update (s.stores o.uid) (r.key (s.struct o.id)) none)
        notices := s.notices ++ [⟨.removed, o, evt⟩] }) ∨
    ((∀ r ∈ registries o.uid, s.stores o.uid (r.key (s.struct o.id)) ≠ some o) ∧
      removeObjectFromRegistry registries evt s o = s) := by
  unfold removeObjectFromRegistry
  cases hr : registries o.uid with
  | none => exact Or.inr ⟨fun r hmem => absurd hmem (Option.not_mem_none r), rfl⟩
  | some r =>
    simp only [Registry.remove]
    split_ifs with hstored
    · exact Or.inl ⟨r, rfl, hstored, rfl⟩
    · refine Or.inr ⟨fun r' hr' => ?_, rfl⟩
      cases hr'
      exact hstored

variable (registries evt)

/-- An object arrives: the bus takes it, or not, and then it is offered to the registry. -/
def arrive (s : Client κ V) (o : ObusObject) : Client κ V :=
  addObjectToRegistry registries evt (registerObject s o) o

/-- An object leaves the registry and the bus. -/
def leave (s : Client κ V) (o : ObusObject) : Client κ V :=
  unregisterObject (removeObjectFromRegistry registries evt s o) o

/-- The bus does not matter to a registry. -/
lemma addObjectToRegistry_registerObject (s : Client κ V) (a b : ObusObject) :
    addObjectToRegistry registries evt (registerObject s a) b = registerObject
      (addObjectToRegistry registries evt s b) a := by
  unfold addObjectToRegistry registerObject
  cases registries b.uid <;> cases hbus : s.bus.registerObject a
  · simp
  · simp
  · simp only [Registry.add]
    split_ifs <;> simp [hbus]
  · simp only [Registry.add]
    split_ifs <;> simp [hbus]

lemma unregisterObject_removeObjectFromRegistry (s : Client κ V) (a b : ObusObject) :
    removeObjectFromRegistry registries evt (unregisterObject s a) b =
      unregisterObject (removeObjectFromRegistry registries evt s b) a := by
  unfold removeObjectFromRegistry unregisterObject
  cases registries b.uid <;> cases hbus : s.bus.unregisterObject a
  · simp
  · simp
  · simp only [Registry.remove]
    split_ifs <;> simp [hbus]
  · simp only [Registry.remove]
    split_ifs <;> simp [hbus]

/-- Objects arrive one after the other, then events are committed, and then objects leave. -/
def perform (os us : List ObusObject) (es : List (ObusObject × Fields V)) (s : Client κ V) :
    Client κ V :=
  us.foldl (leave registries evt) (es.foldl commit (os.foldl (arrive registries evt) s))

/-- A bus event goes over its objects twice, and performs them. -/
lemma dispatchBusEvent_eq (uid : ℕ) (os us : List ObusObject) (es : List (ObusObject × Fields V))
    (s : Client κ V) :
    dispatchBusEvent registries uid os us es s = perform registries (some uid) os us es s := by
  have hregister :=
    foldl_foldl_of_comm (addObjectToRegistry_registerObject registries (some uid)) os s
  unfold dispatchBusEvent perform
  simp only
  rw [hregister]
  exact foldl_foldl_of_comm
    (fun s a b => (unregisterObject_removeObjectFromRegistry registries (some uid) s b a).symm) us _

lemma recvRemove_eq (o : ObusObject) (s : Client κ V) :
    recvRemove registries o s = perform registries none [] [o] [] s :=
  unregisterObject_removeObjectFromRegistry registries none s o o

variable {registries evt}

/-! What stands under the handles and the keys afterwards. -/

lemma lookup_arrive (h : ℕ) : (arrive registries evt s o).bus.lookup h =
    if h = o.handle ∧ o.handle ≠ obusInvalidHandle ∧ o.handle ∉ s.bus then some o
      else s.bus.lookup h := by
  have hbus : (arrive registries evt s o).bus = (registerObject s o).bus := by
    unfold arrive
    rcases @addObjectToRegistry_cases κ V registries evt (registerObject s o) o _ with
      ⟨r, -, -, hadd⟩ | ⟨-, hadd⟩ <;> rw [hadd]
  rw [hbus]
  rcases registerObject_cases (s := s) (o := o) with ⟨hvalid, hmem, hrun⟩ | ⟨hnot, hrun⟩
  · rw [hrun]
    by_cases hh : h = o.handle
    · rw [if_pos ⟨hh, hvalid, hmem⟩, hh]
      exact AList.lookup_insert _
    · rw [if_neg fun hall => hh hall.1]
      exact AList.lookup_insert_ne hh
  · rw [hrun, if_neg]
    tauto

lemma stores_arrive (uid : ℕ) (k : Option κ) : (arrive registries evt s o).stores uid k =
    if uid = o.uid ∧ (∃ r ∈ registries o.uid, r.key (s.struct o.id) = k) ∧
    s.stores uid k = none then some o
    else s.stores uid k := by
  have hkeep : (registerObject s o).stores = s.stores ∧ (registerObject s o).struct = s.struct := by
    rcases registerObject_cases (s := s) (o := o) with ⟨-, -, hrun⟩ | ⟨-, hrun⟩ <;> rw [hrun] <;>
      exact ⟨rfl, rfl⟩
  unfold arrive
  rcases @addObjectToRegistry_cases κ V registries evt (registerObject s o) o _ with
    ⟨r, hr, hnone, hadd⟩ | ⟨hsome, hadd⟩
  · rw [hadd]
    rw [hkeep.1, hkeep.2] at hnone
    simp only [hkeep.1, hkeep.2, Function.update_apply]
    by_cases huid : uid = o.uid
    · subst huid
      by_cases hk : k = r.key (s.struct o.id)
      · subst hk
        rw [if_pos rfl, Function.update_self, if_pos ⟨rfl, ⟨r, hr, rfl⟩, hnone⟩]
      · rw [if_pos rfl, Function.update_of_ne hk, if_neg]
        rintro ⟨-, ⟨r', hr', rfl⟩, -⟩
        rw [Option.mem_unique hr' hr] at hk
        exact hk rfl
    · rw [if_neg huid, if_neg fun hall => huid hall.1]
  · rw [hadd, hkeep.1, if_neg]
    rintro ⟨rfl, ⟨r, hr, rfl⟩, hnone⟩
    have hr' := hsome r hr
    rw [hkeep.1, hkeep.2, hnone] at hr'
    cases hr'

lemma lookup_leave (h : ℕ) : (leave registries evt s o).bus.lookup h = if h = o.handle then none
    else s.bus.lookup h := by
  have hbus : (removeObjectFromRegistry registries evt s o).bus = s.bus := by
    rcases @removeObjectFromRegistry_cases κ V registries evt s o _ with
      ⟨r, -, -, hremove⟩ | ⟨-, hremove⟩ <;> rw [hremove]
  unfold leave
  rcases unregisterObject_cases (s := removeObjectFromRegistry registries evt s o) (o := o) with
    ⟨hmem, hrun⟩ | ⟨hmem, hrun⟩
  · rw [hrun]
    simp only [hbus]
    by_cases hh : h = o.handle
    · rw [if_pos hh, hh]
      exact AList.lookup_erase _ _
    · rw [if_neg hh]
      exact AList.lookup_erase_ne hh
  · rw [hrun, hbus]
    rw [hbus] at hmem
    split_ifs with hh
    · rw [hh]
      exact AList.lookup_eq_none.mpr hmem
    · rfl

lemma stores_leave (uid : ℕ) (k : Option κ) : (leave registries evt s o).stores uid k =
    if uid = o.uid ∧ (∃ r ∈ registries o.uid, r.key (s.struct o.id) = k) ∧
    s.stores uid k = some o then none
    else s.stores uid k := by
  have hkeep : (leave registries evt s o).stores =
      (removeObjectFromRegistry registries evt s o).stores := by
    unfold leave
    rcases unregisterObject_cases (s := removeObjectFromRegistry registries evt s o) (o := o) with
      ⟨-, hrun⟩ | ⟨-, hrun⟩ <;>
      rw [hrun]
  rw [hkeep]
  rcases @removeObjectFromRegistry_cases κ V registries evt s o _ with
    ⟨r, hr, hstored, hremove⟩ | ⟨hnot, hremove⟩
  · rw [hremove]
    simp only [Function.update_apply]
    by_cases huid : uid = o.uid
    · subst huid
      by_cases hk : k = r.key (s.struct o.id)
      · subst hk
        rw [if_pos rfl, Function.update_self, if_pos ⟨rfl, ⟨r, hr, rfl⟩, hstored⟩]
      · rw [if_pos rfl, Function.update_of_ne hk, if_neg]
        rintro ⟨-, ⟨r', hr', rfl⟩, -⟩
        rw [Option.mem_unique hr' hr] at hk
        exact hk rfl
    · rw [if_neg huid, if_neg fun hall => huid hall.1]
  · rw [hremove, if_neg]
    rintro ⟨rfl, ⟨r, hr, rfl⟩, hstored⟩
    exact hnot r hr hstored

/-- The registry takes the object that is offered to it. -/
def Takes (registries : ℕ → Option (Registry κ V)) (s : Client κ V) (o : ObusObject) : Prop :=
  ∃ r ∈ registries o.uid, s.stores o.uid (r.key (s.struct o.id)) = none

/-- The registry finds the object that is to be removed. -/
def Drops (registries : ℕ → Option (Registry κ V)) (s : Client κ V) (o : ObusObject) : Prop :=
  ∃ r ∈ registries o.uid, s.stores o.uid (r.key (s.struct o.id)) = some o

open Classical in
lemma notices_arrive : (arrive registries evt s o).notices =
    s.notices ++ if Takes registries s o then [⟨.added, o, evt⟩] else [] := by
  have hkeep : (registerObject s o).stores = s.stores ∧ (registerObject s o).struct = s.struct ∧
      (registerObject s o).notices = s.notices := by
    rcases registerObject_cases (s := s) (o := o) with ⟨-, -, hrun⟩ | ⟨-, hrun⟩ <;> rw [hrun] <;>
      exact ⟨rfl, rfl, rfl⟩
  unfold arrive
  rcases @addObjectToRegistry_cases κ V registries evt (registerObject s o) o _ with
    ⟨r, hr, hnone, hadd⟩ | ⟨hsome, hadd⟩
  · rw [hkeep.1, hkeep.2.1] at hnone
    rw [hadd, if_pos ⟨r, hr, hnone⟩]
    simp only [hkeep.2.2]
  · rw [hadd, hkeep.2.2, if_neg, List.append_nil]
    rintro ⟨r, hr, hnone⟩
    have hr' := hsome r hr
    rw [hkeep.1, hkeep.2.1, hnone] at hr'
    cases hr'

open Classical in
lemma notices_leave : (leave registries evt s o).notices =
    s.notices ++ if Drops registries s o then [⟨.removed, o, evt⟩] else [] := by
  have hkeep : (leave registries evt s o).notices =
      (removeObjectFromRegistry registries evt s o).notices := by
    unfold leave
    rcases unregisterObject_cases (s := removeObjectFromRegistry registries evt s o) (o := o) with
      ⟨-, hrun⟩ | ⟨-, hrun⟩ <;>
      rw [hrun]
  rw [hkeep]
  rcases @removeObjectFromRegistry_cases κ V registries evt s o _ with
    ⟨r, hr, hstored, hremove⟩ | ⟨hnot, hremove⟩
  · rw [hremove, if_pos ⟨r, hr, hstored⟩]
  · rw [hremove, if_neg, List.append_nil]
    rintro ⟨r, hr, hstored⟩
    exact hnot r hr hstored

lemma struct_arrive : (arrive registries evt s o).struct = s.struct ∧
    (arrive registries evt s o).created = s.created := by
  unfold arrive
  rcases @addObjectToRegistry_cases κ V registries evt (registerObject s o) o _ with
    ⟨r, -, -, hadd⟩ | ⟨-, hadd⟩ <;> rw [hadd] <;>
    rcases registerObject_cases (s := s) (o := o) with ⟨-, -, hrun⟩ | ⟨-, hrun⟩ <;> rw [hrun] <;>
      exact ⟨rfl, rfl⟩

lemma struct_leave : (leave registries evt s o).struct = s.struct ∧
    (leave registries evt s o).created = s.created := by
  unfold leave
  rcases unregisterObject_cases (s := removeObjectFromRegistry registries evt s o) (o := o) with
    ⟨-, hrun⟩ | ⟨-, hrun⟩ <;>
    rw [hrun] <;>
    rcases @removeObjectFromRegistry_cases κ V registries evt s o _ with
      ⟨r, -, -, hremove⟩ | ⟨-, hremove⟩ <;> rw [hremove] <;> exact ⟨rfl, rfl⟩

end Parts

/-! ## The invariant -/

section Invariant

variable {κ V : Type*} {registries : ℕ → Option (Registry κ V)} {evt : Option ℕ} {s : Client κ V}
  {o o' : ObusObject}

/-- What holds between the packets, and between the parts of one: the view, and where and how often
objects are stored. -/
structure Sound (registries : ℕ → Option (Registry κ V)) (s : Client κ V) : Prop where
  view : s.View
  handle : ∀ h o, s.bus.lookup h = some o → o.handle = h
  uid : ∀ uid k o, s.stores uid k = some o → o.uid = uid ∧ (registries uid).isSome
  once : ∀ o k k', s.stores o.uid k = some o → s.stores o.uid k' = some o → k = k'
  created : ∀ o, s.OnBus o → o.id < s.created
  noticed : ∀ n ∈ s.notices, n.obj.id < s.created

lemma Client.View.onBus_of_stored (h : s.View) (hstored : s.Stored o) : s.OnBus o :=
  hstored.elim fun k hk => h.onBus _ k o hk

/-- An object of which nothing has been told is not stored. -/
lemma Sound.not_stored (h : Sound registries s) (hnew : s.changes o = []) : ¬s.Stored o := by
  cases h.view.told o with
  | added _ told => rw [hnew] at told; cases told
  | removed _ told => rw [hnew] at told; cases told
  | never missing _ => exact missing

/-- A new object: none on the bus is it, and nothing has been told of it. -/
structure New (s : Client κ V) (o : ObusObject) : Prop where
  onBus : ¬s.OnBus o
  changes : s.changes o = []
  created : o.id < s.created

/-- The view is one of the buses, the stores and the notices. -/
lemma Client.View.congr {s' : Client κ V} (h : s.View) (hbus : s'.bus = s.bus)
    (hstores : s'.stores = s.stores) (hnotices : s'.notices = s.notices) : s'.View := by
  obtain ⟨state, bus, stores, struct, created, notices⟩ := s
  obtain ⟨state', bus', stores', struct', created', notices'⟩ := s'
  simp only at hbus hstores hnotices
  subst hbus hstores hnotices
  refine ⟨h.onBus, fun o => ?_⟩
  cases h.told o with
  | added stored told => exact .added stored told
  | removed left told => exact .removed left told
  | never missing told => exact .never missing told

/-- The rest does not depend on the field values either. -/
lemma Sound.congr {s' : Client κ V} (h : Sound registries s) (hbus : s'.bus = s.bus)
    (hstores : s'.stores = s.stores)
    (hnotices : s'.notices = s.notices) (hcreated : s.created ≤ s'.created) :
    Sound registries s' where
  view := h.view.congr hbus hstores hnotices
  handle := by
    rw [hbus]
    exact h.handle
  uid := by
    rw [hstores]
    exact h.uid
  once := by
    rw [hstores]
    exact h.once
  created o honBus := by
    rw [Client.OnBus, hbus] at honBus
    exact (h.created o honBus).trans_le hcreated
  noticed n hn := by
    rw [hnotices] at hn
    exact (h.noticed n hn).trans_le hcreated

/-- An object is stored, but not on the bus. -/
def Stray (s : Client κ V) (o : ObusObject) : Prop := s.Stored o ∧ ¬s.OnBus o

lemma Stray.not_view (h : Stray s o) : ¬s.View := fun hview => h.2 (hview.onBus_of_stored h.1)

/-- An object that is decoded from data. -/
def OfData (s : Client κ V) (o : ObusObject) (d : ObjectData V) : Prop :=
  o.uid = d.uid ∧ o.handle = d.handle ∧ s.struct o.id = d.struct

lemma leavesOut_nil_iff {d : ObjectData V} (hdata : OfData s o d) : LeavesOut registries s [] d ↔
    ¬Takes registries s o := by
  obtain ⟨huid, -, hstruct⟩ := hdata
  unfold LeavesOut Takes
  rw [huid, hstruct]
  simp [Option.isSome_iff_ne_none]

lemma takesHandle_nil_iff {d : ObjectData V} (hdata : OfData s o d) :
    TakesHandle s [] d ↔ o.handle ≠ obusInvalidHandle ∧ o.handle ∉ s.bus := by
  rw [hdata.2.1]
  simp [TakesHandle]

/-- What is known of the objects of a packet, before they arrive. -/
structure Arrivals (s : Client κ V) (os : List ObusObject) (ds : List (ObjectData V)) : Prop where
  data : List.Forall₂ (OfData s) os ds
  new : ∀ o ∈ os, New s o
  nodup : os.Nodup

/-! Events change field values only. -/

lemma keep_commits (es : List (ObusObject × Fields V)) (s : Client κ V) :
    (es.foldl commit s).bus = s.bus ∧
    (es.foldl commit s).stores = s.stores ∧ (es.foldl commit s).notices = s.notices ∧
      (es.foldl commit s).created = s.created := by
  induction es generalizing s with
  | nil => exact ⟨rfl, rfl, rfl, rfl⟩
  | cons e es ih => exact ih (commit s e)

/-- The field values that events leave an object with depend on the ones that it had only. -/
lemma struct_commits_congr {s s' : Client κ V} {id : ℕ} (es : List (ObusObject × Fields V))
    (h : s.struct id = s'.struct id) :
    (es.foldl commit s).struct id = (es.foldl commit s').struct id := by
  induction es generalizing s s' with
  | nil => exact h
  | cons e es ih =>
    refine ih ?_
    simp only [commit, Function.update_apply]
    split_ifs with hid
    · rw [← hid, h]
    · exact h

/-! Objects are decoded. -/

/-- What the objects of a packet are decoded to, when `s` becomes `t`. -/
structure Decoded (s t : Client κ V) (os : List ObusObject) (ds : List (ObjectData V)) : Prop where
  eq : t = { s with struct := t.struct, created := t.created }
  data : List.Forall₂ (OfData t) os ds
  fresh : ∀ o ∈ os, s.created ≤ o.id ∧ o.id < t.created
  nodup : os.Nodup
  old : ∀ id < s.created, t.struct id = s.struct id
  created : s.created ≤ t.created

lemma decoded (ds : List (ObjectData V)) (s : Client κ V) :
    Decoded s (decodeObjects ds s).2 (decodeObjects ds s).1 ds := by
  induction ds generalizing s with
  | nil =>
    exact ⟨rfl, .nil, fun o ho => absurd ho List.not_mem_nil, List.nodup_nil,
      fun _ _ => rfl, le_rfl⟩
  | cons d ds ih =>
    have hrest := ih (decodeObject d s).2
    have hnext : s.created < (decodeObjects ds (decodeObject d s).2).2.created := hrest.created
    refine ⟨?_, .cons ⟨rfl, rfl, ?_⟩ hrest.data, ?_, ?_, fun id hid => ?_, hnext.le⟩
    · have heq := hrest.eq
      exact heq
    · refine (hrest.old s.created (Nat.lt_succ_self _)).trans ?_
      exact Function.update_self _ _ _
    · rw [decodeObjects, List.forall_mem_cons]
      refine ⟨⟨le_rfl, hnext⟩, fun o ho => ?_⟩
      obtain ⟨hle, hlt⟩ := hrest.fresh o ho
      exact ⟨Nat.le_of_succ_le hle, hlt⟩
    · rw [decodeObjects, List.nodup_cons]
      refine ⟨fun hmem => ?_, hrest.nodup⟩
      exact absurd (hrest.fresh _ hmem).1 (Nat.not_succ_le_self _)
    · refine (hrest.old id (Nat.lt_succ_of_lt hid)).trans ?_
      exact Function.update_of_ne hid.ne _ _

lemma Decoded.sound {t : Client κ V} {os : List ObusObject} {ds : List (ObjectData V)}
    (h : Decoded s t os ds) (hsound : Sound registries s) : Sound registries t := by
  rw [h.eq]
  exact hsound.congr rfl rfl rfl h.created

/-- Decoded objects are new. -/
lemma Decoded.arrivals {t : Client κ V} {os : List ObusObject} {ds : List (ObjectData V)}
    (h : Decoded s t os ds) (hsound : Sound registries s) : Arrivals t os ds := by
  refine ⟨h.data, fun o ho => ⟨fun honBus => ?_, ?_, (h.fresh o ho).2⟩, h.nodup⟩
  · rw [h.eq] at honBus
    exact absurd (h.fresh o ho).1 (Nat.not_le.mpr (hsound.created o honBus))
  · rw [h.eq]
    have hnone : s.notices.filter (fun n => n.obj = o) = [] := by
      refine List.filter_eq_nil_iff.mpr fun n hn hobj => ?_
      have hid := hsound.noticed n hn
      rw [of_decide_eq_true hobj] at hid
      exact absurd (h.fresh o ho).1 (Nat.not_le.mpr hid)
    unfold Client.changes
    rw [hnone, List.map_nil]

lemma Decoded.fits_iff {t : Client κ V} {os : List ObusObject} {ds : List (ObjectData V)}
    (h : Decoded s t os ds) : Fits registries t ds ↔ Fits registries s ds := by
  rw [h.eq]
  exact Iff.rfl

/-- The objects of the bus keep their keys over the decoding. -/
lemma Decoded.keyKept_iff {t : Client κ V} {os : List ObusObject} {ds : List (ObjectData V)}
    (h : Decoded s t os ds)
    (hsound : Sound registries s) (honBus : s.OnBus o) (es : List (ObusObject × Fields V)) :
    KeyKept registries t (es.foldl commit t).struct o ↔
    KeyKept registries s (es.foldl commit s).struct o := by
  have hstores : t.stores = s.stores := by rw [h.eq]
  have hstruct := struct_commits_congr es (h.old o.id (hsound.created o honBus))
  unfold KeyKept
  rw [hstores, hstruct]

/-! What a packet starts with, and what it comes to. -/

lemma arrivals_nil (s : Client κ V) : Arrivals s [] [] :=
  ⟨.nil, fun _ ho => absurd ho List.not_mem_nil, List.nodup_nil⟩

lemma fits_nil : Fits registries s [] := fun _ hi => absurd hi (Nat.not_lt_zero _)

/-- What is found on the bus is on the bus. -/
lemma Sound.onBus_of_findObject {uid handle : ℕ} (h : Sound registries s)
    (hfind : s.bus.findObject uid handle = some o) : s.OnBus o := by
  have hlookup := (Option.filter_eq_some_iff.mp hfind).1
  rw [Client.OnBus, h.handle handle o hlookup]
  exact hlookup

lemma Sound.mem_objects_iff (h : Sound registries s) (order : ObjectOrder) :
    (∀ o ∈ order.objects s.bus, s.OnBus o) ∧
      ∀ P : ObusObject → Prop, (∀ o ∈ order.objects s.bus, P o) ↔ ∀ e ∈ s.bus.entries, P e.2 := by
  have hmem : ∀ o, o ∈ order.objects s.bus ↔ ∃ e ∈ s.bus.entries, e.2 = o := fun o => by
    rw [(order.perm s.bus).mem_iff, List.mem_map]
  refine ⟨fun o ho => ?_, fun P => ?_⟩
  · obtain ⟨e, he, rfl⟩ := (hmem o).mp ho
    have hlookup : s.bus.lookup e.1 = some e.2 := AList.mem_lookup_iff.mpr he
    rw [Client.OnBus, h.handle e.1 e.2 hlookup]
    exact hlookup
  · simp only [hmem, forall_exists_index, and_imp, forall_apply_eq_imp_iff₂]

/-- What is reached is sound if the condition holds, and not a view otherwise. -/
structure Decides (registries : ℕ → Option (Registry κ V)) (C : Prop) (t : Client κ V) : Prop where
  sound : C → Sound registries t
  broken : ¬C → ¬t.View

lemma Decides.of_sound {C : Prop} {t : Client κ V} (h : Sound registries t) (hC : C) :
    Decides registries C t :=
  ⟨fun _ => h, fun hnot => absurd hC hnot⟩

lemma Decides.iff {C C' : Prop} {t : Client κ V} (h : Decides registries C t) (hiff : C ↔ C') :
    Decides registries C' t :=
  ⟨fun hC => h.sound (hiff.mpr hC), fun hnot => h.broken fun hC => hnot (hiff.mp hC)⟩

lemma Decides.congr {C : Prop} {t t' : Client κ V} (h : Decides registries C t)
    (hbus : t'.bus = t.bus)
    (hstores : t'.stores = t.stores) (hnotices : t'.notices = t.notices)
    (hcreated : t'.created = t.created) : Decides registries C t' :=
  ⟨fun hC => (h.sound hC).congr hbus hstores hnotices hcreated.ge,
    fun hnot hview => h.broken hnot (hview.congr hbus.symm hstores.symm hnotices.symm)⟩

/-- The client starts sound. -/
lemma sound_init (registries : ℕ → Option (Registry κ V)) : Sound registries {} where
  view := by
    refine ⟨fun uid k o hstored => ?_, fun o => .never ?_ rfl⟩
    · cases hstored
    · rintro ⟨k, hk⟩
      cases hk
  handle h o hlookup := by
    rw [AList.lookup_empty] at hlookup
    cases hlookup
  uid uid k o hstored := by cases hstored
  once o k k' hstored := by cases hstored
  created o honBus := by
    rw [Client.OnBus, AList.lookup_empty] at honBus
    cases honBus
  noticed n hn := absurd hn List.not_mem_nil

variable [DecidableEq κ]

lemma onBus_arrive_iff : (arrive registries evt s o).OnBus o' ↔
    (o = o' ∧ o.handle ≠ obusInvalidHandle ∧ o.handle ∉ s.bus) ∨ s.OnBus o' := by
  unfold Client.OnBus
  rw [lookup_arrive]
  by_cases hcond : o'.handle = o.handle ∧ o.handle ≠ obusInvalidHandle ∧ o.handle ∉ s.bus
  · rw [if_pos hcond, Option.some_inj]
    refine ⟨fun heq => Or.inl ⟨heq, hcond.2⟩, ?_⟩
    rintro (⟨rfl, -⟩ | honBus)
    · rfl
    · rw [hcond.1, AList.lookup_eq_none.mpr hcond.2.2] at honBus
      cases honBus
  · rw [if_neg hcond]
    refine ⟨Or.inr, ?_⟩
    rintro (⟨rfl, hrest⟩ | honBus)
    · exact absurd ⟨rfl, hrest⟩ hcond
    · exact honBus

lemma stored_arrive {uid : ℕ} {k : Option κ}
    (h : (arrive registries evt s o).stores uid k = some o') :
    (o = o' ∧ uid = o.uid ∧ Takes registries s o ∧ ∃ r ∈ registries o.uid,
      r.key (s.struct o.id) = k) ∨
      s.stores uid k = some o' := by
  rw [stores_arrive] at h
  split_ifs at h with hcond
  · obtain ⟨rfl, ⟨r, hr, rfl⟩, hnone⟩ := hcond
    exact Or.inl ⟨Option.some_inj.mp h, rfl, ⟨r, hr, hnone⟩, r, hr, rfl⟩
  · exact Or.inr h

/-- What is stored stays stored when an object arrives. -/
lemma stores_arrive_of_some {uid : ℕ} {k : Option κ} (h : s.stores uid k = some o') :
    (arrive registries evt s o).stores uid k = some o' := by
  rw [stores_arrive, if_neg, h]
  rintro ⟨-, -, hnone⟩
  rw [h] at hnone
  cases hnone

lemma changes_arrive_of_ne (hne : o ≠ o') :
    (arrive registries evt s o).changes o' = s.changes o' := by
  unfold Client.changes
  rw [notices_arrive, List.filter_append, List.map_append]
  split_ifs <;> simp [hne]

lemma changes_leave_of_ne (hne : o ≠ o') :
    (leave registries evt s o).changes o' = s.changes o' := by
  unfold Client.changes
  rw [notices_leave, List.filter_append, List.map_append]
  split_ifs <;> simp [hne]

lemma changes_arrive_of_takes (h : Takes registries s o) :
    (arrive registries evt s o).changes o = s.changes o ++ [.added] := by
  unfold Client.changes
  rw [notices_arrive, if_pos h, List.filter_append, List.map_append]
  simp

lemma changes_arrive_of_not_takes (h : ¬Takes registries s o) :
    (arrive registries evt s o).changes o' = s.changes o' := by
  unfold Client.changes
  rw [notices_arrive, if_neg h, List.append_nil]

lemma changes_leave_of_drops (h : Drops registries s o) :
    (leave registries evt s o).changes o = s.changes o ++ [.removed] := by
  unfold Client.changes
  rw [notices_leave, if_pos h, List.filter_append, List.map_append]
  simp

lemma changes_leave_of_not_drops (h : ¬Drops registries s o) :
    (leave registries evt s o).changes o' = s.changes o' := by
  unfold Client.changes
  rw [notices_leave, if_neg h, List.append_nil]

/-- An object that gets its handle or is left out arrives. -/
lemma sound_arrive (h : Sound registries s) (hnew : New s o)
    (hfit : (o.handle ≠ obusInvalidHandle ∧ o.handle ∉ s.bus) ∨ ¬Takes registries s o) :
    Sound registries (arrive registries evt s o) := by
  have hmissing := h.not_stored hnew.changes
  refine ⟨⟨fun uid k o' hstored => ?_, fun o' => ?_⟩, fun handle o' hlookup => ?_,
    fun uid k o' hstored => ?_,
    fun o' k k' hk hk' => ?_, fun o' honBus => ?_, fun n hn => ?_⟩
  · rw [onBus_arrive_iff]
    rcases stored_arrive hstored with ⟨rfl, -, htakes, -⟩ | hstored
    · exact Or.inl ⟨rfl, hfit.resolve_right (not_not.mpr htakes)⟩
    · exact Or.inr (h.view.onBus uid k o' hstored)
  · by_cases hsame : o = o'
    · subst hsame
      by_cases htakes : Takes registries s o
      · refine .added ?_ ?_
        · obtain ⟨r, hr, hnone⟩ := htakes
          exact ⟨r.key (s.struct o.id), by rw [stores_arrive, if_pos ⟨rfl, ⟨r, hr, rfl⟩, hnone⟩]⟩
        · rw [changes_arrive_of_takes htakes, hnew.changes, List.nil_append]
      · refine .never ?_ ?_
        · rintro ⟨k, hk⟩
          rcases stored_arrive hk with ⟨-, -, htakes', -⟩ | hk
          · exact htakes htakes'
          · exact hmissing ⟨k, hk⟩
        · rw [changes_arrive_of_not_takes htakes, hnew.changes]
    · cases h.view.told o' with
      | added stored told =>
        obtain ⟨k, hk⟩ := stored
        exact .added ⟨k, stores_arrive_of_some hk⟩ (by rw [changes_arrive_of_ne hsame, told])
      | removed left told =>
        refine .removed (fun honBus => ?_) (by rw [changes_arrive_of_ne hsame, told])
        rcases onBus_arrive_iff.mp honBus with ⟨heq, -⟩ | honBus
        · exact hsame heq
        · exact left honBus
      | never missing told =>
        refine .never ?_ (by rw [changes_arrive_of_ne hsame, told])
        rintro ⟨k, hk⟩
        rcases stored_arrive hk with ⟨heq, -⟩ | hk
        · exact hsame heq
        · exact missing ⟨k, hk⟩
  · rw [lookup_arrive] at hlookup
    split_ifs at hlookup with hcond
    · cases hlookup
      exact hcond.1.symm
    · exact h.handle handle o' hlookup
  · rcases stored_arrive hstored with ⟨rfl, huid, -, r, hr, -⟩ | hstored
    · exact ⟨huid.symm, by rw [huid]; exact Option.isSome_iff_exists.mpr ⟨r, hr⟩⟩
    · exact h.uid uid k o' hstored
  · rcases stored_arrive hk with ⟨rfl, -, -, r, hr, rfl⟩ | hk <;> rcases stored_arrive hk' with
      ⟨heq, -, -, r', hr', rfl⟩ | hk'
    · rw [Option.mem_unique hr hr']
    · exact absurd ⟨k', hk'⟩ hmissing
    · exact absurd ⟨k, heq ▸ hk⟩ hmissing
    · exact h.once o' k k' hk hk'
  · rw [struct_arrive.2]
    rcases onBus_arrive_iff.mp honBus with ⟨rfl, -⟩ | honBus
    · exact hnew.created
    · exact h.created o' honBus
  · rw [struct_arrive.2]
    rw [notices_arrive] at hn
    rcases List.mem_append.mp hn with hn | hn
    · exact h.noticed n hn
    · split_ifs at hn
      · rw [List.mem_singleton.mp hn]
        exact hnew.created
      · cases hn

lemma onBus_leave_iff (honBus : s.OnBus o) : (leave registries evt s o).OnBus o' ↔ s.OnBus o' ∧
    o' ≠ o := by
  unfold Client.OnBus at honBus ⊢
  rw [lookup_leave]
  split_ifs with hhandle
  · refine ⟨fun hnone => (by cases hnone), fun ⟨ho', hne⟩ => absurd ?_ hne⟩
    rw [hhandle, honBus] at ho'
    exact (Option.some_inj.mp ho').symm
  · refine ⟨fun ho' => ⟨ho', fun heq => hhandle (heq ▸ rfl)⟩, And.left⟩

lemma stored_leave {uid : ℕ} {k : Option κ}
    (h : (leave registries evt s o).stores uid k = some o') : s.stores uid k = some o' := by
  rw [stores_leave] at h
  split_ifs at h
  exact h

/-- An object that is on the bus, and whose key has been kept if it is stored, leaves. -/
lemma sound_leave (h : Sound registries s) (honBus : s.OnBus o)
    (hkept : KeyKept registries s s.struct o) : Sound registries (leave registries evt s o) := by
  have hdrops : s.Stored o → Drops registries s o := by
    rintro ⟨k, hk⟩
    obtain ⟨r, hr⟩ := Option.isSome_iff_exists.mp (h.uid _ k o hk).2
    exact ⟨r, hr, (hkept r hr k hk).symm ▸ hk⟩
  have hgone : ∀ k, (leave registries evt s o).stores o.uid k ≠ some o := by
    intro k hk
    have hk' := stored_leave hk
    obtain ⟨r, hr⟩ := Option.isSome_iff_exists.mp (h.uid _ k o hk').2
    rw [stores_leave, if_pos ⟨rfl, ⟨r, hr, hkept r hr k hk'⟩, hk'⟩] at hk
    cases hk
  refine ⟨⟨fun uid k o' hstored => ?_, fun o' => ?_⟩, fun handle o' hlookup => ?_,
    fun uid k o' hstored => h.uid uid k o' (stored_leave hstored),
    fun o' k k' hk hk' => h.once o' k k' (stored_leave hk) (stored_leave hk'), fun o' honBus' => ?_,
      fun n hn => ?_⟩
  · rw [onBus_leave_iff honBus]
    refine ⟨h.view.onBus uid k o' (stored_leave hstored), ?_⟩
    rintro rfl
    have huid := (h.uid uid k o' (stored_leave hstored)).1
    subst huid
    exact hgone k hstored
  · by_cases hsame : o = o'
    · subst hsame
      have hleft : ¬(leave registries evt s o).OnBus o :=
        fun honBus' => ((onBus_leave_iff honBus).mp honBus').2 rfl
      cases h.view.told o with
      | added stored told =>
        exact .removed hleft (by rw [changes_leave_of_drops (hdrops stored), told]; rfl)
      | removed left told => exact absurd honBus left
      | never missing told =>
        refine .never (fun ⟨k, hk⟩ => hgone k hk) ?_
        rw [changes_leave_of_not_drops, told]
        rintro ⟨r, hr, hstored⟩
        exact missing ⟨_, hstored⟩
    · cases h.view.told o' with
      | added stored told =>
        obtain ⟨k, hk⟩ := stored
        refine .added ⟨k, ?_⟩ (by rw [changes_leave_of_ne hsame, told])
        rw [stores_leave, if_neg, hk]
        rintro ⟨-, -, hother⟩
        rw [hk] at hother
        exact hsame (Option.some_inj.mp hother).symm
      | removed left told =>
        refine .removed (fun honBus' => left ?_) (by rw [changes_leave_of_ne hsame, told])
        exact ((onBus_leave_iff honBus).mp honBus').1
      | never missing told =>
        refine .never ?_ (by rw [changes_leave_of_ne hsame, told])
        rintro ⟨k, hk⟩
        exact missing ⟨k, stored_leave hk⟩
  · rw [lookup_leave] at hlookup
    split_ifs at hlookup
    exact h.handle handle o' hlookup
  · rw [struct_leave.2]
    exact h.created o' ((onBus_leave_iff honBus).mp honBus').1
  · rw [struct_leave.2]
    rw [notices_leave] at hn
    rcases List.mem_append.mp hn with hn | hn
    · exact h.noticed n hn
    · split_ifs at hn
      · rw [List.mem_singleton.mp hn]
        exact h.created o honBus
      · cases hn

/-! ## Many objects -/

/-- The first object of a packet fits, and the others fit when it has arrived. -/
lemma fits_cons {d : ObjectData V} {ds : List (ObjectData V)} (hdata : OfData s o d) :
    Fits registries s (d :: ds) ↔
    ((o.handle ≠ obusInvalidHandle ∧ o.handle ∉ s.bus) ∨ ¬Takes registries s o) ∧
      Fits registries (arrive registries evt s o) ds := by
  have hhandle : ∀ before e, TakesHandle s (d :: before) e ↔
      TakesHandle (arrive registries evt s o) before e := by
    intro before e
    have hmem : e.handle ∉ (arrive registries evt s o).bus ↔
        ¬(e.handle = o.handle ∧ o.handle ≠ obusInvalidHandle ∧ o.handle ∉ s.bus) ∧
        e.handle ∉ s.bus := by
      rw [← AList.lookup_eq_none, lookup_arrive]
      split_ifs with hcond
      · simp [hcond]
      · rw [AList.lookup_eq_none]
        exact ⟨fun h => ⟨hcond, h⟩, And.right⟩
    unfold TakesHandle
    rw [hmem, List.forall_mem_cons, ← hdata.2.1]
    constructor
    · rintro ⟨hvalid, hfree, hne, hbefore⟩
      exact ⟨hvalid, ⟨fun hall => hne hall.1.symm, hfree⟩, hbefore⟩
    · rintro ⟨hvalid, ⟨hnot, hfree⟩, hbefore⟩
      exact ⟨hvalid, hfree, fun heq => hnot ⟨heq.symm, heq ▸ hvalid, heq ▸ hfree⟩, hbefore⟩
  have hout : ∀ before e, LeavesOut registries s (d :: before) e ↔
      LeavesOut registries (arrive registries evt s o) before e := by
    intro before e
    have hstore : ∀ r ∈ registries e.uid, ∀ k, ((arrive registries evt s o).stores e.uid k).isSome ↔
        (s.stores e.uid k).isSome ∨ (o.uid = e.uid ∧ r.key (s.struct o.id) = k) := by
      intro r hr k
      rw [stores_arrive]
      split_ifs with hcond
      · obtain ⟨huid, ⟨r', hr', hk⟩, -⟩ := hcond
        rw [huid] at hr
        rw [Option.mem_unique hr hr']
        simp [huid, hk]
      · refine ⟨Or.inl, ?_⟩
        rintro (hsome | ⟨huid, hk⟩)
        · exact hsome
        · by_contra hnone
          exact hcond ⟨huid.symm, ⟨r, huid ▸ hr, hk⟩, Option.not_isSome_iff_eq_none.mp hnone⟩
    unfold LeavesOut
    refine forall₂_congr fun r hr => ?_
    rw [hstore r hr, hdata.1, hdata.2.2]
    simp only [List.exists_mem_cons_iff]
    tauto
  rw [← takesHandle_nil_iff hdata, ← leavesOut_nil_iff hdata]
  constructor
  · intro h
    refine ⟨h 0 (Nat.succ_pos _), fun i hi => ?_⟩
    have hnext := h (i + 1) (Nat.succ_lt_succ hi)
    rwa [List.take_succ_cons, List.getElem_cons_succ, hhandle, hout] at hnext
  · rintro ⟨hfirst, hrest⟩ i hi
    cases i with
    | zero => exact hfirst
    | succ i =>
      rw [List.take_succ_cons, List.getElem_cons_succ, hhandle, hout]
      exact hrest i (Nat.lt_of_succ_lt_succ hi)

lemma Arrivals.tail {d : ObjectData V} {os : List ObusObject} {ds : List (ObjectData V)}
    (h : Arrivals s (o :: os) (d :: ds)) : Arrivals (arrive registries evt s o) os ds := by
  obtain ⟨hdata, hnew, hnodup⟩ := h
  rw [List.nodup_cons] at hnodup
  refine ⟨?_, fun o' ho' => ?_, hnodup.2⟩
  · refine (List.forall₂_cons.mp hdata).2.imp fun o' d' h' => ?_
    rwa [OfData, struct_arrive.1]
  · have hne : o ≠ o' := fun heq => hnodup.1 (heq ▸ ho')
    have hnew' := hnew o' (List.mem_cons_of_mem o ho')
    refine ⟨fun honBus => ?_, by rw [changes_arrive_of_ne hne, hnew'.changes],
      by rw [struct_arrive.2]; exact hnew'.created⟩
    rcases onBus_arrive_iff.mp honBus with ⟨heq, -⟩ | honBus
    · exact hne heq
    · exact hnew'.onBus honBus

/-- Objects that fit arrive. -/
lemma sound_arrivals {os : List ObusObject} {ds : List (ObjectData V)} (h : Sound registries s)
    (harrivals : Arrivals s os ds)
    (hfits : Fits registries s ds) : Sound registries (os.foldl (arrive registries evt) s) := by
  induction os generalizing s ds with
  | nil => exact h
  | cons o os ih =>
    obtain ⟨d, ds, hdata, -, rfl⟩ := List.forall₂_cons_left_iff.mp harrivals.data
    obtain ⟨hfirst, hrest⟩ := (@fits_cons _ _ _ evt _ _ _ _ _ hdata).mp hfits
    exact ih (sound_arrive h (harrivals.new o List.mem_cons_self) hfirst) harrivals.tail hrest

lemma Stray.arrivals {os : List ObusObject} (h : Stray s o) (hnew : o ∉ os) :
    Stray (os.foldl (arrive registries evt) s) o := by
  induction os generalizing s with
  | nil => exact h
  | cons o' os ih =>
    rw [List.mem_cons, not_or] at hnew
    obtain ⟨⟨k, hk⟩, hleft⟩ := h
    refine ih ⟨⟨k, stores_arrive_of_some hk⟩, fun honBus => ?_⟩ hnew.2
    rcases onBus_arrive_iff.mp honBus with ⟨heq, -⟩ | honBus
    · exact hnew.1 heq.symm
    · exact hleft honBus

/-- Where one does not fit, a new object becomes a stray one. -/
lemma exists_stray {os : List ObusObject} {ds : List (ObjectData V)} (h : Sound registries s)
    (harrivals : Arrivals s os ds)
    (hfits : ¬Fits registries s ds) : ∃ o ∈ os, Stray (os.foldl (arrive registries evt) s) o := by
  induction os generalizing s ds with
  | nil =>
    obtain rfl := List.forall₂_nil_left_iff.mp harrivals.data
    exact absurd (fun i hi => absurd hi (Nat.not_lt_zero i)) hfits
  | cons o os ih =>
    obtain ⟨d, ds, hdata, -, rfl⟩ := List.forall₂_cons_left_iff.mp harrivals.data
    have hnew := harrivals.new o List.mem_cons_self
    by_cases hfirst : (o.handle ≠ obusInvalidHandle ∧ o.handle ∉ s.bus) ∨ ¬Takes registries s o
    · have hrest : ¬Fits registries (arrive registries evt s o) ds := fun hrest =>
        hfits ((@fits_cons _ _ _ evt _ _ _ _ _ hdata).mpr ⟨hfirst, hrest⟩)
      obtain ⟨o', ho', hstray⟩ := ih (sound_arrive h hnew hfirst) harrivals.tail hrest
      exact ⟨o', List.mem_cons_of_mem o ho', hstray⟩
    · obtain ⟨hhandle, htakes⟩ := not_or.mp hfirst
      obtain ⟨r, hr, hnone⟩ := not_not.mp htakes
      have hstray : Stray (arrive registries evt s o) o := by
        refine ⟨⟨r.key (s.struct o.id), by rw [stores_arrive, if_pos ⟨rfl, ⟨r, hr, rfl⟩, hnone⟩]⟩,
          ?_⟩
        rw [onBus_arrive_iff]
        rintro (⟨-, hok⟩ | honBus)
        · exact hhandle hok
        · exact hnew.onBus honBus
      exact ⟨o, List.mem_cons_self, hstray.arrivals (List.nodup_cons.mp harrivals.nodup).1⟩

/-! What arrivals leave as it is. -/

lemma keep_arrivals (os : List ObusObject) (s : Client κ V) :
    (os.foldl (arrive registries evt) s).struct = s.struct ∧
    (os.foldl (arrive registries evt) s).created = s.created := by
  induction os generalizing s with
  | nil => exact ⟨rfl, rfl⟩
  | cons o os ih =>
    obtain ⟨hstruct, hcreated⟩ := ih (arrive registries evt s o)
    exact ⟨hstruct.trans struct_arrive.1, hcreated.trans struct_arrive.2⟩

lemma onBus_arrivals {os : List ObusObject} (hnew : o ∉ os) (honBus : s.OnBus o) :
    (os.foldl (arrive registries evt) s).OnBus o := by
  induction os generalizing s with
  | nil => exact honBus
  | cons o' os ih =>
    rw [List.mem_cons, not_or] at hnew
    exact ih hnew.2 (onBus_arrive_iff.mpr (Or.inr honBus))

lemma stores_arrivals {os : List ObusObject} {uid : ℕ} {k : Option κ} (hnew : o ∉ os) :
    (os.foldl (arrive registries evt) s).stores uid k = some o ↔ s.stores uid k = some o := by
  induction os generalizing s with
  | nil => exact Iff.rfl
  | cons o' os ih =>
    rw [List.mem_cons, not_or] at hnew
    refine (ih hnew.2).trans ⟨fun hk => ?_, stores_arrive_of_some⟩
    rcases stored_arrive hk with ⟨heq, -⟩ | hk
    · exact absurd heq.symm hnew.1
    · exact hk

/-! Objects leave. -/

/-- Where an object is not on the bus, nothing leaves. -/
lemma leave_eq_self (hbus : o.handle ∉ s.bus) (hmissing : ¬s.Stored o) :
    leave registries evt s o = s := by
  have hremove : removeObjectFromRegistry registries evt s o = s := by
    rcases @removeObjectFromRegistry_cases κ V registries evt s o _ with
      ⟨r, -, hstored, -⟩ | ⟨-, hremove⟩
    · exact absurd ⟨_, hstored⟩ hmissing
    · exact hremove
  unfold leave
  rw [hremove]
  rcases unregisterObject_cases (s := s) (o := o) with ⟨hmem, -⟩ | ⟨-, hrun⟩
  · exact absurd hmem hbus
  · exact hrun

/-- Objects of the bus leave, some of them twice perhaps. -/
lemma sound_leaves {us : List ObusObject} (h : Sound registries s)
    (hus : ∀ o ∈ us, (s.OnBus o ∨ o.handle ∉ s.bus) ∧ KeyKept registries s s.struct o) :
    Sound registries (us.foldl (leave registries evt) s) := by
  induction us generalizing s with
  | nil => exact h
  | cons o us ih =>
    obtain ⟨⟨honBus, hkept⟩, hrest⟩ := List.forall_mem_cons.mp hus
    rw [List.foldl_cons]
    rcases honBus with honBus | hbus
    · refine ih (sound_leave h honBus hkept) fun o' ho' => ⟨?_, fun r hr k hk => ?_⟩
      · rcases eq_or_ne o' o with rfl | hne
        · refine Or.inr ?_
          rw [← AList.lookup_eq_none, lookup_leave, if_pos rfl]
        · refine (hrest o' ho').1.imp (fun honBus' => (onBus_leave_iff honBus).mpr ⟨honBus', hne⟩)
            fun hbus' => ?_
          rw [← AList.lookup_eq_none, lookup_leave]
          split_ifs
          · rfl
          · exact AList.lookup_eq_none.mpr hbus'
      · rw [struct_leave.1]
        exact (hrest o' ho').2 r hr k (stored_leave hk)
    · have hmissing : ¬s.Stored o := fun hstored => by
        have honBus := h.view.onBus_of_stored hstored
        rw [Client.OnBus, AList.lookup_eq_none.mpr hbus] at honBus
        cases honBus
      rw [leave_eq_self hbus hmissing]
      exact ih h hrest

lemma not_onBus_leave (hleft : ¬s.OnBus o) : ¬(leave registries evt s o').OnBus o := by
  unfold Client.OnBus at hleft ⊢
  rw [lookup_leave]
  split_ifs
  · exact fun hnone => by cases hnone
  · exact hleft

lemma not_onBus_leaves {us : List ObusObject} (hleft : ¬s.OnBus o ∨ o ∈ us) :
    ¬(us.foldl (leave registries evt) s).OnBus o := by
  induction us generalizing s with
  | nil => exact hleft.resolve_right List.not_mem_nil
  | cons o' us ih =>
    refine ih ?_
    rcases hleft with hleft | hmem
    · exact Or.inl (not_onBus_leave hleft)
    · refine (List.mem_cons.mp hmem).imp (fun heq => ?_) id
      rw [heq, Client.OnBus, lookup_leave, if_pos rfl]
      exact fun hnone => by cases hnone

/-- A stored object that the registry does not find under the key of its field values stays stored.
-/
lemma stored_leaves {us : List ObusObject} {k : Option κ} (hk : s.stores o.uid k = some o)
    (hkey : o ∈ us → ∃ r ∈ registries o.uid, r.key (s.struct o.id) ≠ k) :
    (us.foldl (leave registries evt) s).stores o.uid k = some o := by
  induction us generalizing s with
  | nil => exact hk
  | cons o' us ih =>
    refine ih ?_ fun hmem => ?_
    · rw [stores_leave, if_neg, hk]
      rintro ⟨-, ⟨r, hr, hsame⟩, hk'⟩
      obtain rfl : o = o' := Option.some_inj.mp (hk.symm.trans hk')
      obtain ⟨r', hr', hne⟩ := hkey List.mem_cons_self
      rw [Option.mem_unique hr' hr] at hne
      exact hne hsame
    · rw [struct_leave.1]
      exact hkey (List.mem_cons_of_mem o' hmem)

/-! ## The packets -/

/-- Objects arrive that fit, and objects of the bus leave that have their keys when the events are
committed. -/
lemma sound_perform {os us : List ObusObject} {ds : List (ObjectData V)}
    {es : List (ObusObject × Fields V)}
    (h : Sound registries s) (harrivals : Arrivals s os ds) (hfits : Fits registries s ds)
    (hus : ∀ o ∈ us, s.OnBus o ∧ KeyKept registries s (es.foldl commit s).struct o) :
    Sound registries (perform registries evt os us es s) := by
  obtain ⟨hbus, hstores, hnotices, hcreated⟩ := keep_commits es (os.foldl (arrive registries evt) s)
  have hsound := (@sound_arrivals _ _ _ evt _ _ _ _ h harrivals hfits).congr hbus hstores hnotices
    hcreated.ge
  refine sound_leaves hsound fun o ho => ?_
  obtain ⟨honBus, hkept⟩ := hus o ho
  have hnew : o ∉ os := fun hmem => (harrivals.new o hmem).onBus honBus
  refine ⟨Or.inl ?_, fun r hr k hk => ?_⟩
  · rw [Client.OnBus, hbus]
    exact onBus_arrivals hnew honBus
  · rw [struct_commits_congr es (congrFun (keep_arrivals os s).1 o.id)]
    rw [hstores] at hk
    exact hkept r hr k ((stores_arrivals hnew).mp hk)

/-- Otherwise an object stays in a registry that is not on the bus. -/
lemma not_view_perform {os us : List ObusObject} {ds : List (ObjectData V)}
    {es : List (ObusObject × Fields V)}
    (h : Sound registries s) (harrivals : Arrivals s os ds) (honBus : ∀ o ∈ us, s.OnBus o)
    (hbad : ¬(Fits registries s ds ∧ ∀ o ∈ us, KeyKept registries s (es.foldl commit s).struct o)) :
    ¬(perform registries evt os us es s).View := by
  obtain ⟨hbus, hstores, -⟩ := keep_commits es (os.foldl (arrive registries evt) s)
  by_cases hfits : Fits registries s ds
  · obtain ⟨o, ho, hkept⟩ : ∃ o ∈ us, ¬KeyKept registries s (es.foldl commit s).struct o := by
      by_contra hall
      push Not at hall
      exact hbad ⟨hfits, hall⟩
    unfold KeyKept at hkept
    push Not at hkept
    obtain ⟨r, hr, k, hk, hkey⟩ := hkept
    have hnew : o ∉ os := fun hmem => (harrivals.new o hmem).onBus (honBus o ho)
    refine Stray.not_view (o := o)
      ⟨⟨k, stored_leaves ?_ fun _ => ⟨r, hr, ?_⟩⟩, not_onBus_leaves (Or.inr ho)⟩
    · rw [hstores]
      exact (stores_arrivals hnew).mpr hk
    · rwa [struct_commits_congr es (congrFun (keep_arrivals os s).1 o.id)]
  · obtain ⟨o, ho, ⟨k, hk⟩, hleft⟩ := @exists_stray _ _ _ evt _ _ _ _ h harrivals hfits
    refine Stray.not_view (o := o)
      ⟨⟨k, stored_leaves ?_ fun hmem => ?_⟩, not_onBus_leaves (Or.inl ?_)⟩
    · rw [hstores]
      exact hk
    · exact absurd (honBus o hmem) (harrivals.new o ho).onBus
    · rwa [Client.OnBus, hbus]

lemma decides_perform {os us : List ObusObject} {ds : List (ObjectData V)}
    (es : List (ObusObject × Fields V))
    (h : Sound registries s) (harrivals : Arrivals s os ds) (honBus : ∀ o ∈ us, s.OnBus o) :
    Decides registries (Fits registries s ds ∧
      ∀ o ∈ us, KeyKept registries s (es.foldl commit s).struct o)
      (perform registries evt os us es s) :=
  ⟨fun hC => sound_perform h harrivals hC.1 fun o ho => ⟨honBus o ho, hC.2 o ho⟩,
    not_view_perform h harrivals honBus⟩

lemma decides_dispatchOwn {eventsDesc : List ℕ} {os us : List ObusObject}
    {ds : List (ObjectData V)} (uid : ℕ)
    (h : Sound registries s) (harrivals : Arrivals s os ds) (honBus : ∀ o ∈ us, s.OnBus o) :
    Decides registries (uid ∈ eventsDesc → Fits registries s ds ∧
      ∀ o ∈ us, KeyKept registries s s.struct o)
      (dispatchOwn registries eventsDesc uid os us s) := by
  unfold dispatchOwn
  split_ifs with huid
  · rw [dispatchBusEvent_eq]
    exact (decides_perform [] h harrivals honBus).iff ⟨fun hC _ => hC, fun hC => hC huid⟩
  · exact .of_sound h fun hmem => absurd hmem huid

lemma decides_recvConnectionResponse {eventsDesc : List ℕ} {os : List ObusObject}
    {ds : List (ObjectData V)}
    (accepted : Bool) (h : Sound registries s) (harrivals : Arrivals s os ds) :
    Decides registries (s.state = .connecting ∧ accepted ∧ busevtConnectedUid ∈ eventsDesc →
      Fits registries s ds) (recvConnectionResponse registries eventsDesc accepted os s) := by
  unfold recvConnectionResponse
  split_ifs with hstate haccepted
  · exact .of_sound h fun hC => absurd hC.1 hstate
  · have hconnected : Sound registries { s with state := .connected } := h.congr rfl rfl rfl le_rfl
    have harrivals' : Arrivals { s with state := .connected } os ds :=
      ⟨harrivals.data, fun o ho =>
        ⟨(harrivals.new o ho).onBus, (harrivals.new o ho).changes, (harrivals.new o ho).created⟩,
        harrivals.nodup⟩
    refine (decides_dispatchOwn busevtConnectedUid hconnected harrivals' fun o ho =>
      absurd ho List.not_mem_nil).iff ?_
    constructor
    · exact fun hC hall => (hC hall.2.2).1
    · exact fun hC huid => ⟨hC ⟨not_not.mp hstate, haccepted, huid⟩,
        fun o ho => absurd ho List.not_mem_nil⟩
  · have hrefused : Sound registries { s with state := .refused } := h.congr rfl rfl rfl le_rfl
    refine (decides_dispatchOwn busevtConnectionRefusedUid hrefused (arrivals_nil _)
      fun o ho => absurd ho List.not_mem_nil).iff ?_
    exact ⟨fun _ hall => absurd hall.2.1 haccepted,
      fun _ _ => ⟨fits_nil, fun o ho => absurd ho List.not_mem_nil⟩⟩

lemma decides_disconnect {eventsDesc : List ℕ} (order : ObjectOrder) (h : Sound registries s) :
    Decides registries (s.state = .connected ∧ busevtDisconnectedUid ∈ eventsDesc →
        ∀ e ∈ s.bus.entries, KeyKept registries s s.struct e.2)
      (disconnect registries eventsDesc order s) := by
  have hdisconnecting : Sound registries { s with state := .disconnecting } :=
    h.congr rfl rfl rfl le_rfl
  obtain ⟨honBus, hforall⟩ := h.mem_objects_iff order
  have hown := @decides_dispatchOwn _ _ _ _ _ eventsDesc _ _ _ busevtDisconnectedUid hdisconnecting
    (arrivals_nil _) honBus
  unfold disconnect
  simp only
  split_ifs with hstate
  · refine (hown.iff ?_).congr rfl rfl rfl rfl
    constructor
    · exact fun hC hall => (hforall _).mp (hC hall.2).2
    · exact fun hC huid => ⟨fits_nil, (hforall _).mpr (hC ⟨hstate, huid⟩)⟩
  · exact (Decides.of_sound h fun hC => absurd hC.1 hstate).congr rfl rfl rfl rfl

/-- What arrives keeps the client sound exactly if it is in step. -/
lemma decides_recv (eventsDesc : List ℕ) (order : ObjectOrder) (h : Sound registries s)
    (input : Input V) :
    Decides registries (InStep registries eventsDesc s input)
      (recv registries eventsDesc order s input) := by
  cases input with
  | connResp accepted ds =>
    have hdecoded := decoded ds s
    have hstate : (decodeObjects ds s).2.state = s.state := by rw [hdecoded.eq]
    refine (decides_recvConnectionResponse accepted (hdecoded.sound h) (hdecoded.arrivals h)).iff ?_
    rw [hdecoded.fits_iff, hstate]
    exact Iff.rfl
  | add d =>
    have hdecoded := decoded [d] s
    refine (decides_perform [] (hdecoded.sound h) (hdecoded.arrivals h) fun o ho =>
      absurd ho List.not_mem_nil).iff ?_
    rw [hdecoded.fits_iff]
    exact ⟨And.left, fun hfits => ⟨hfits, fun o ho => absurd ho List.not_mem_nil⟩⟩
  | remove uid handle =>
    simp only [recv, InStep]
    cases hfind : s.bus.findObject uid handle with
    | none => exact .of_sound h fun o ho => absurd ho (Option.not_mem_none o)
    | some o =>
      simp only [recvRemove_eq]
      have honBus : ∀ o' ∈ [o], s.OnBus o' :=
        fun o' ho' => List.mem_singleton.mp ho' ▸ h.onBus_of_findObject hfind
      refine (decides_perform [] h (arrivals_nil s) honBus).iff ?_
      simp [fits_nil]
  | event e =>
    simp only [recv, InStep]
    cases decodeEvent s.bus e with
    | none => exact .of_sound h trivial
    | some evt => exact .of_sound (h.congr rfl rfl rfl le_rfl) trivial
  | busEvent uid registers unregisters events =>
    simp only [recv, InStep]
    split_ifs with huid
    · have hdecoded := decoded registers s
      have hbus : (decodeObjects registers s).2.bus = s.bus := by rw [hdecoded.eq]
      have hmem : ∀ o, o ∈ unregisters.filterMap (fun u => s.bus.findObject u.1 u.2) →
          s.OnBus o := fun o ho => by
        obtain ⟨u, -, hfind⟩ := List.mem_filterMap.mp ho
        exact h.onBus_of_findObject hfind
      rw [dispatchBusEvent_eq, hbus]
      refine (decides_perform _ (hdecoded.sound h) (hdecoded.arrivals h) fun o ho => ?_).iff ?_
      · rw [Client.OnBus, hbus]
        exact hmem o ho
      · rw [hdecoded.fits_iff, forall_prop_of_true huid]
        refine and_congr_right fun _ => ⟨fun hkept u hu o hfind => ?_, fun hkept o ho => ?_⟩
        · have ho : o ∈ unregisters.filterMap (fun u => s.bus.findObject u.1 u.2) :=
            List.mem_filterMap.mpr ⟨u, hu, hfind⟩
          exact (hdecoded.keyKept_iff h (hmem o ho) _).mp (hkept o ho)
        · obtain ⟨u, hu, hfind⟩ := List.mem_filterMap.mp ho
          exact (hdecoded.keyKept_iff h (hmem o ho) _).mpr (hkept u hu o hfind)
    · exact .of_sound h fun hmem => absurd hmem huid
  | disconnected => exact decides_disconnect order h

/-- The registries are a view of the bus after each packet of a run exactly if each packet is in
step. -/
theorem registries_view_iff (registries : ℕ → Option (Registry κ V)) (eventsDesc : List ℕ)
    (order : ObjectOrder) (inputs : List (Input V)) :
    Always (fun s i => some (recv registries eventsDesc order s i)) Client.View inputs {} ↔
      MeetsAll (fun s i => some (recv registries eventsDesc order s i))
        (InStep registries eventsDesc) inputs {} := by
  have htotal : ∀ s, ∃ s', runs (fun s i => some (recv registries eventsDesc order s i)) inputs s =
      some s' := by
    induction inputs with
    | nil => exact fun s => ⟨s, rfl⟩
    | cons input inputs ih => exact fun s => ih (recv registries eventsDesc order s input)
  obtain ⟨s', hrun⟩ := htotal {}
  refine always_iff_meetsAll (I := Sound registries) (fun s h => h.view) ?_ ?_
    (sound_init registries) hrun
  · rintro s input _ h hin ⟨⟩
    exact (decides_recv eventsDesc order h input).sound hin
  · rintro s input _ h hnot ⟨⟩
    exact (decides_recv eventsDesc order h input).broken hnot

/-- Two objects arrive with one handle and two keys: the registry stores the second one, which the
bus has refused. -/
theorem not_registries_view :
    ¬∀ (registries : ℕ → Option (Registry ℕ ℕ)) (eventsDesc : List ℕ) (order : ObjectOrder)
    (inputs : List (Input ℕ)),
    Always (fun s i => some (recv registries eventsDesc order s i)) Client.View inputs {} := by
  intro h
  have hview := h (fun _ => some ⟨some fun struct => struct 0⟩) []
    ⟨fun b => b.entries.map Sigma.snd, fun _ => .refl _⟩
    [.add ⟨5, 1, fun _ => some 1⟩, .add ⟨5, 1, fun _ => some 2⟩] _ (List.prefix_refl _) _ rfl
  have honBus := hview.onBus 5 (some 2) ⟨1, 5, 1⟩ rfl
  have hlookup : some (⟨0, 5, 1⟩ : ObusObject) = some ⟨1, 5, 1⟩ := honBus
  cases hlookup

end Invariant

end Obus.JavaClient
