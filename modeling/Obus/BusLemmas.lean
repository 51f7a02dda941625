import Obus.Server

/-!
# The object tables of a bus

In the tables of a bus (`Bus.Ok`) handles are nonzero and distinct, and the list of registered
objects holds exactly the handles of the objects whose flag is set, each once.  The operations on
the tables keep this, and each of them is described by what it does to the lookup `Bus.object?` and
to the list `Bus.registered`.
-/

namespace Obus

/-- The tables of a bus agree. -/
structure Bus.Ok (bus : Bus) : Prop where
  handles : (bus.hash.map Object.handle).Nodup
  nonzero : ∀ o ∈ bus.hash, o.handle ≠ 0
  flags : ∀ h, h ∈ bus.objects ↔ isRegistered h bus = true
  nodup : bus.objects.Nodup

namespace Bus

variable {bus : Bus} {h h' : UInt16} {o : Object}

/-! ## Lookups -/

lemma object?_handle (hfound : bus.object? h = some o) : o.handle = h := by
  unfold object? at hfound
  split at hfound
  · cases hfound
  · simpa using List.find?_some hfound

lemma object?_mem (hfound : bus.object? h = some o) : o ∈ bus.hash := by
  unfold object? at hfound
  split at hfound
  · cases hfound
  · exact List.mem_of_find?_eq_some hfound

lemma object?_ne_zero (hfound : bus.object? h = some o) : h ≠ 0 := by
  rintro rfl
  rw [object?, if_pos rfl] at hfound
  cases hfound

lemma Ok.object?_of_mem (hok : bus.Ok) (hmem : o ∈ bus.hash) : bus.object? o.handle = some o := by
  rw [object?, if_neg (hok.nonzero o hmem)]
  exact find?_uid hok.handles hmem

lemma object?_modify {f : Object → Object} (hf : ∀ o, (f o).handle = o.handle) :
    (bus.modify h f).object? h' = (bus.object? h').map fun o => if h' = h then f o else o := by
  unfold object? modify
  split
  · rfl
  · induction bus.hash with
    | nil => rfl
    | cons a objects ih =>
      have hkeep : (if a.handle = h then f a else a).handle = a.handle := by
        split
        · exact hf a
        · rfl
      by_cases ha : a.handle = h'
      · rw [List.map_cons, List.find?_cons_of_pos (by simpa [hkeep] using ha),
          List.find?_cons_of_pos (by simpa using ha)]
        simp [ha]
      · rw [List.map_cons, List.find?_cons_of_neg (by simpa [hkeep] using ha),
          List.find?_cons_of_neg (by simpa using ha)]
        exact ih

lemma object?_register : (busRegisterObject h bus).object? h' =
    (bus.object? h').map fun o => if h' = h then { o with isRegistered := true } else o :=
  object?_modify (f := fun o => { o with isRegistered := true }) fun _ => rfl

lemma object?_unregister : (busUnregisterObject h bus).object? h' =
    (bus.object? h').map fun o => if h' = h then { o with isRegistered := false } else o :=
  object?_modify (f := fun o => { o with isRegistered := false }) fun _ => rfl

lemma object?_remove : (busRemoveObject h bus).object? h' = if h' = h then none
    else bus.object? h' := by
  unfold object? busRemoveObject
  by_cases h0 : h' = 0
  · simp [h0]
  · rw [if_neg h0, if_neg h0]
    split
    · next hh =>
      rw [List.find?_eq_none]
      intro a ha
      simpa [hh] using (List.mem_filter.mp ha).2
    · next hh =>
      rw [List.find?_filter]
      refine congrArg (fun f => bus.hash.find? f) (funext fun a => ?_)
      by_cases ha : a.handle = h'
      · simp [ha, hh]
      · simp [ha]

lemma modify_hash_handles {f : Object → Object} (hf : ∀ o, (f o).handle = o.handle) :
    (bus.modify h f).hash.map Object.handle = bus.hash.map Object.handle := by
  simp only [modify, List.map_map]
  refine List.map_congr_left fun o _ => ?_
  simp only [Function.comp_apply]
  split
  · exact hf o
  · rfl

/-! ## The list of registered objects -/

lemma mem_registered : o ∈ bus.registered ↔ o.handle ∈ bus.objects ∧
    bus.object? o.handle = some o := by
  unfold registered
  rw [List.mem_filterMap]
  constructor
  · rintro ⟨h, hmem, hfound⟩
    obtain rfl := object?_handle hfound
    exact ⟨hmem, hfound⟩
  · rintro ⟨hmem, hfound⟩
    exact ⟨o.handle, hmem, hfound⟩

lemma Ok.isSome_of_mem (hok : bus.Ok) (hmem : h ∈ bus.objects) : ∃ o, bus.object? h = some o := by
  have hreg := (hok.flags h).mp hmem
  unfold isRegistered at hreg
  cases hfound : bus.object? h with
  | none => simp [hfound] at hreg
  | some o => exact ⟨o, rfl⟩

/-- The handles of the registered objects are the list of the bus. -/
lemma Ok.registered_handles (hok : bus.Ok) : bus.registered.map Object.handle = bus.objects := by
  have hall : ∀ h ∈ bus.objects, (bus.object? h).map Object.handle = some h := by
    intro h hmem
    obtain ⟨o, hfound⟩ := hok.isSome_of_mem hmem
    rw [hfound, Option.map_some, object?_handle hfound]
  unfold registered
  rw [List.map_filterMap]
  exact (List.filterMap_congr hall).trans List.filterMap_some

/-- Changing objects changes them in the list. -/
lemma registered_modify {f : Object → Object} (hf : ∀ o, (f o).handle = o.handle) :
    (bus.modify h f).registered = bus.registered.map fun o => if o.handle = h then f o else o := by
  unfold registered
  rw [List.map_filterMap]
  refine List.filterMap_congr fun h' _ => ?_
  rw [object?_modify hf]
  cases hfound : bus.object? h' with
  | none => rfl
  | some o => simp [object?_handle hfound]

/-- A change of an object that is not in the list does not change the list. -/
lemma registered_modify_of_not_mem {f : Object → Object} (hf : ∀ o, (f o).handle = o.handle)
    (hmem : h ∉ bus.objects) : (bus.modify h f).registered = bus.registered := by
  rw [registered_modify hf]
  refine (List.map_congr_left fun o ho => if_neg ?_).trans (List.map_id _)
  rintro rfl
  exact hmem (mem_registered.mp ho).1

end Bus

/-! ## The operations -/

/-- A drawn handle is nonzero and not used. -/
lemma randHandle_spec {used : UInt16 → Bool} {draws : List UInt16} {h : UInt16}
    (hdraw : randHandle used draws = some h) : h ≠ 0 ∧ used h = false := by
  induction draws with
  | nil => cases hdraw
  | cons d draws ih =>
    unfold randHandle at hdraw
    split at hdraw
    · cases hdraw
    · next hne =>
      split at hdraw
      · exact ih hdraw
      · next hfree =>
        cases hdraw
        exact ⟨hne, by simpa using hfree⟩

namespace Bus.Ok

variable {bus bus' : Bus} {h h' : UInt16} {o o' : Object}

lemma isRegistered_iff : isRegistered h bus = true ↔ ∃ o, bus.object? h = some o ∧
    o.isRegistered = true := by
  unfold isRegistered
  cases bus.object? h <;> simp

/-- Registering an object puts it at the end of the list. -/
lemma registered_register (hfound : bus.object? h = some o) (hnew : h ∉ bus.objects) :
    (busRegisterObject h bus).registered = bus.registered ++ [{ o with isRegistered := true }] := by
  have hself : (busRegisterObject h bus).object? h = some { o with isRegistered := true } := by
    rw [Bus.object?_register, hfound]
    simp
  have hmod := Bus.registered_modify_of_not_mem (f := fun o => { o with isRegistered := true })
    (fun _ => rfl) hnew
  change (bus.objects ++ [h]).filterMap (busRegisterObject h bus).object? = _
  rw [List.filterMap_append, List.filterMap_cons_some hself, List.filterMap_nil]
  exact congrArg (· ++ _) hmod

/-- Unregistering an object takes it out of the list. -/
lemma registered_unregister (hok : bus.Ok) :
    (busUnregisterObject h bus).registered = bus.registered.filter (·.handle ≠ h) := by
  change (bus.objects.erase h).filterMap (busUnregisterObject h bus).object? = _
  rw [hok.nodup.erase_eq_filter]
  unfold Bus.registered
  rw [List.filter_filterMap, List.filterMap_filter]
  refine List.filterMap_congr fun h' _ => ?_
  rw [Bus.object?_unregister]
  cases hfound : bus.object? h' with
  | none => simp
  | some o =>
    obtain rfl := Bus.object?_handle hfound
    by_cases hne : o.handle = h <;> simp [hne, Option.filter]

/-- Committing an event changes its object in the list. -/
lemma registered_eventCommit (e : Event) :
    (eventCommit e bus).registered = bus.registered.map fun o =>
      if o.handle = e.obj.handle then
        match structMerge o.info e.info with
        | .ok info => { o with info := info }
        | .error _ => o
      else o :=
  Bus.registered_modify fun o => by split <;> rfl

lemma object?_eventCommit (e : Event) : (eventCommit e bus).object? h = (bus.object? h).map fun o =>
    if h = e.obj.handle then
      match structMerge o.info e.info with
      | .ok info => { o with info := info }
      | .error _ => o
    else o :=
  Bus.object?_modify fun o => by split <;> rfl

/-- A change of the objects that keeps their handles and flags keeps the tables. -/
lemma modify (hok : bus.Ok) {f : Object → Object} (hhandle : ∀ o, (f o).handle = o.handle)
    (hflag : ∀ o, (f o).isRegistered = o.isRegistered) : (bus.modify h f).Ok := by
  refine ⟨by rw [Bus.modify_hash_handles hhandle]; exact hok.handles, fun o ho => ?_, fun h' => ?_,
    hok.nodup⟩
  · obtain ⟨o', ho', rfl⟩ := List.mem_map.mp ho
    split
    · rw [hhandle]
      exact hok.nonzero o' ho'
    · exact hok.nonzero o' ho'
  · refine (hok.flags h').trans ?_
    unfold isRegistered
    rw [Bus.object?_modify hhandle]
    cases bus.object? h' with
    | none => rfl
    | some o =>
      simp only [Option.map_some, Option.any_some]
      split
      · rw [hflag]
      · rfl

lemma eventCommit (hok : bus.Ok) (e : Event) : (Obus.eventCommit e bus).Ok :=
  hok.modify (fun o => by split <;> rfl) fun o => by split <;> rfl

lemma register (hok : bus.Ok) (hfound : bus.object? h = some o) (hnew : h ∉ bus.objects) :
    (busRegisterObject h bus).Ok := by
  have hids : (busRegisterObject h bus).hash.map Object.handle = bus.hash.map Object.handle :=
    Bus.modify_hash_handles (f := fun o => { o with isRegistered := true }) fun _ => rfl
  refine ⟨by rw [hids]; exact hok.handles, fun o ho => ?_, fun h' => ?_, ?_⟩
  · have hmem := List.mem_map_of_mem (f := Object.handle) ho
    rw [hids] at hmem
    obtain ⟨o', ho', heq⟩ := List.mem_map.mp hmem
    exact heq ▸ hok.nonzero o' ho'
  · change h' ∈ bus.objects ++ [h] ↔ _
    rw [isRegistered, Bus.object?_register, List.mem_append, List.mem_singleton, hok.flags h',
      isRegistered]
    by_cases heq : h' = h
    · subst heq
      simp [hfound]
    · cases bus.object? h' <;> simp [heq]
  · exact List.nodup_append.mpr ⟨hok.nodup, List.nodup_singleton h,
      fun a ha b hb hab => hnew (List.mem_singleton.mp hb ▸ hab ▸ ha)⟩

lemma unregister (hok : bus.Ok) : (busUnregisterObject h bus).Ok := by
  have hids : (busUnregisterObject h bus).hash.map Object.handle = bus.hash.map Object.handle :=
    Bus.modify_hash_handles (f := fun o => { o with isRegistered := false }) fun _ => rfl
  refine ⟨by rw [hids]; exact hok.handles, fun o ho => ?_, fun h' => ?_, hok.nodup.erase h⟩
  · have hmem := List.mem_map_of_mem (f := Object.handle) ho
    rw [hids] at hmem
    obtain ⟨o', ho', heq⟩ := List.mem_map.mp hmem
    exact heq ▸ hok.nonzero o' ho'
  · change h' ∈ bus.objects.erase h ↔ _
    rw [isRegistered, Bus.object?_unregister, hok.nodup.mem_erase_iff, hok.flags h', isRegistered]
    by_cases heq : h' = h
    · subst heq
      cases bus.object? h' <;> simp
    · cases bus.object? h' <;> simp [heq]

/-- Removing an object that is not registered keeps the list. -/
lemma remove (hok : bus.Ok) (hnew : h ∉ bus.objects) : (busRemoveObject h bus).Ok := by
  refine ⟨hok.handles.sublist (List.filter_sublist.map _), fun o ho => hok.nonzero o
    (List.mem_filter.mp ho).1,
    fun h' => ?_, hok.nodup⟩
  change h' ∈ bus.objects ↔ _
  rw [isRegistered, Bus.object?_remove]
  split
  · next heq =>
    subst heq
    simpa using hnew
  · exact hok.flags h'

lemma registered_remove (hnew : h ∉ bus.objects) :
    (busRemoveObject h bus).registered = bus.registered := by
  refine List.filterMap_congr fun h' hmem => ?_
  rw [Bus.object?_remove, if_neg]
  rintro rfl
  exact hnew hmem

/-- What adding an object does: it has a handle that was free, and is found under it. -/
lemma add {draws : List UInt16} (hadd : busAddObject draws o bus = .ok (o', bus')) :
    bus'.hash = bus.hash ++ [o'] ∧ bus'.objects = bus.objects ∧ bus'.api = bus.api ∧ o'.handle ≠ 0 ∧
      o'.handle ∉ bus.hash.map Object.handle ∧ (∃ h, o' = { o with handle := h }) ∧
      (o.handle ≠ 0 → o' = o) := by
  unfold busAddObject at hadd
  split at hadd
  · cases hadd
  · simp only at hadd
    split at hadd
    · next hzero =>
      split at hadd
      · cases hadd
      · next h hdraw =>
        cases hadd
        obtain ⟨hne, hfree⟩ := randHandle_spec hdraw
        exact ⟨rfl, rfl, rfl, hne, by simpa using hfree, ⟨h, rfl⟩, fun hn => absurd hzero hn⟩
    · next hnz =>
      split at hadd
      · cases hadd
      · next hfree =>
        cases hadd
        exact ⟨rfl, rfl, rfl, hnz, by simpa using hfree, ⟨o.handle, rfl⟩, fun _ => rfl⟩

/-- A new object is found, and the others as before. -/
lemma object?_add {draws : List UInt16} (hadd : busAddObject draws o bus = .ok (o', bus')) :
    bus'.object? h = if h = o'.handle then some o' else bus.object? h := by
  obtain ⟨hhash, -, -, hne, hfree, -, -⟩ := add hadd
  unfold Bus.object?
  rw [hhash, List.find?_append]
  by_cases h0 : h = 0
  · subst h0
    rw [if_pos rfl, if_pos rfl, if_neg hne.symm]
  · rw [if_neg h0, if_neg h0]
    by_cases heq : h = o'.handle
    · have hnone : bus.hash.find? (·.handle = h) = none := by
        rw [List.find?_eq_none]
        intro a ha
        simp only [decide_eq_true_eq]
        exact fun hah => hfree (heq ▸ hah ▸ List.mem_map_of_mem ha)
      rw [hnone, if_pos heq]
      simp [heq]
    · rw [if_neg heq]
      simp [Ne.symm heq]

/-- A new object that is not registered keeps the tables and the list. -/
lemma of_add {draws : List UInt16} (hok : bus.Ok) (hadd : busAddObject draws o bus = .ok (o', bus'))
    (hflag : o.isRegistered = false) : bus'.Ok ∧ bus'.registered = bus.registered ∧
    o'.handle ∉ bus'.objects := by
  obtain ⟨hhash, hobjects, -, hne, hfree, ⟨h', rfl⟩, -⟩ := add hadd
  have hnew : h' ∉ bus.objects := by
    intro hmem
    obtain ⟨a, ha⟩ := hok.isSome_of_mem hmem
    exact hfree (List.mem_map.mpr ⟨a, Bus.object?_mem ha, Bus.object?_handle ha⟩)
  refine ⟨⟨?_, ?_, fun h => ?_, ?_⟩, ?_, by rwa [hobjects]⟩
  · rw [hhash, List.map_append]
    exact List.nodup_append.mpr ⟨hok.handles, List.nodup_singleton _,
      fun a ha b hb hab => hfree (List.mem_singleton.mp hb ▸ hab ▸ ha)⟩
  · rw [hhash]
    intro a ha
    rcases List.mem_append.mp ha with ha | ha
    · exact hok.nonzero a ha
    · rw [List.mem_singleton.mp ha]
      exact hne
  · rw [hobjects, isRegistered, object?_add hadd]
    split
    · next heq =>
      subst heq
      simpa [hflag] using hnew
    · exact hok.flags h
  · rw [hobjects]
    exact hok.nodup
  · unfold Bus.registered
    rw [hobjects]
    refine List.filterMap_congr fun h hmem => ?_
    rw [object?_add hadd, if_neg]
    rintro rfl
    exact hnew hmem

end Bus.Ok

end Obus
