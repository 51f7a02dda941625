import Obus.Desc
import Obus.Hash

/-!
# The tables of a bus descriptor

`obus_bus_api_init` fills four hash tables with the objects, the methods, the events and the bus
events of a bus descriptor; a method or an event is found under a key that is packed from the uid of
its object and its own.  A pointer to an element of a descriptor is its index, that of a method or
an event is the index of its object and its own.  A uid is shifted into the sign bit of an `int` as
on a machine with two's complement.

Where no uid is 0, the initialisation succeeds exactly if the uids of each scope are distinct, and
the tables have the elements of the descriptor then and nothing else (`bus_api_exact`).

Allocations succeed.
-/

namespace Obus

/-- `struct obus_bus_api`, without the descriptor. -/
structure BusApi where
  objects : Hash ℕ
  methods : Hash (ℕ × ℕ)
  events : Hash (ℕ × ℕ)
  busEvents : Hash ℕ

/-- `MTD_KEY`. -/
def mtdKey (objuid uid : UInt16) : UInt32 := (objuid.toUInt32 <<< 16) ||| uid.toUInt32

/-- `EVT_KEY`. -/
def evtKey (objuid uid : UInt16) : UInt32 := (objuid.toUInt32 <<< 16) ||| uid.toUInt32

/-- A loop that inserts elements under their keys, and ends with the first error. -/
def insertAll {δ : Type} : List (UInt32 × δ) → Hash δ → Option (Except Errno Unit × Hash δ)
  | [], h => some (.ok (), h)
  | (key, data) :: l, h =>
    match hashInsertConst key data h with
    | none => none
    | some (.error e, h') => some (.error e, h')
    | some (.ok (), h') => insertAll l h'

/-- The methods of the object with index `i`, under their keys. -/
def methodKeys (i : ℕ) (obj : ObjectDesc) : List (UInt32 × ℕ × ℕ) :=
  obj.methods.zipIdx.map fun (mtd, j) => (mtdKey obj.uid mtd.uid, i, j)

/-- The events of the object with index `i`, under their keys. -/
def eventKeys (i : ℕ) (obj : ObjectDesc) : List (UInt32 × ℕ × ℕ) :=
  obj.events.zipIdx.map fun (event, j) => (evtKey obj.uid event.uid, i, j)

/-- The bus events, under their keys. -/
def busEventKeys (events : List BusEventDesc) : List (UInt32 × ℕ) :=
  events.zipIdx.map fun (event, i) => (event.uid.toUInt32, i)

/-- `obus_bus_api_add_object`, for the object with index `i`. -/
def busApiAddObject (api : BusApi) (i : ℕ) (obj : ObjectDesc) :
    Option (Except Errno Unit × BusApi) :=
  match hashInsertConst obj.uid.toUInt32 i api.objects with
  | none => none
  | some (.error e, h) => some (.error e, { api with objects := h })
  | some (.ok (), objects) =>
    match insertAll (methodKeys i obj) api.methods with
    | none => none
    | some (.error e, h) => some (.error e, { api with objects := objects, methods := h })
    | some (.ok (), methods) =>
      match insertAll (eventKeys i obj) api.events with
      | none => none
      | some (ret, events) =>
        some (ret, { api with objects := objects, methods := methods, events := events })

/-- The loop over the objects, from the index `i` on. -/
def busApiAddObjects : ℕ → List ObjectDesc → BusApi → Option (Except Errno Unit × BusApi)
  | _, [], api => some (.ok (), api)
  | i, obj :: objs, api =>
    match busApiAddObject api i obj with
    | none => none
    | some (.error e, api') => some (.error e, api')
    | some (.ok (), api') => busApiAddObjects (i + 1) objs api'

/-- `obus_bus_api_init`. -/
def busApiInit (desc : BusDesc) : Option (Except Errno BusApi) :=
  let nMethods := (desc.objects.map fun obj => obj.methods.length).sum
  let nEvents := (desc.objects.map fun obj => obj.events.length).sum
  let api : BusApi :=
    ⟨hashInit desc.objects.length, hashInit nMethods, hashInit nEvents, hashInit desc.events.length⟩
  match busApiAddObjects 0 desc.objects api with
  | none => none
  | some (.error e, _) => some (.error e)
  | some (.ok (), api) =>
    match insertAll (busEventKeys desc.events) api.busEvents with
    | none => none
    | some (.error e, _) => some (.error e)
    | some (.ok (), h) => some (.ok { api with busEvents := h })

/-- What a lookup gives: no result is a NULL pointer. -/
def found {δ : Type} : Option (Except Errno δ) → Option (Option δ)
  | none => none
  | some (.error _) => some none
  | some (.ok data) => some (some data)

/-- `obus_bus_api_object`. -/
def busApiObject (api : BusApi) (uid : UInt16) : Option (Option ℕ) :=
  if uid = 0 then some none else found (hashLookupConst uid.toUInt32 api.objects)

/-- `obus_bus_api_method`. -/
def busApiMethod (api : BusApi) (objuid mtduid : UInt16) : Option (Option (ℕ × ℕ)) :=
  if objuid = 0 ∨ mtduid = 0 then some none
    else found (hashLookupConst (mtdKey objuid mtduid) api.methods)

/-- `obus_bus_api_event`. -/
def busApiEvent (api : BusApi) (objuid evtuid : UInt16) : Option (Option (ℕ × ℕ)) :=
  if objuid = 0 ∨ evtuid = 0 then some none
    else found (hashLookupConst (evtKey objuid evtuid) api.events)

/-- `obus_bus_api_bus_event`. -/
def busApiBusEvent (api : BusApi) (uid : UInt16) : Option (Option ℕ) :=
  if uid = 0 then some none else found (hashLookupConst uid.toUInt32 api.busEvents)

/-! ## What the tables should have -/

/-- No uid is 0. -/
structure BusDesc.UidsNonzero (d : BusDesc) : Prop where
  objects : ∀ o ∈ d.objects, o.uid ≠ 0
  methods : ∀ o ∈ d.objects, ∀ m ∈ o.methods, m.uid ≠ 0
  events : ∀ o ∈ d.objects, ∀ e ∈ o.events, e.uid ≠ 0
  busEvents : ∀ e ∈ d.events, e.uid ≠ 0

/-- The uids of each scope are distinct. -/
structure BusDesc.UidsDistinct (d : BusDesc) : Prop where
  objects : (d.objects.map ObjectDesc.uid).Nodup
  methods : ∀ o ∈ d.objects, (o.methods.map MethodDesc.uid).Nodup
  events : ∀ o ∈ d.objects, (o.events.map EventDesc.uid).Nodup
  busEvents : (d.events.map BusEventDesc.uid).Nodup

/-- A pointer is the one to the element that a property determines, or NULL if no element has it. -/
def PointsTo {ι : Type} (P : ι → Prop) (p : Option ι) : Prop := ∀ i, p = some i ↔ P i

/-- The tables have the elements of a descriptor and nothing else: whatever is looked up, the
element that declares it is found, or nothing. -/
structure BusApi.Exact (api : BusApi) (d : BusDesc) : Prop where
  object : ∀ uid, ∃ p, busApiObject api uid = some p ∧
  PointsTo (fun i => ∃ o, d.objects[i]? = some o ∧ o.uid = uid) p
  method : ∀ objuid uid, ∃ p, busApiMethod api objuid uid = some p ∧
    PointsTo (fun i => ∃ o m, d.objects[i.1]? = some o ∧ o.uid = objuid ∧ o.methods[i.2]? = some m ∧
      m.uid = uid) p
  event : ∀ objuid uid, ∃ p, busApiEvent api objuid uid = some p ∧
    PointsTo (fun i => ∃ o e, d.objects[i.1]? = some o ∧ o.uid = objuid ∧ o.events[i.2]? = some e ∧
      e.uid = uid) p
  busEvent : ∀ uid, ∃ p, busApiBusEvent api uid = some p ∧
  PointsTo (fun i => ∃ e, d.events[i]? = some e ∧ e.uid = uid) p

/-! ## Keys -/

lemma mtdKey_toNat (objuid uid : UInt16) :
    (mtdKey objuid uid).toNat = objuid.toNat * 65536 + uid.toNat := by
  have hobj := objuid.toNat_lt
  have huid := uid.toNat_lt
  have hshift : (objuid.toUInt32 <<< 16).toNat = objuid.toNat <<< 16 := by
    have hsixteen : UInt32.toNat 16 % 32 = 16 := rfl
    rw [UInt32.toNat_shiftLeft, UInt16.toNat_toUInt32, hsixteen, Nat.shiftLeft_eq]
    exact Nat.mod_eq_of_lt (by omega)
  rw [mtdKey, UInt32.toNat_or, hshift, UInt16.toNat_toUInt32, ← Nat.shiftLeft_add_eq_or_of_lt huid,
    Nat.shiftLeft_eq]

/-- Different pairs of uids have different keys. -/
lemma mtdKey_inj {objuid objuid' uid uid' : UInt16} (h : mtdKey objuid uid = mtdKey objuid' uid') :
    objuid = objuid' ∧ uid = uid' := by
  have hnat := congrArg UInt32.toNat h
  rw [mtdKey_toNat, mtdKey_toNat] at hnat
  have huid := uid.toNat_lt
  have huid' := uid'.toNat_lt
  constructor
  · exact UInt16.toNat_inj.mp (by omega)
  · exact UInt16.toNat_inj.mp (by omega)

lemma toUInt32_inj {uid uid' : UInt16} (h : uid.toUInt32 = uid'.toUInt32) : uid = uid' := by
  have hnat := congrArg UInt32.toNat h
  rw [UInt16.toNat_toUInt32, UInt16.toNat_toUInt32] at hnat
  exact UInt16.toNat_inj.mp hnat

/-! ## Filling a table -/

section Tables

variable {δ : Type} {h : Hash δ} {bs : List (Binding δ)}

/-- A table stands for a finite map. -/
def Hash.Holds (h : Hash δ) (bs : List (Binding δ)) : Prop := ∃ as, h.Stands as bs

/-- The binding that an insertion makes. -/
def constBinding (kd : UInt32 × δ) : Binding δ := ⟨kd.1, true, kd.2⟩

lemma map_key_constBinding (kds : List (UInt32 × δ)) :
    (kds.map constBinding).map Binding.key = kds.map Prod.fst := by
  rw [List.map_map]
  rfl

lemma bound_eq_none {key : UInt32} : bound bs key = none ↔ key ∉ bs.map Binding.key := by
  rw [bound, List.find?_eq_none, List.mem_map]
  simp

/-- The insertion of a new key. -/
lemma Hash.Holds.insertConst (hh : h.Holds bs) {key : UInt32} (hkey : key ∉ bs.map Binding.key)
    (data : δ) :
    ∃ h', hashInsertConst key data h = some (.ok (), h') ∧
    h'.Holds (bs ++ [constBinding (key, data)]) := by
  obtain ⟨as, hs⟩ := hh
  obtain ⟨h', hrun, hs'⟩ := hs.insert_absent true data (bound_eq_none.mpr hkey)
  exact ⟨h', hrun, _, hs'⟩

/-- The insertion of a key that is there. -/
lemma Hash.Holds.insertConst_twice (hh : h.Holds bs) {key : UInt32}
    (hkey : key ∈ bs.map Binding.key) (data : δ) :
    ∃ h', hashInsertConst key data h = some (.error .eexist, h') := by
  obtain ⟨as, hs⟩ := hh
  obtain ⟨b, hb⟩ := Option.ne_none_iff_exists'.mp fun hnone => bound_eq_none.mp hnone hkey
  obtain ⟨h', hrun, -⟩ := hs.insert_present true data hb
  exact ⟨h', hrun⟩

/-- A loop of insertions whose keys are new and distinct. -/
lemma Hash.Holds.insertAll (hh : h.Holds bs) {kds : List (UInt32 × δ)}
    (hkeys : (bs.map Binding.key ++ kds.map Prod.fst).Nodup) :
    ∃ h', Obus.insertAll kds h = some (.ok (), h') ∧ h'.Holds (bs ++ kds.map constBinding) := by
  induction kds generalizing h bs with
  | nil => exact ⟨h, rfl, by rwa [List.map_nil, List.append_nil]⟩
  | cons kd kds ih =>
    obtain ⟨key, data⟩ := kd
    have hnew : key ∉ bs.map Binding.key := fun hmem =>
      (List.nodup_append.mp hkeys).2.2 key hmem key List.mem_cons_self rfl
    obtain ⟨h₁, hrun, hh₁⟩ := hh.insertConst hnew data
    have hkeys₁ : ((bs ++ [constBinding (key, data)]).map Binding.key ++
        kds.map Prod.fst).Nodup := by
      rw [List.map_append, List.append_assoc]
      exact hkeys
    obtain ⟨h₂, hrest, hh₂⟩ := ih hh₁ hkeys₁
    refine ⟨h₂, ?_, ?_⟩
    · rw [Obus.insertAll, hrun]
      exact hrest
    · rw [List.append_assoc] at hh₂
      exact hh₂

/-- A loop of insertions in which a key comes twice, or is there already. -/
lemma Hash.Holds.insertAll_twice (hh : h.Holds bs) {kds : List (UInt32 × δ)}
    (hbs : (bs.map Binding.key).Nodup) (hkeys : ¬(bs.map Binding.key ++ kds.map Prod.fst).Nodup) :
    ∃ h', Obus.insertAll kds h = some (.error .eexist, h') := by
  induction kds generalizing h bs with
  | nil =>
    rw [List.map_nil, List.append_nil] at hkeys
    exact absurd hbs hkeys
  | cons kd kds ih =>
    obtain ⟨key, data⟩ := kd
    by_cases hnew : key ∈ bs.map Binding.key
    · obtain ⟨h', hrun⟩ := hh.insertConst_twice hnew data
      exact ⟨h', by rw [Obus.insertAll, hrun]⟩
    · obtain ⟨h₁, hrun, hh₁⟩ := hh.insertConst hnew data
      have hbs₁ : ((bs ++ [constBinding (key, data)]).map Binding.key).Nodup := by
        rw [List.map_append]
        refine List.nodup_append.mpr ⟨hbs, List.nodup_singleton key, fun k hk k' hk' heq => ?_⟩
        have hkey : k = key := heq.trans (List.mem_singleton.mp hk')
        exact hnew (hkey ▸ hk)
      obtain ⟨h', hrest⟩ := ih hh₁ hbs₁ fun hnodup => hkeys (by
        rw [List.map_append, List.append_assoc] at hnodup
        exact hnodup)
      exact ⟨h', by rw [Obus.insertAll, hrun]; exact hrest⟩

/-- A lookup in a table that was filled with distinct keys. -/
lemma Hash.Holds.lookup {kds : List (UInt32 × δ)} (hh : h.Holds (kds.map constBinding))
    (key : UInt32) :
    ∃ p, found (hashLookupConst key h) = some p ∧ PointsTo (fun data => (key, data) ∈ kds) p := by
  obtain ⟨as, hs⟩ := hh
  have hnodup : (kds.map Prod.fst).Nodup := by
    rw [← map_key_constBinding]
    exact hs.keys
  cases hkey : bound (kds.map constBinding) key with
  | none =>
    refine ⟨none, by rw [hashLookupConst, hs.lookup_absent hkey]; rfl, fun data => ?_⟩
    refine iff_of_false (by rintro ⟨⟩) fun hmem => ?_
    rw [bound_eq_none, map_key_constBinding] at hkey
    exact hkey (List.mem_map_of_mem (f := Prod.fst) hmem)
  | some b =>
    obtain ⟨e, hrun, rfl⟩ := hs.lookup_present hkey
    obtain ⟨hmem, hkeyeq⟩ := Hash.Stands.bound_mem hkey
    obtain ⟨⟨key', data⟩, hkd, heq⟩ := List.mem_map.mp hmem
    have hkey' : key' = key := (congrArg Binding.key heq).trans hkeyeq
    have hdata : data = e.data := congrArg Binding.data heq
    subst hkey' hdata
    refine ⟨some e.data, by rw [hashLookupConst, hrun]; rfl, fun data => ?_⟩
    constructor
    · intro hsome
      rwa [← Option.some.inj hsome]
    · intro hmem'
      have hsame := List.inj_on_of_nodup_map hnodup hkd hmem' rfl
      exact congrArg (some ∘ Prod.snd) hsame

lemma Hash.Holds.nodup {kds : List (UInt32 × δ)} (hh : h.Holds (kds.map constBinding)) :
    (kds.map Prod.fst).Nodup := by
  obtain ⟨as, hs⟩ := hh
  rw [← map_key_constBinding]
  exact hs.keys

lemma Hash.Holds.insertAll_ok {kds kds' : List (UInt32 × δ)} (hh : h.Holds (kds.map constBinding))
    (hkeys : ((kds ++ kds').map Prod.fst).Nodup) :
    ∃ h', Obus.insertAll kds' h = some (.ok (), h') ∧
    h'.Holds ((kds ++ kds').map constBinding) := by
  rw [List.map_append, ← map_key_constBinding] at hkeys
  rw [List.map_append]
  exact hh.insertAll hkeys

lemma Hash.Holds.insertAll_eexist {kds kds' : List (UInt32 × δ)}
    (hh : h.Holds (kds.map constBinding))
    (hkeys : ¬((kds ++ kds').map Prod.fst).Nodup) :
    ∃ h', Obus.insertAll kds' h = some (.error .eexist, h') := by
  have hnodup := hh.nodup
  rw [List.map_append, ← map_key_constBinding] at hkeys
  rw [← map_key_constBinding] at hnodup
  exact hh.insertAll_twice hnodup hkeys

end Tables

/-! ## Filling the tables -/

/-- The objects, the first of which has the index `i`, under their keys. -/
def objectKeys (i : ℕ) (objs : List ObjectDesc) : List (UInt32 × ℕ) :=
  (objs.zipIdx i).map fun (obj, i) => (obj.uid.toUInt32, i)

/-- The elements of all objects, under their keys. -/
def allKeys (keys : ℕ → ObjectDesc → List (UInt32 × ℕ × ℕ)) (i : ℕ) (objs : List ObjectDesc) :
    List (UInt32 × ℕ × ℕ) :=
  (objs.zipIdx i).flatMap fun (obj, i) => keys i obj

lemma allKeys_cons (keys : ℕ → ObjectDesc → List (UInt32 × ℕ × ℕ)) (i : ℕ) (obj : ObjectDesc)
    (objs : List ObjectDesc) :
    allKeys keys i (obj :: objs) = keys i obj ++ allKeys keys (i + 1) objs := rfl

/-- The tables of objects, methods and events have been filled with some elements. -/
structure BusApi.Has (api : BusApi) (os : List (UInt32 × ℕ)) (ms es : List (UInt32 × ℕ × ℕ)) :
    Prop where
  objects : api.objects.Holds (os.map constBinding)
  methods : api.methods.Holds (ms.map constBinding)
  events : api.events.Holds (es.map constBinding)

/-- The keys in each of the three tables are distinct. -/
def KeysDistinct (os : List (UInt32 × ℕ)) (ms es : List (UInt32 × ℕ × ℕ)) : Prop :=
  (os.map Prod.fst).Nodup ∧ (ms.map Prod.fst).Nodup ∧ (es.map Prod.fst).Nodup

lemma KeysDistinct.left {os os' : List (UInt32 × ℕ)} {ms ms' es es' : List (UInt32 × ℕ × ℕ)}
    (h : KeysDistinct (os ++ os') (ms ++ ms') (es ++ es')) : KeysDistinct os ms es := by
  simp only [KeysDistinct, List.map_append] at h ⊢
  exact ⟨h.1.of_append_left, h.2.1.of_append_left, h.2.2.of_append_left⟩

section Objects

variable {api : BusApi} {os : List (UInt32 × ℕ)} {ms es : List (UInt32 × ℕ × ℕ)} {i : ℕ}
  {obj : ObjectDesc} {objs : List ObjectDesc}

/-- An object whose keys are new and distinct is added. -/
lemma BusApi.Has.addObject (hapi : api.Has os ms es)
    (hkeys : KeysDistinct (os ++ [(obj.uid.toUInt32, i)]) (ms ++ methodKeys i obj)
      (es ++ eventKeys i obj)) :
    ∃ api', busApiAddObject api i obj = some (.ok (), api') ∧ api'.busEvents = api.busEvents ∧
      api'.Has (os ++ [(obj.uid.toUInt32, i)]) (ms ++ methodKeys i obj)
        (es ++ eventKeys i obj) := by
  obtain ⟨hos, hms, hes⟩ := hkeys
  have hnew : obj.uid.toUInt32 ∉ (os.map constBinding).map Binding.key := by
    rw [map_key_constBinding]
    rw [List.map_append] at hos
    exact fun hmem => (List.nodup_append.mp hos).2.2 _ hmem _ (List.mem_singleton_self _) rfl
  obtain ⟨objects, hobj, hobjects⟩ := hapi.objects.insertConst hnew i
  obtain ⟨methods, hmtd, hmethods⟩ := hapi.methods.insertAll_ok hms
  obtain ⟨events, hevt, hevents⟩ := hapi.events.insertAll_ok hes
  refine ⟨{ api with objects := objects, methods := methods, events := events }, ?_, rfl, ?_,
    hmethods, hevents⟩
  · simp only [busApiAddObject, hobj, hmtd, hevt]
  · rw [List.map_append]
    exact hobjects

/-- An object is refused if one of its keys comes twice, or is there already. -/
lemma BusApi.Has.addObject_twice (hapi : api.Has os ms es)
    (hkeys : ¬KeysDistinct (os ++ [(obj.uid.toUInt32, i)]) (ms ++ methodKeys i obj)
      (es ++ eventKeys i obj)) :
    ∃ api', busApiAddObject api i obj = some (.error .eexist, api') := by
  by_cases hnew : obj.uid.toUInt32 ∈ (os.map constBinding).map Binding.key
  · obtain ⟨h, hobj⟩ := hapi.objects.insertConst_twice hnew i
    exact ⟨{ api with objects := h }, by rw [busApiAddObject, hobj]⟩
  obtain ⟨objects, hobj, hobjects⟩ := hapi.objects.insertConst hnew i
  have hos : ((os ++ [(obj.uid.toUInt32, i)]).map Prod.fst).Nodup := by
    have hholds : objects.Holds ((os ++ [(obj.uid.toUInt32, i)]).map constBinding) := by
      rw [List.map_append]
      exact hobjects
    exact hholds.nodup
  by_cases hms : ((ms ++ methodKeys i obj).map Prod.fst).Nodup
  · have hes : ¬((es ++ eventKeys i obj).map Prod.fst).Nodup := fun hes => hkeys ⟨hos, hms, hes⟩
    obtain ⟨methods, hmtd, -⟩ := hapi.methods.insertAll_ok hms
    obtain ⟨h, hevt⟩ := hapi.events.insertAll_eexist hes
    exact ⟨{ api with objects := objects, methods := methods, events := h },
      by simp only [busApiAddObject, hobj, hmtd, hevt]⟩
  · obtain ⟨h, hmtd⟩ := hapi.methods.insertAll_eexist hms
    exact ⟨{ api with
      objects := objects, methods := h }, by simp only [busApiAddObject, hobj, hmtd]⟩

/-- Objects whose keys are new and distinct are added. -/
lemma BusApi.Has.addObjects (hapi : api.Has os ms es)
    (hkeys : KeysDistinct (os ++ objectKeys i objs) (ms ++ allKeys methodKeys i objs)
      (es ++ allKeys eventKeys i objs)) :
    ∃ api', busApiAddObjects i objs api = some (.ok (), api') ∧ api'.busEvents = api.busEvents ∧
      api'.Has (os ++ objectKeys i objs) (ms ++ allKeys methodKeys i objs)
        (es ++ allKeys eventKeys i objs) := by
  induction objs generalizing i api os ms es with
  | nil =>
    refine ⟨api, rfl, rfl, ?_⟩
    simpa only [objectKeys, allKeys, List.zipIdx_nil, List.map_nil, List.flatMap_nil,
      List.append_nil] using hapi
  | cons obj objs ih =>
    have hcons : objectKeys i (obj :: objs) = [(obj.uid.toUInt32, i)] ++ objectKeys (i + 1) objs :=
      rfl
    simp only [hcons, allKeys_cons, ← List.append_assoc] at hkeys ⊢
    obtain ⟨api₁, hrun, hbus₁, hapi₁⟩ := hapi.addObject hkeys.left
    obtain ⟨api₂, hrest, hbus₂, hapi₂⟩ := ih hapi₁ hkeys
    exact ⟨api₂, by rw [busApiAddObjects, hrun]; exact hrest, hbus₂.trans hbus₁, hapi₂⟩

/-- Objects are refused if one of their keys comes twice, or is there already. -/
lemma BusApi.Has.addObjects_twice (hapi : api.Has os ms es)
    (hkeys : ¬KeysDistinct (os ++ objectKeys i objs) (ms ++ allKeys methodKeys i objs)
      (es ++ allKeys eventKeys i objs)) :
      ∃ api', busApiAddObjects i objs api = some (.error .eexist, api') := by
  induction objs generalizing i api os ms es with
  | nil =>
    refine absurd ?_ hkeys
    simp only [objectKeys, allKeys, List.zipIdx_nil, List.map_nil, List.flatMap_nil,
      List.append_nil]
    exact ⟨hapi.objects.nodup, hapi.methods.nodup, hapi.events.nodup⟩
  | cons obj objs ih =>
    have hcons : objectKeys i (obj :: objs) = [(obj.uid.toUInt32, i)] ++ objectKeys (i + 1) objs :=
      rfl
    simp only [hcons, allKeys_cons, ← List.append_assoc] at hkeys
    by_cases hfirst : KeysDistinct (os ++ [(obj.uid.toUInt32, i)]) (ms ++ methodKeys i obj)
      (es ++ eventKeys i obj)
    · obtain ⟨api₁, hrun, -, hapi₁⟩ := hapi.addObject hfirst
      obtain ⟨api₂, hrest⟩ := ih hapi₁ hkeys
      exact ⟨api₂, by rw [busApiAddObjects, hrun]; exact hrest⟩
    · obtain ⟨api₁, hrun⟩ := hapi.addObject_twice hfirst
      exact ⟨api₁, by rw [busApiAddObjects, hrun]⟩

end Objects

/-! ## Keys and uids -/

lemma nodup_toUInt32 (uids : List UInt16) : (uids.map UInt16.toUInt32).Nodup ↔ uids.Nodup :=
  List.nodup_map_iff fun _ _ => toUInt32_inj

/-- The packed keys of all objects are distinct if the uids of each object are. -/
lemma nodup_flatMap_mtdKey {objs : List ObjectDesc} (uids : ObjectDesc → List UInt16)
    (hobjs : (objs.map ObjectDesc.uid).Nodup) :
    (objs.flatMap fun obj => (uids obj).map (mtdKey obj.uid)).Nodup ↔
    ∀ obj ∈ objs, (uids obj).Nodup := by
  have hinj : ∀ objuid, Function.Injective (mtdKey objuid) := fun _ _ _ h => (mtdKey_inj h).2
  have hpairwise := List.pairwise_map.mp hobjs
  rw [List.nodup_flatMap]
  constructor
  · intro h obj hobj
    exact (List.nodup_map_iff (hinj obj.uid)).mp (h.1 obj hobj)
  · intro h
    refine ⟨fun obj hobj => (List.nodup_map_iff (hinj obj.uid)).mpr (h obj hobj),
      hpairwise.imp fun {obj obj'} hne => ?_⟩
    intro key hkey hkey'
    obtain ⟨uid, -, rfl⟩ := List.mem_map.mp hkey
    obtain ⟨uid', -, heq⟩ := List.mem_map.mp hkey'
    exact hne (mtdKey_inj heq).1.symm

lemma objectKeys_fst (i : ℕ) (objs : List ObjectDesc) :
    (objectKeys i objs).map Prod.fst = (objs.map ObjectDesc.uid).map UInt16.toUInt32 := by
  conv_rhs => rw [← List.zipIdx_map_fst i objs]
  rw [objectKeys, List.map_map, List.map_map, List.map_map]
  rfl

lemma busEventKeys_fst (events : List BusEventDesc) :
    (busEventKeys events).map Prod.fst = (events.map BusEventDesc.uid).map UInt16.toUInt32 := by
  conv_rhs => rw [← List.zipIdx_map_fst 0 events]
  rw [busEventKeys, List.map_map, List.map_map, List.map_map]
  rfl

lemma methodKeys_fst (i : ℕ) (obj : ObjectDesc) :
    (methodKeys i obj).map Prod.fst = (obj.methods.map MethodDesc.uid).map (mtdKey obj.uid) := by
  conv_rhs => rw [← List.zipIdx_map_fst 0 obj.methods]
  rw [methodKeys, List.map_map, List.map_map, List.map_map]
  rfl

lemma eventKeys_fst (i : ℕ) (obj : ObjectDesc) :
    (eventKeys i obj).map Prod.fst = (obj.events.map EventDesc.uid).map (mtdKey obj.uid) := by
  conv_rhs => rw [← List.zipIdx_map_fst 0 obj.events]
  rw [eventKeys, List.map_map, List.map_map, List.map_map]
  rfl

lemma allKeys_fst {keys : ℕ → ObjectDesc → List (UInt32 × ℕ × ℕ)} {uids : ObjectDesc → List UInt16}
    (hkeys : ∀ i obj, (keys i obj).map Prod.fst = (uids obj).map (mtdKey obj.uid)) (i : ℕ)
    (objs : List ObjectDesc) :
    (allKeys keys i objs).map Prod.fst = objs.flatMap fun obj =>
      (uids obj).map (mtdKey obj.uid) := by
  conv_rhs => rw [← List.zipIdx_map_fst i objs]
  rw [allKeys, List.map_flatMap, List.flatMap_map]
  simp only [hkeys]

/-- The keys in the tables are distinct exactly if the uids in each scope are. -/
lemma uidsDistinct_iff (d : BusDesc) : d.UidsDistinct ↔
    KeysDistinct (objectKeys 0 d.objects) (allKeys methodKeys 0 d.objects)
      (allKeys eventKeys 0 d.objects) ∧
      ((busEventKeys d.events).map Prod.fst).Nodup := by
  rw [KeysDistinct, objectKeys_fst, allKeys_fst methodKeys_fst, allKeys_fst eventKeys_fst,
    busEventKeys_fst,
    nodup_toUInt32, nodup_toUInt32]
  constructor
  · intro h
    exact ⟨⟨h.objects, (nodup_flatMap_mtdKey _ h.objects).mpr h.methods,
      (nodup_flatMap_mtdKey _ h.objects).mpr h.events⟩,
      h.busEvents⟩
  · rintro ⟨⟨hobjects, hmethods, hevents⟩, hbusEvents⟩
    exact ⟨hobjects, (nodup_flatMap_mtdKey _ hobjects).mp hmethods,
      (nodup_flatMap_mtdKey _ hobjects).mp hevents,
      hbusEvents⟩

lemma mem_objectKeys {objs : List ObjectDesc} {uid : UInt16} {i : ℕ} :
    (uid.toUInt32, i) ∈ objectKeys 0 objs ↔ ∃ o, objs[i]? = some o ∧ o.uid = uid := by
  rw [objectKeys, List.mem_map]
  constructor
  · rintro ⟨⟨o, j⟩, hmem, heq⟩
    obtain ⟨huid, rfl⟩ := Prod.mk.inj heq
    exact ⟨o, List.mk_mem_zipIdx_iff_getElem?.mp hmem, toUInt32_inj huid⟩
  · rintro ⟨o, ho, rfl⟩
    exact ⟨(o, i), List.mk_mem_zipIdx_iff_getElem?.mpr ho, rfl⟩

lemma mem_busEventKeys {events : List BusEventDesc} {uid : UInt16} {i : ℕ} :
    (uid.toUInt32, i) ∈ busEventKeys events ↔ ∃ e, events[i]? = some e ∧ e.uid = uid := by
  rw [busEventKeys, List.mem_map]
  constructor
  · rintro ⟨⟨e, j⟩, hmem, heq⟩
    obtain ⟨huid, rfl⟩ := Prod.mk.inj heq
    exact ⟨e, List.mk_mem_zipIdx_iff_getElem?.mp hmem, toUInt32_inj huid⟩
  · rintro ⟨e, he, rfl⟩
    exact ⟨(e, i), List.mk_mem_zipIdx_iff_getElem?.mpr he, rfl⟩

lemma mem_methodKeys {objs : List ObjectDesc} {objuid uid : UInt16} {p : ℕ × ℕ} :
    (mtdKey objuid uid, p) ∈ allKeys methodKeys 0 objs ↔
      ∃ o m, objs[p.1]? = some o ∧ o.uid = objuid ∧ o.methods[p.2]? = some m ∧ m.uid = uid := by
  rw [allKeys, List.mem_flatMap]
  constructor
  · rintro ⟨⟨o, i⟩, hobj, hmem⟩
    obtain ⟨⟨m, j⟩, hmtd, heq⟩ := List.mem_map.mp hmem
    obtain ⟨hkey, rfl⟩ := Prod.mk.inj heq
    obtain ⟨hobjuid, huid⟩ := mtdKey_inj hkey
    exact ⟨o, m, List.mk_mem_zipIdx_iff_getElem?.mp hobj, hobjuid,
      List.mk_mem_zipIdx_iff_getElem?.mp hmtd, huid⟩
  · rintro ⟨o, m, hobj, rfl, hmtd, rfl⟩
    exact ⟨(o, p.1), List.mk_mem_zipIdx_iff_getElem?.mpr hobj,
      List.mem_map.mpr ⟨(m, p.2), List.mk_mem_zipIdx_iff_getElem?.mpr hmtd, rfl⟩⟩

lemma mem_eventKeys {objs : List ObjectDesc} {objuid uid : UInt16} {p : ℕ × ℕ} :
    (evtKey objuid uid, p) ∈ allKeys eventKeys 0 objs ↔
      ∃ o e, objs[p.1]? = some o ∧ o.uid = objuid ∧ o.events[p.2]? = some e ∧ e.uid = uid := by
  rw [allKeys, List.mem_flatMap]
  constructor
  · rintro ⟨⟨o, i⟩, hobj, hmem⟩
    obtain ⟨⟨e, j⟩, hevt, heq⟩ := List.mem_map.mp hmem
    obtain ⟨hkey, rfl⟩ := Prod.mk.inj heq
    obtain ⟨hobjuid, huid⟩ := mtdKey_inj hkey
    exact ⟨o, e, List.mk_mem_zipIdx_iff_getElem?.mp hobj, hobjuid,
      List.mk_mem_zipIdx_iff_getElem?.mp hevt, huid⟩
  · rintro ⟨o, e, hobj, rfl, hevt, rfl⟩
    exact ⟨(o, p.1), List.mk_mem_zipIdx_iff_getElem?.mpr hobj,
      List.mem_map.mpr ⟨(e, p.2), List.mk_mem_zipIdx_iff_getElem?.mpr hevt, rfl⟩⟩

/-! ## The descriptor and its tables -/

section Exact

variable {ι : Type} {P Q : ι → Prop}

lemma PointsTo.congr {p : Option ι} (hp : PointsTo P p) (h : ∀ i, P i ↔ Q i) :
    PointsTo Q p := fun i =>
  (hp i).trans (h i)

lemma pointsTo_none (h : ∀ i, ¬P i) : PointsTo P none :=
  fun i => iff_of_false (fun hnone => nomatch hnone) (h i)

/-- Tables that were filled with the elements of a descriptor have these and nothing else. -/
lemma BusApi.Has.exact {api : BusApi} {d : BusDesc} (h : d.UidsNonzero)
    (hapi : api.Has (objectKeys 0 d.objects) (allKeys methodKeys 0 d.objects)
      (allKeys eventKeys 0 d.objects))
    (hbus : api.busEvents.Holds ((busEventKeys d.events).map constBinding)) : api.Exact d where
  object uid := by
    rw [busApiObject]
    split
    case isTrue hzero =>
      refine ⟨none, rfl, pointsTo_none ?_⟩
      rintro i ⟨o, ho, huid⟩
      exact h.objects o (List.mem_of_getElem? ho) (huid.trans hzero)
    case isFalse =>
      obtain ⟨p, hrun, hp⟩ := hapi.objects.lookup uid.toUInt32
      exact ⟨p, hrun, hp.congr fun i => mem_objectKeys⟩
  method objuid uid := by
    rw [busApiMethod]
    split
    case isTrue hzero =>
      refine ⟨none, rfl, pointsTo_none ?_⟩
      rintro i ⟨o, m, ho, hobjuid, hm, huid⟩
      have hmem := List.mem_of_getElem? ho
      rcases hzero with hzero | hzero
      · exact h.objects o hmem (hobjuid.trans hzero)
      · exact h.methods o hmem m (List.mem_of_getElem? hm) (huid.trans hzero)
    case isFalse =>
      obtain ⟨p, hrun, hp⟩ := hapi.methods.lookup (mtdKey objuid uid)
      exact ⟨p, hrun, hp.congr fun i => mem_methodKeys⟩
  event objuid uid := by
    rw [busApiEvent]
    split
    case isTrue hzero =>
      refine ⟨none, rfl, pointsTo_none ?_⟩
      rintro i ⟨o, e, ho, hobjuid, he, huid⟩
      have hmem := List.mem_of_getElem? ho
      rcases hzero with hzero | hzero
      · exact h.objects o hmem (hobjuid.trans hzero)
      · exact h.events o hmem e (List.mem_of_getElem? he) (huid.trans hzero)
    case isFalse =>
      obtain ⟨p, hrun, hp⟩ := hapi.events.lookup (evtKey objuid uid)
      exact ⟨p, hrun, hp.congr fun i => mem_eventKeys⟩
  busEvent uid := by
    rw [busApiBusEvent]
    split
    case isTrue hzero =>
      refine ⟨none, rfl, pointsTo_none ?_⟩
      rintro i ⟨e, he, huid⟩
      exact h.busEvents e (List.mem_of_getElem? he) (huid.trans hzero)
    case isFalse =>
      obtain ⟨p, hrun, hp⟩ := hbus.lookup uid.toUInt32
      exact ⟨p, hrun, hp.congr fun i => mem_busEventKeys⟩

lemma Hash.Holds.init {δ : Type} (size : ℕ) :
    (hashInit size : Hash δ).Holds (([] : List (UInt32 × δ)).map constBinding) :=
      ⟨[], Hash.Stands.init size⟩

/-- The tables of a descriptor whose uids are distinct in each scope. -/
lemma busApiInit_of_distinct {d : BusDesc} (h : d.UidsNonzero) (hdistinct : d.UidsDistinct) :
    ∃ api, busApiInit d = some (.ok api) ∧ api.Exact d := by
  let api : BusApi :=
    ⟨hashInit d.objects.length, hashInit (d.objects.map fun obj => obj.methods.length).sum,
    hashInit (d.objects.map fun obj => obj.events.length).sum, hashInit d.events.length⟩
  have hinit : api.Has [] [] [] := ⟨Hash.Holds.init _, Hash.Holds.init _, Hash.Holds.init _⟩
  have hbus : api.busEvents.Holds (([] : List (UInt32 × ℕ)).map constBinding) := Hash.Holds.init _
  obtain ⟨hkeys, hbusKeys⟩ := (uidsDistinct_iff d).mp hdistinct
  obtain ⟨api₁, hrun, hbus₁, hapi₁⟩ := hinit.addObjects hkeys
  rw [← hbus₁] at hbus
  have hbusKeys : (([] ++ busEventKeys d.events).map Prod.fst).Nodup := hbusKeys
  obtain ⟨busEvents, hevents, hholds⟩ := hbus.insertAll_ok hbusKeys
  refine ⟨{ api₁ with busEvents := busEvents }, ?_, ?_⟩
  · rw [busApiInit, hrun]
    simp only [hevents]
  · exact BusApi.Has.exact h ⟨hapi₁.objects, hapi₁.methods, hapi₁.events⟩ hholds

/-- A descriptor where two uids of a scope are the same is refused. -/
lemma busApiInit_of_not_distinct {d : BusDesc} (hdistinct : ¬d.UidsDistinct) :
    busApiInit d = some (.error .eexist) := by
  let api : BusApi :=
    ⟨hashInit d.objects.length, hashInit (d.objects.map fun obj => obj.methods.length).sum,
    hashInit (d.objects.map fun obj => obj.events.length).sum, hashInit d.events.length⟩
  have hinit : api.Has [] [] [] := ⟨Hash.Holds.init _, Hash.Holds.init _, Hash.Holds.init _⟩
  have hbus : api.busEvents.Holds (([] : List (UInt32 × ℕ)).map constBinding) := Hash.Holds.init _
  by_cases hkeys : KeysDistinct (objectKeys 0 d.objects) (allKeys methodKeys 0 d.objects)
      (allKeys eventKeys 0 d.objects)
  · obtain ⟨api₁, hrun, hbus₁, -⟩ := hinit.addObjects hkeys
    rw [← hbus₁] at hbus
    have hbusKeys : ¬(([] ++ busEventKeys d.events).map Prod.fst).Nodup := fun hnodup =>
      hdistinct ((uidsDistinct_iff d).mpr ⟨hkeys, hnodup⟩)
    obtain ⟨busEvents, hevents⟩ := hbus.insertAll_eexist hbusKeys
    rw [busApiInit, hrun]
    simp only [hevents]
  · obtain ⟨api₁, hrun⟩ := hinit.addObjects_twice hkeys
    rw [busApiInit, hrun]

end Exact

/-- Where no uid is 0, a descriptor is accepted exactly if the uids in each scope are distinct;
whatever is looked up afterwards, the element of the descriptor that declares it is found, or
nothing. -/
theorem bus_api_exact {d : BusDesc} (h : d.UidsNonzero) :
    ∃ r, busApiInit d = some r ∧ ((∃ api, r = .ok api) ↔ d.UidsDistinct) ∧ ∀ api, r = .ok api →
    api.Exact d := by
  by_cases hdistinct : d.UidsDistinct
  · obtain ⟨api, hrun, hexact⟩ := busApiInit_of_distinct h hdistinct
    refine ⟨.ok api, hrun, iff_of_true ⟨api, rfl⟩ hdistinct, ?_⟩
    intro api' heq
    cases heq
    exact hexact
  · refine ⟨.error .eexist, busApiInit_of_not_distinct hdistinct, ?_, fun _ heq => nomatch heq⟩
    exact iff_of_false (fun ⟨_, heq⟩ => nomatch heq) hdistinct

/-- Two objects whose methods, and whose events, have the same uids. -/
def twinDesc : BusDesc where
  name := CString.ofBytes [98, 117, 115]
  objects := [⟨1, [], [⟨1, []⟩], [⟨1, none⟩, ⟨2, none⟩]⟩, ⟨2, [], [⟨1, []⟩], [⟨1, none⟩]⟩]
  events := [⟨1⟩]
  crc := 77

/-- The tables of two objects with methods and events of the same uids. -/
theorem bus_api_exact_twin :
    twinDesc.UidsNonzero ∧ twinDesc.UidsDistinct ∧ ∃ api, busApiInit twinDesc = some (.ok api) ∧
    api.Exact twinDesc := by
  have hnonzero : twinDesc.UidsNonzero := ⟨by decide, by decide, by decide, by decide⟩
  have hdistinct : twinDesc.UidsDistinct := ⟨by decide, by decide, by decide, by decide⟩
  obtain ⟨r, hrun, hok, hexact⟩ := bus_api_exact hnonzero
  obtain ⟨api, rfl⟩ := hok.mpr hdistinct
  exact ⟨hnonzero, hdistinct, api, hrun, hexact api rfl⟩

end Obus
