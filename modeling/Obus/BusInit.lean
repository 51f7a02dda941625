import Obus.BusApi

/-!
# The initialisation of a bus

`obus_bus_api_init` and `obus_bus_init` acquire seven hash tables one after the other, and release
the tables that they have when a later step fails.  Any allocation may fail, as the parameter
`malloc` says of each of them by its number.

When the buckets of a table cannot be allocated, `obus_hash_init` frees the table itself, which is a
part of the bus, and returns 0.  The initialisations do what they should exactly if this does not
happen (`bus_init_sound`).

Every block has the number of its allocation as its address.  Freeing something else is recorded and
has no other effect here.  A step without a result reads the buckets of a table that has none.
-/

namespace Obus.BusInit

/-- The tables of `struct obus_bus_api` and of `struct obus_bus`. -/
inductive TableId where
  | objDesc | mtdDesc | evtDesc | busEvtDesc
  | objects | calls | providers
  deriving DecidableEq

instance : Fintype TableId :=
  ⟨{.objDesc, .mtdDesc, .evtDesc, .busEvtDesc, .objects, .calls, .providers},
    fun t => by cases t <;> decide⟩

/-- What an entry points to: an element of the descriptor, by its indices. -/
inductive Elem where
  | object (i : ℕ)
  | method (i j : ℕ)
  | event (i j : ℕ)
  | busEvent (i : ℕ)

/-- A `struct obus_hash`, with the block of its buckets. -/
structure Table where
  hash : Hash Elem
  buckets : Option ℕ

/-- A table whose next entry gets a given address. -/
def startAt (a : ℕ) (h : Hash Elem) : Hash Elem := { h with fresh := a }

/-- Cleared memory. -/
def Table.zero : Table := ⟨⟨[], 0, Links.unlinked, fun _ => none, 0⟩, none⟩

/-- What is given to `free`. -/
inductive Block where
  /-- What an allocation returned. -/
  | heap (k : ℕ)
  /-- A table of the bus. -/
  | table (t : TableId)
  deriving DecidableEq

/-- The tables, with what was done so far. -/
structure Mem where
  tables : TableId → Table := fun _ => .zero
  /-- How many allocations were tried. -/
  allocs : ℕ := 0
  /-- What was given to `free`. -/
  freed : List Block := []
  /-- The tables that were initialised. -/
  inited : List TableId := []
  /-- The tables that were given to `obus_hash_destroy`. -/
  destroyed : List TableId := []

/-- A function with a status. -/
abbrev Step := Mem → Option (Except Errno Unit) × Mem

/-- Go on unless there is an error. -/
def Step.andThen (f g : Step) : Step := fun m =>
  match f m with
  | (some (.ok ()), m') => g m'
  | r => r

/-- On an error go to a label, where something is undone; the error is returned then. -/
def Step.undo (undo f : Step) : Step := fun m =>
  match f m with
  | (some (.error e), m') =>
    match undo m' with
    | (none, m'') => (none, m'')
    | (some _, m'') => (some (.error e), m'')
  | r => r

/-- A loop that ends with the first error. -/
def Step.each {β : Type} (f : β → Step) : List β → Step
  | [], m => (some (.ok ()), m)
  | b :: bs, m => (f b).andThen (each f bs) m

section Functions

variable (malloc : ℕ → Bool)

/-- `obus_hash_init`: when the allocation fails, the table itself is freed, and the result is 0 as
well. -/
def tableInit (t : TableId) (size : ℕ) : Step := fun m =>
  if malloc m.allocs then
    (some (.ok ()), { m with
      tables := Function.update m.tables t ⟨hashInit size, some m.allocs⟩
      allocs := m.allocs + 1
      inited := m.inited ++ [t] })
  else
    (some (.ok ()), { m with
      tables := Function.update m.tables t
        ⟨{ hashInit size with buckets := [], nodes := Links.unlinked }, none⟩
      allocs := m.allocs + 1
      freed := m.freed ++ [.table t] })

/-- `obus_hash_destroy`. -/
def tableDestroy (t : TableId) : Step := fun m =>
  match hashDestroy (m.tables t).hash with
  | none => (none, m)
  | some entries =>
    (some (.ok ()), { m with
      tables := Function.update m.tables t .zero
      freed := m.freed ++ (entries ++ (m.tables t).buckets.toList).map .heap
      destroyed := m.destroyed ++ [t] })

/-- `obus_hash_insert_const`, for a table, a key and what it is bound to. -/
def tableInsertConst : TableId × UInt32 × Elem → Step := fun (t, key, data) m =>
  let m' := { m with allocs := m.allocs + 1 }
  if malloc m.allocs then
    match hashInsertConst key data (startAt m.allocs (m.tables t).hash) with
    | none => (none, m')
    | some (.ok (), h) =>
      (some (.ok ()), { m' with
        tables := Function.update m.tables t { m.tables t with hash := h } })
    | some (.error e, h) =>
      (some (.error e), { m' with
        tables := Function.update m.tables t { m.tables t with hash := h }
        freed := m.freed ++ [.heap m.allocs] })
  else (some (.error .enomem), m')

/-- What `obus_bus_api_add_object` inserts for the object with index `i`: the object, its methods,
its events. -/
def objectElems : ObjectDesc × ℕ → List (TableId × UInt32 × Elem) := fun (obj, i) =>
  (.objDesc, obj.uid.toUInt32, .object i) ::
    ((methodKeys i obj).map fun (key, i, j) => (.mtdDesc, key, .method i j)) ++
    ((eventKeys i obj).map fun (key, i, j) => (.evtDesc, key, .event i j))

/-- `obus_bus_api_add_object`. -/
def apiAddObject (obj : ObjectDesc × ℕ) : Step :=
  Step.each (tableInsertConst malloc) (objectElems obj)

/-- The bus events of a descriptor. -/
def busEventElems (desc : BusDesc) : List (TableId × UInt32 × Elem) :=
  (busEventKeys desc.events).map fun (key, i) => (.busEvtDesc, key, .busEvent i)

/-- `obus_bus_api_init`. -/
def apiInit (desc : BusDesc) : Step :=
  (tableInit malloc .objDesc desc.objects.length).andThen <|
  Step.undo (tableDestroy .objDesc) <|
  (tableInit malloc .mtdDesc (desc.objects.map fun obj => obj.methods.length).sum).andThen <|
  Step.undo (tableDestroy .mtdDesc) <|
  (tableInit malloc .evtDesc (desc.objects.map fun obj => obj.events.length).sum).andThen <|
  Step.undo (tableDestroy .evtDesc) <|
  (tableInit malloc .busEvtDesc desc.events.length).andThen <|
  Step.undo (tableDestroy .busEvtDesc) <|
  (Step.each (apiAddObject malloc) desc.objects.zipIdx).andThen <|
  Step.each (tableInsertConst malloc) (busEventElems desc)

/-- `obus_bus_api_destroy`. -/
def apiDestroy : Step :=
  (tableDestroy .evtDesc).andThen <| (tableDestroy .mtdDesc).andThen <|
    (tableDestroy .objDesc).andThen <|
    tableDestroy .busEvtDesc

/-- `OBUS_BUS_HASH_SIZE`. -/
def busHashSize : ℕ := 4093

/-- `obus_bus_init`.  The label `destroy_calls_hash` releases the table of the providers. -/
def busInit (desc : BusDesc) : Step :=
  (apiInit malloc desc).andThen <|
  Step.undo apiDestroy <|
  (tableInit malloc .objects busHashSize).andThen <|
  Step.undo (tableDestroy .objects) <|
  (tableInit malloc .calls busHashSize).andThen <|
  Step.undo (tableDestroy .providers) <|
  tableInit malloc .providers desc.objects.length

/-! ## What an initialisation should do -/

/-- The tables of `struct obus_bus_api`. -/
def apiTables : List TableId := [.objDesc, .mtdDesc, .evtDesc, .busEvtDesc]

/-- The tables of `struct obus_bus`. -/
def busTables : List TableId := apiTables ++ [.objects, .calls, .providers]

/-- An initialisation of some tables has ended as it should. -/
structure Sound (ts : List TableId) (r : Option (Except Errno Unit) × Mem) : Prop where
  /-- After a success the tables have their buckets. -/
  usable : r.1 = some (.ok ()) → ∀ t ∈ ts, (r.2.tables t).buckets ≠ none
  /-- After an error, the tables that were initialised have been released, each once, and no others.
  -/
  unwound : (∃ e, r.1 = some (.error e)) → r.2.inited.Nodup ∧ r.2.destroyed.Perm r.2.inited
  /-- After an error, what was allocated has been freed. -/
  returned : (∃ e, r.1 = some (.error e)) → ∀ k < r.2.allocs, malloc k → .heap k ∈ r.2.freed
  /-- What has been freed was allocated. -/
  owned : ∀ b ∈ r.2.freed, ∃ k < r.2.allocs, malloc k ∧ b = .heap k
  /-- Nothing has been freed twice. -/
  once : r.2.freed.Nodup

/-- The elements of a descriptor. -/
def elemCount (desc : BusDesc) : ℕ :=
  (desc.objects.map fun obj => 1 + obj.methods.length + obj.events.length).sum + desc.events.length

/-- The buckets of the tables of the descriptor can be allocated. -/
def ApiBuckets : Prop := ∀ k < 4, malloc k

/-- The buckets of all tables can be allocated: those of the last three are the allocations that
follow the ones of the elements, if these have succeeded and no uid comes twice. -/
def BusBuckets (desc : BusDesc) : Prop :=
  ApiBuckets malloc ∧ (desc.UidsDistinct → (∀ k < 4 + elemCount desc, malloc k) →
    ∀ k < 3, malloc (4 + elemCount desc + k))

end Functions

/-! ## The owners of the blocks -/

section Owners

variable {malloc : ℕ → Bool} {m : Mem} {live : List TableId} {held : TableId → Multiset ℕ}
  {keys : List (TableId × UInt32)} {t : TableId}

/-- The key of an element, with its table. -/
def pair (x : TableId × UInt32 × Elem) : TableId × UInt32 := (x.1, x.2.1)

/-- A table has buckets and entries, whose blocks are some of the first ones, and some keys are
bound in it. -/
def Table.Holds (T : Table) (n : ℕ) (ks : Multiset ℕ) (P : UInt32 → Prop) : Prop :=
  ∃ k as bs, T.buckets = some k ∧ T.hash.Stands as bs ∧ T.hash.fresh ≤ n ∧ ks = k ::ₘ
  (as : Multiset ℕ) ∧
    ∀ key, key ∈ bs.map Binding.key ↔ P key

lemma Table.Holds.mono {T : Table} {n n' : ℕ} {ks : Multiset ℕ} {P : UInt32 → Prop}
    (h : T.Holds n ks P) (hn : n ≤ n') : T.Holds n' ks P := by
  obtain ⟨k, as, bs, hk, hs, hfresh, hks, hkeys⟩ := h
  exact ⟨k, as, bs, hk, hs, hfresh.trans hn, hks, hkeys⟩

/-- Some tables have their buckets and entries: each block that was allocated is held by one of
them, once, or has been freed, once; the keys that are bound in a table are those that are listed
with it. -/
structure Mem.Owns (malloc : ℕ → Bool) (m : Mem) (live : List TableId) (held : TableId → Multiset ℕ)
    (keys : List (TableId × UInt32)) : Prop where
  holds : ∀ t ∈ live, (m.tables t).Holds m.allocs (held t) fun key => (t, key) ∈ keys
  dead : ∀ t ∉ live, held t = 0
  inited : m.inited.Perm (m.destroyed ++ live)
  nodup : m.inited.Nodup
  blocks : (m.freed : Multiset Block) + (∑ t, held t).map .heap =
    ((Multiset.range m.allocs).filter (malloc ·)).map .heap

/-- Blocks that a table gets are held then. -/
lemma sum_update_add (held : TableId → Multiset ℕ) (t : TableId) (ks : Multiset ℕ) :
    ∑ t', Function.update held t (held t + ks) t' = (∑ t', held t') + ks := by
  have hsplit : Function.update held t (held t + ks) = fun t' =>
      held t' + (Pi.single t ks : TableId → Multiset ℕ) t' := by
    funext t'
    by_cases ht : t' = t
    · subst ht
      rw [Function.update_self, Pi.single_eq_same]
    · rw [Function.update_of_ne ht, Pi.single_eq_of_ne ht, add_zero]
  rw [hsplit, Finset.sum_add_distrib, Finset.sum_pi_single' t ks, if_pos (Finset.mem_univ t)]

/-- The blocks that were allocated, after one more allocation. -/
lemma obtained_succ (malloc : ℕ → Bool) (n : ℕ) :
    ((Multiset.range (n + 1)).filter (malloc ·)).map Block.heap =
      ((Multiset.range n).filter (malloc ·)).map Block.heap + if malloc n then {Block.heap n}
        else 0 := by
  rw [Multiset.range_succ]
  by_cases hn : malloc n
  · rw [Multiset.filter_cons_of_pos (p := (malloc · = true)) _ hn, Multiset.map_cons,
      if_pos hn, add_comm,
      Multiset.singleton_add]
  · rw [Multiset.filter_cons_of_neg (p := (malloc · = true)) _ hn, if_neg hn, add_zero]

namespace Mem.Owns

lemma obtained (h : m.Owns malloc live held keys) {b : Block} (hb : b ∈ m.freed) :
    ∃ k < m.allocs, malloc k ∧ b = .heap k := by
  have hmem : b ∈ (m.freed : Multiset Block) + (∑ t, held t).map .heap :=
    Multiset.mem_add.mpr (Or.inl hb)
  rw [h.blocks, Multiset.mem_map] at hmem
  obtain ⟨k, hk, rfl⟩ := hmem
  obtain ⟨hlt, hok⟩ := Multiset.mem_filter.mp hk
  exact ⟨k, Multiset.mem_range.mp hlt, hok, rfl⟩

lemma heap_injective : Function.Injective Block.heap := fun _ _ heq => Block.heap.inj heq

lemma freed_nodup (h : m.Owns malloc live held keys) : m.freed.Nodup := by
  have hall : (((Multiset.range m.allocs).filter (malloc ·)).map Block.heap).Nodup :=
    ((Multiset.nodup_range _).filter _).map heap_injective
  rw [← h.blocks] at hall
  exact Multiset.coe_nodup.mp (Multiset.nodup_add.mp hall).1

/-- An initialisation that fails and has released its tables has ended as it should. -/
lemma sound_of_error (h : m.Owns malloc [] held keys) (ts : List TableId) (e : Errno) :
    Sound malloc ts (some (.error e), m) where
  usable hok := nomatch hok
  unwound _ := ⟨h.nodup, by simpa only [List.append_nil] using h.inited.symm⟩
  returned _ k hk hmalloc := by
    have hnone : ∑ t, held t = 0 := Finset.sum_eq_zero fun t _ => h.dead t List.not_mem_nil
    have hmem : Block.heap k ∈ ((Multiset.range m.allocs).filter (malloc ·)).map Block.heap :=
      Multiset.mem_map_of_mem _ (Multiset.mem_filter.mpr ⟨Multiset.mem_range.mpr hk, hmalloc⟩)
    rw [← h.blocks, hnone, Multiset.map_zero, add_zero] at hmem
    exact hmem
  owned _ hb := h.obtained hb
  once := h.freed_nodup

/-- An initialisation that succeeds has ended as it should. -/
lemma sound_of_ok (h : m.Owns malloc live held keys) {ts : List TableId}
    (hts : ∀ t ∈ ts, t ∈ live) : Sound malloc ts (some (.ok ()), m) where
  usable _ t ht := by
    obtain ⟨k, -, -, hk, -⟩ := h.holds t (hts t ht)
    change (m.tables t).buckets ≠ none
    rw [hk]
    exact Option.some_ne_none k
  unwound hno := nomatch hno
  returned hno := nomatch hno
  owned _ hb := h.obtained hb
  once := h.freed_nodup

/-- A table is initialised. -/
lemma init (h : m.Owns malloc live held keys) (ht : t ∉ m.inited) (hkeys : ∀ key, (t, key) ∉ keys)
    (size : ℕ) (hmalloc : malloc m.allocs) :
    ∃ m' held', tableInit malloc t size m = (some (.ok ()), m') ∧ m'.allocs = m.allocs + 1 ∧
      m'.inited = m.inited ++ [t] ∧ m'.Owns malloc (t :: live) held' keys := by
  have hlive : t ∉ live := fun hmem => ht (h.inited.mem_iff.mpr (List.mem_append_right _ hmem))
  refine ⟨_, Function.update held t (held t + {m.allocs}), by rw [tableInit, if_pos hmalloc],
    rfl, rfl, ?_⟩
  refine
    { holds := fun t' ht' => ?_
      dead := fun t' ht' => ?_
      inited := ?_
      nodup := ?_
      blocks := ?_ }
  · by_cases heq : t' = t
    · subst heq
      simp only [Function.update_self]
      refine ⟨m.allocs, [], [], rfl, Hash.Stands.init size, Nat.zero_le _, ?_, fun key => ?_⟩
      · rw [h.dead t' hlive, zero_add]
        rfl
      · exact iff_of_false List.not_mem_nil (hkeys key)
    · simp only [Function.update_of_ne heq]
      exact (h.holds t' ((List.mem_cons.mp ht').resolve_left heq)).mono (Nat.le_succ _)
  · rw [List.mem_cons, not_or] at ht'
    rw [Function.update_of_ne ht'.1, h.dead t' ht'.2]
  · have hmiddle : (m.inited ++ [t]).Perm (m.destroyed ++ live ++ [t]) := h.inited.append_right [t]
    rw [List.append_assoc] at hmiddle
    exact hmiddle.trans (List.perm_append_comm.append_left m.destroyed)
  · exact List.nodup_append'.mpr ⟨h.nodup, List.nodup_singleton t, List.disjoint_singleton.mpr ht⟩
  · rw [sum_update_add, Multiset.map_add, ← add_assoc, h.blocks, obtained_succ, if_pos hmalloc]
    rfl

/-- The table that was initialised last is released. -/
lemma destroy (h : m.Owns malloc (t :: live) held keys) :
    ∃ m' held', tableDestroy t m = (some (.ok ()), m') ∧ m'.Owns malloc live held' keys := by
  have hnodup := (h.inited.nodup_iff.mp h.nodup)
  have hlive : t ∉ live := (List.nodup_cons.mp (List.nodup_append'.mp hnodup).2.1).1
  obtain ⟨k, as, bs, hk, hs, -, hheld, -⟩ := h.holds t List.mem_cons_self
  obtain ⟨entries, hdestroy, hperm⟩ := hs.destroy
  refine ⟨_, Function.update held t 0, by rw [tableDestroy, hdestroy], ?_⟩
  refine
    { holds := fun t' ht' => ?_
      dead := fun t' ht' => ?_
      inited := ?_
      nodup := h.nodup
      blocks := ?_ }
  · have hne : t' ≠ t := fun heq => hlive (heq ▸ ht')
    simp only [Function.update_of_ne hne]
    exact h.holds t' (List.mem_cons_of_mem t ht')
  · by_cases heq : t' = t
    · rw [heq, Function.update_self]
    · rw [Function.update_of_ne heq, h.dead t' fun hmem =>
        ht' ((List.mem_cons.mp hmem).resolve_left heq)]
  · have hsplit : m.destroyed ++ t :: live = m.destroyed ++ [t] ++ live := by
      rw [List.append_assoc]; rfl
    exact hsplit ▸ h.inited
  · have hblocks : (((entries ++ [k]).map Block.heap : List Block) : Multiset Block) =
        (held t).map Block.heap := by
      rw [← Multiset.map_coe, hheld]
      refine congrArg _ ?_
      rw [← Multiset.coe_add, Multiset.coe_eq_coe.mpr hperm, Multiset.coe_singleton, add_comm,
        Multiset.singleton_add]
    have hsum : (∑ t', held t') = held t + ∑ t', Function.update held t 0 t' := by
      have hback : Function.update (Function.update held t 0) t
          (Function.update held t 0 t + held t) = held := by
        rw [Function.update_self, zero_add, Function.update_idem, Function.update_eq_self]
      rw [add_comm, ← sum_update_add, hback]
    rw [← h.blocks, hsum, Multiset.map_add, ← add_assoc, ← hblocks, Multiset.coe_add, hk]
    rfl

/-- An allocation that fails changes nothing. -/
lemma refused (h : m.Owns malloc live held keys) (hmalloc : ¬malloc m.allocs) :
    Mem.Owns malloc { m with allocs := m.allocs + 1 } live held keys where
  holds t ht := (h.holds t ht).mono (Nat.le_succ _)
  dead := h.dead
  inited := h.inited
  nodup := h.nodup
  blocks := by rw [obtained_succ, if_neg hmalloc, add_zero, ← h.blocks]

/-- The table of an insertion, with the address of the new entry. -/
lemma prepared (h : m.Owns malloc live held keys) (ht : t ∈ live) :
    ∃ (k : ℕ) (as : List ℕ) (bs : List (Binding Elem)), (m.tables t).buckets = some k ∧
      held t = k ::ₘ (as : Multiset ℕ) ∧ (∀ key, key ∈ bs.map Binding.key ↔ (t, key) ∈ keys) ∧
      (startAt m.allocs (m.tables t).hash).Stands as bs := by
  obtain ⟨k, as, bs, hk, hs, hfresh, hheld, hkeys⟩ := h.holds t ht
  exact ⟨k, as, bs, hk, hheld, hkeys, hs.congr rfl rfl rfl (fun _ _ => rfl) hfresh⟩

/-- The insertion of a new key. -/
lemma insert (h : m.Owns malloc live held keys) (ht : t ∈ live) {key : UInt32}
    (hkey : (t, key) ∉ keys) (data : Elem) (hmalloc : malloc m.allocs) :
    ∃ m' held', tableInsertConst malloc (t, key, data) m = (some (.ok ()), m') ∧
    m'.allocs = m.allocs + 1 ∧
      m'.inited = m.inited ∧ m'.Owns malloc live held' (keys ++ [(t, key)]) := by
  obtain ⟨k, as, bs, hk, hheld, hkeys, hs⟩ := h.prepared ht
  have hnew : bound bs key = none := bound_eq_none.mpr fun hmem => hkey ((hkeys key).mp hmem)
  obtain ⟨hash, hrun, hs'⟩ := hs.insert_absent true data hnew
  have hfresh : hash.fresh = m.allocs + 1 := hashInsertAs_fresh hrun
  have hstep : tableInsertConst malloc (t, key, data) m = (some (.ok ()), { m with
      tables := Function.update m.tables t { m.tables t with hash := hash }
      allocs := m.allocs + 1 }) := by
    simp only [tableInsertConst, if_pos hmalloc, hashInsertConst, hrun]
  refine ⟨_, Function.update held t (held t + {m.allocs}), hstep, rfl, rfl, ?_⟩
  refine
    { holds := fun t' ht' => ?_
      dead := fun t' ht' => ?_
      inited := h.inited
      nodup := h.nodup
      blocks := ?_ }
  · by_cases heq : t' = t
    · subst heq
      simp only [Function.update_self]
      refine ⟨k, _, _, hk, hs', hfresh.le, ?_, fun key' => ?_⟩
      · rw [hheld, ← Multiset.coe_add, Multiset.coe_singleton, Multiset.cons_add]
        rfl
      · change _ ↔ (t', key') ∈ keys ++ [(t', key)]
        rw [List.map_append, List.mem_append, hkeys, List.mem_append, List.map_singleton,
          List.mem_singleton,
          List.mem_singleton, Prod.mk.injEq, and_iff_right rfl]
    · simp only [Function.update_of_ne heq]
      obtain ⟨k', as', bs', hk', hs'', hfresh', hheld', hkeys'⟩ := h.holds t' ht'
      refine ⟨k', as', bs', hk', hs'', hfresh'.trans (Nat.le_succ _), hheld', fun key' => ?_⟩
      change _ ↔ (t', key') ∈ keys ++ [(t, key)]
      rw [hkeys', List.mem_append, List.mem_singleton, Prod.mk.injEq, or_iff_left fun hmem =>
        heq hmem.1]
  · have hne : t' ≠ t := fun heq => ht' (heq ▸ ht)
    rw [Function.update_of_ne hne, h.dead t' ht']
  · rw [sum_update_add, Multiset.map_add, ← add_assoc, h.blocks, obtained_succ, if_pos hmalloc]
    rfl

/-- The insertion of a key that is there. -/
lemma insert_twice (h : m.Owns malloc live held keys) (ht : t ∈ live) {key : UInt32}
    (hkey : (t, key) ∈ keys) (data : Elem) (hmalloc : malloc m.allocs) :
    ∃ m', tableInsertConst malloc (t, key, data) m = (some (.error .eexist), m') ∧
    m'.Owns malloc live held keys := by
  obtain ⟨k, as, bs, hk, hheld, hkeys, hs⟩ := h.prepared ht
  obtain ⟨b, hb⟩ := Option.ne_none_iff_exists'.mp fun hnone =>
    bound_eq_none.mp hnone ((hkeys key).mpr hkey)
  obtain ⟨hash, hrun, hs'⟩ := hs.insert_present true data hb
  have hfresh : hash.fresh = m.allocs + 1 := hashInsertAs_fresh hrun
  have hstep : tableInsertConst malloc (t, key, data) m = (some (.error .eexist), { m with
      tables := Function.update m.tables t { m.tables t with hash := hash }
      allocs := m.allocs + 1
      freed := m.freed ++ [.heap m.allocs] }) := by
    simp only [tableInsertConst, if_pos hmalloc, hashInsertConst, hrun]
  refine ⟨_, hstep, ?_⟩
  refine
    { holds := fun t' ht' => ?_
      dead := h.dead
      inited := h.inited
      nodup := h.nodup
      blocks := ?_ }
  · by_cases heq : t' = t
    · subst heq
      simp only [Function.update_self]
      exact ⟨k, as, bs, hk, hs', hfresh.le, hheld, hkeys⟩
    · simp only [Function.update_of_ne heq]
      exact (h.holds t' ht').mono (Nat.le_succ _)
  · rw [obtained_succ, if_pos hmalloc, ← h.blocks, ← Multiset.coe_add, add_right_comm]
    rfl

/-- A loop of insertions that all succeed. -/
lemma inserts (h : m.Owns malloc live held keys) {l : List (TableId × UInt32 × Elem)}
    (hl : ∀ x ∈ l, x.1 ∈ live)
    (hmalloc : ∀ k < l.length, malloc (m.allocs + k)) (hkeys : (keys ++ l.map pair).Nodup) :
    ∃ m' held', Step.each (tableInsertConst malloc) l m = (some (.ok ()), m') ∧
    m'.allocs = m.allocs + l.length ∧
      m'.inited = m.inited ∧ m'.Owns malloc live held' (keys ++ l.map pair) := by
  induction l generalizing m held keys with
  | nil => exact ⟨m, held, rfl, rfl, rfl, by rwa [List.map_nil, List.append_nil]⟩
  | cons x l ih =>
    have hnew : pair x ∉ keys :=
      fun hmem => (List.nodup_append.mp hkeys).2.2 _ hmem _ List.mem_cons_self rfl
    have hfirst := hmalloc 0 (Nat.succ_pos _)
    obtain ⟨m₁, held₁, hrun, hallocs, hinited, h₁⟩ :=
      h.insert (hl x List.mem_cons_self) hnew x.2.2 hfirst
    have hrest : ∀ k < l.length, malloc (m₁.allocs + k) := by
      intro k hk
      rw [hallocs, add_assoc, add_comm 1]
      exact hmalloc (k + 1) (Nat.succ_lt_succ hk)
    have hkeys₁ : (keys ++ [pair x] ++ l.map pair).Nodup := by
      rw [List.append_assoc]
      exact hkeys
    obtain ⟨m₂, held₂, hrun₂, hallocs₂, hinited₂, h₂⟩ :=
      ih h₁ (fun y hy => hl y (List.mem_cons_of_mem x hy)) hrest hkeys₁
    refine ⟨m₂, held₂, ?_, ?_, hinited₂.trans hinited, ?_⟩
    · rw [Step.each, Step.andThen, hrun]
      exact hrun₂
    · rw [hallocs₂, hallocs, List.length_cons]
      omega
    · rw [List.append_assoc] at h₂
      exact h₂

/-- A loop of insertions one of which fails. -/
lemma inserts_error (h : m.Owns malloc live held keys) {l : List (TableId × UInt32 × Elem)}
    (hl : ∀ x ∈ l, x.1 ∈ live)
    (hkeys : keys.Nodup)
    (hno : ¬((∀ k < l.length, malloc (m.allocs + k)) ∧ (keys ++ l.map pair).Nodup)) :
    ∃ e m' held' keys', Step.each (tableInsertConst malloc) l m = (some (.error e), m') ∧
      m'.Owns malloc live held' keys' := by
  induction l generalizing m held keys with
  | nil =>
    refine absurd ⟨fun k hk => absurd hk (Nat.not_lt_zero k), ?_⟩ hno
    rwa [List.map_nil, List.append_nil]
  | cons x l ih =>
    have hx := hl x List.mem_cons_self
    by_cases hmalloc : malloc m.allocs
    swap
    · refine ⟨.enomem, _, held, keys, ?_, h.refused hmalloc⟩
      rw [Step.each, Step.andThen, tableInsertConst, if_neg hmalloc]
    by_cases hnew : pair x ∈ keys
    · obtain ⟨m₁, hrun, h₁⟩ := h.insert_twice hx hnew x.2.2 hmalloc
      refine ⟨.eexist, m₁, held, keys, ?_, h₁⟩
      rw [Step.each, Step.andThen, hrun]
    obtain ⟨m₁, held₁, hrun, hallocs, -, h₁⟩ := h.insert hx hnew x.2.2 hmalloc
    have hkeys₁ : (keys ++ [pair x]).Nodup :=
      List.nodup_append'.mpr ⟨hkeys, List.nodup_singleton _, List.disjoint_singleton.mpr hnew⟩
    obtain ⟨e, m₂, held₂, keys₂, hrun₂, h₂⟩ :=
      ih h₁ (fun y hy => hl y (List.mem_cons_of_mem x hy)) hkeys₁ (by
      rintro ⟨hrest, hnodup⟩
      refine hno ⟨fun k hk => ?_, ?_⟩
      · cases k with
        | zero => exact hmalloc
        | succ k =>
          have hk' := hrest k (Nat.lt_of_succ_lt_succ hk)
          rwa [hallocs, add_assoc, add_comm 1] at hk'
      · rw [List.append_assoc] at hnodup
        exact hnodup)
    refine ⟨e, m₂, held₂, keys₂, ?_, h₂⟩
    rw [Step.each, Step.andThen, hrun]
    exact hrun₂

end Mem.Owns

end Owners

/-! ## The elements of a descriptor -/

section Elems

lemma Step.andThen_assoc (f g h : Step) : (f.andThen g).andThen h = f.andThen (g.andThen h) := by
  funext m
  unfold Step.andThen
  obtain ⟨r, m'⟩ := f m
  rcases r with _ | (_ | _) <;> rfl

lemma Step.each_append {β : Type} (f : β → Step) (l l' : List β) :
    Step.each f (l ++ l') = (Step.each f l).andThen (Step.each f l') := by
  induction l with
  | nil => rfl
  | cons b l ih =>
    have hcons : ∀ l, Step.each f (b :: l) = (f b).andThen (Step.each f l) := fun _ => rfl
    rw [List.cons_append, hcons, hcons, ih, Step.andThen_assoc]

/-- Two nested loops are one loop. -/
lemma Step.each_each {β γ : Type} (f : γ → Step) (g : β → List γ) (l : List β) :
    Step.each (fun b => Step.each f (g b)) l = Step.each f (l.flatMap g) := by
  induction l with
  | nil => rfl
  | cons b l ih =>
    rw [List.flatMap_cons, Step.each_append, ← ih]
    rfl

/-- The elements of a descriptor, in the order in which they are inserted. -/
def elems (desc : BusDesc) : List (TableId × UInt32 × Elem) :=
  desc.objects.zipIdx.flatMap objectElems ++ busEventElems desc

lemma length_elems (desc : BusDesc) : (elems desc).length = elemCount desc := by
  have hobjects : (desc.objects.map fun obj => 1 + obj.methods.length + obj.events.length) =
      desc.objects.zipIdx.map fun x => (objectElems x).length := by
    conv_lhs => rw [← List.zipIdx_map_fst 0 desc.objects]
    rw [List.map_map]
    refine List.map_congr_left fun x _ => ?_
    simp only [objectElems, methodKeys, eventKeys, Function.comp_apply, List.length_append,
      List.length_cons,
      List.length_map, List.length_zipIdx]
    omega
  rw [elems, elemCount, hobjects, List.length_append, List.length_flatMap, busEventElems,
    busEventKeys, List.length_map,
    List.length_map, List.length_zipIdx]

lemma elems_table {desc : BusDesc} {x : TableId × UInt32 × Elem} (hx : x ∈ elems desc) :
    x.1 ∈ apiTables := by
  simp only [elems, objectElems, busEventElems, List.mem_append, List.mem_flatMap, List.mem_cons,
    List.mem_map] at hx
  rcases hx with ⟨-, -, (rfl | ⟨-, -, rfl⟩) | ⟨-, -, rfl⟩⟩ | ⟨-, -, rfl⟩
  · exact (by decide : TableId.objDesc ∈ apiTables)
  · exact (by decide : TableId.mtdDesc ∈ apiTables)
  · exact (by decide : TableId.evtDesc ∈ apiTables)
  · exact (by decide : TableId.busEvtDesc ∈ apiTables)

/-- Keys of one table. -/
def tagged (t : TableId) (ks : List UInt32) : List (TableId × UInt32) := ks.map (Prod.mk t)

lemma nodup_tagged {t : TableId} {ks : List UInt32} : (tagged t ks).Nodup ↔ ks.Nodup :=
  List.nodup_map_iff (Prod.mk_right_injective t)

lemma tagged_fst {t : TableId} {ks : List UInt32} {x : TableId × UInt32} (hx : x ∈ tagged t ks) :
    x.1 = t := by
  obtain ⟨key, -, rfl⟩ := List.mem_map.mp hx
  rfl

lemma pair_map_tagged {δ : Type} (t : TableId) (data : δ → Elem) (kds : List (UInt32 × δ)) :
    (kds.map fun kd => (t, kd.1, data kd.2)).map pair = tagged t (kds.map Prod.fst) := by
  rw [tagged, List.map_map, List.map_map]
  rfl

/-- The keys of the elements, table by table. -/
lemma elems_perm (desc : BusDesc) : ((elems desc).map pair).Perm
    (tagged .objDesc ((objectKeys 0 desc.objects).map Prod.fst) ++
      tagged .mtdDesc ((allKeys methodKeys 0 desc.objects).map Prod.fst) ++
      tagged .evtDesc ((allKeys eventKeys 0 desc.objects).map Prod.fst) ++
      tagged .busEvtDesc ((busEventKeys desc.events).map Prod.fst)) := by
  have hobjects : tagged .objDesc ((objectKeys 0 desc.objects).map Prod.fst) =
      desc.objects.zipIdx.map fun x => (TableId.objDesc, x.1.uid.toUInt32) := by
    rw [tagged, objectKeys, List.map_map, List.map_map]
    rfl
  have hkeys : ∀ (t : TableId) (keys : ℕ → ObjectDesc → List (UInt32 × ℕ × ℕ)),
      tagged t ((allKeys keys 0 desc.objects).map Prod.fst) =
        desc.objects.zipIdx.flatMap fun x => tagged t ((keys x.2 x.1).map Prod.fst) := by
    intro t keys
    rw [tagged, allKeys, List.map_flatMap, List.map_flatMap]
    rfl
  have hevents : (busEventElems desc).map pair = tagged .busEvtDesc
      ((busEventKeys desc.events).map Prod.fst) :=
    pair_map_tagged .busEvtDesc Elem.busEvent _
  have hsplit : ∀ x : ObjectDesc × ℕ, (objectElems x).map pair =
      (TableId.objDesc, x.1.uid.toUInt32) ::
      tagged .mtdDesc ((methodKeys x.2 x.1).map Prod.fst) ++ tagged .evtDesc
        ((eventKeys x.2 x.1).map Prod.fst) := by
    intro x
    have hmethods := pair_map_tagged .mtdDesc (fun d : ℕ × ℕ => Elem.method d.1 d.2)
      (methodKeys x.2 x.1)
    have hevents := pair_map_tagged .evtDesc (fun d : ℕ × ℕ => Elem.event d.1 d.2)
      (eventKeys x.2 x.1)
    rw [objectElems, List.map_append, List.map_cons]
    exact congrArg₂ (· ++ ·) (congrArg (List.cons _) hmethods) hevents
  rw [elems, List.map_append, List.map_flatMap, hevents]
  simp only [hsplit]
  rw [hobjects, hkeys, hkeys]
  refine List.Perm.append_right _ ?_
  exact (((List.map_append_flatMap_perm ..).append_right _).trans
    (List.flatMap_append_perm ..)).symm

/-- No key of a table comes twice exactly if no uid comes twice in its scope. -/
lemma nodup_elems (desc : BusDesc) : ((elems desc).map pair).Nodup ↔ desc.UidsDistinct := by
  have hapart : ∀ {t : TableId} {l : List (TableId × UInt32)} {ks : List UInt32},
      (∀ x ∈ l, x.1 ≠ t) →
      List.Disjoint l (tagged t ks) := fun hl x hx hx' => hl x hx (tagged_fst hx')
  rw [(elems_perm desc).nodup_iff, uidsDistinct_iff, KeysDistinct, List.nodup_append',
    List.nodup_append',
    List.nodup_append', nodup_tagged, nodup_tagged, nodup_tagged, nodup_tagged]
  have hne : ∀ {t t' : TableId} {ks : List UInt32}, t ≠ t' → ∀ x ∈ tagged t ks, x.1 ≠ t' :=
    fun h x hx => (tagged_fst hx).symm ▸ h
  have hne₂ : ∀ {t t₁ t₂ : TableId} {ks₁ ks₂ : List UInt32}, t₁ ≠ t → t₂ ≠ t →
      ∀ x ∈ tagged t₁ ks₁ ++ tagged t₂ ks₂, x.1 ≠ t :=
    fun h₁ h₂ x hx => (List.mem_append.mp hx).elim (hne h₁ x) (hne h₂ x)
  constructor
  · rintro ⟨⟨⟨hobjects, hmethods, -⟩, hevents, -⟩, hbusEvents, -⟩
    exact ⟨⟨hobjects, hmethods, hevents⟩, hbusEvents⟩
  · rintro ⟨⟨hobjects, hmethods, hevents⟩, hbusEvents⟩
    refine ⟨⟨⟨hobjects, hmethods, hapart (hne (by decide))⟩, hevents,
      hapart (hne₂ (by decide) (by decide))⟩, hbusEvents,
      hapart fun x hx => ?_⟩
    rcases List.mem_append.mp hx with hx | hx
    · exact hne₂ (by decide) (by decide) x hx
    · exact hne (by decide) x hx

end Elems

/-! ## Initialisations that free a table -/

section Freed

variable {malloc : ℕ → Bool} {m : Mem} {t : TableId} {f g : Step}

/-- What was freed before a step is freed after it. -/
def Step.Grows (f : Step) : Prop := ∀ m : Mem, ∀ b ∈ m.freed, b ∈ (f m).2.freed

/-- A step frees a table of the bus. -/
def Step.FreesTable (f : Step) (m : Mem) : Prop := ∃ t, Block.table t ∈ (f m).2.freed

@[simp] lemma tableInit_allocs (size : ℕ) :
    (tableInit malloc t size m).2.allocs = m.allocs + 1 := by
  unfold tableInit
  split <;> rfl

/-- The result of `obus_hash_init` is always 0. -/
lemma tableInit_andThen (size : ℕ) :
    ((tableInit malloc t size).andThen f) m = f (tableInit malloc t size m).2 := by
  by_cases hmalloc : malloc m.allocs
  · simp only [Step.andThen, tableInit, if_pos hmalloc]
  · simp only [Step.andThen, tableInit, if_neg hmalloc]

/-- The memory after two steps is that after the first one or after the second one. -/
lemma andThen_mem (f g : Step) (m : Mem) :
    ((f.andThen g) m).2 = (f m).2 ∨ ((f.andThen g) m).2 = (g (f m).2).2 := by
  unfold Step.andThen
  obtain ⟨r, m'⟩ := f m
  rcases r with _ | (_ | _)
  · exact Or.inl rfl
  · exact Or.inl rfl
  · exact Or.inr rfl

lemma undo_mem (f g : Step) (m : Mem) :
    (Step.undo f g m).2 = (g m).2 ∨ (Step.undo f g m).2 = (f (g m).2).2 := by
  unfold Step.undo
  obtain ⟨r, m'⟩ := g m
  rcases r with _ | (e | _)
  · exact Or.inl rfl
  · refine Or.inr ?_
    dsimp only
    obtain ⟨r', m''⟩ := f m'
    cases r' <;> rfl
  · exact Or.inl rfl

lemma grows_tableInit (size : ℕ) : (tableInit malloc t size).Grows := by
  intro m b hb
  unfold tableInit
  split
  · exact hb
  · exact List.mem_append_left _ hb

lemma grows_tableDestroy : (tableDestroy t).Grows := by
  intro m b hb
  unfold tableDestroy
  split
  · exact hb
  · exact List.mem_append_left _ hb

lemma grows_tableInsertConst (x : TableId × UInt32 × Elem) : (tableInsertConst malloc x).Grows := by
  intro m b hb
  unfold tableInsertConst
  dsimp only
  split
  · split
    · exact hb
    · exact hb
    · exact List.mem_append_left _ hb
  · exact hb

namespace Step.Grows

lemma andThen (hf : f.Grows) (hg : g.Grows) : (f.andThen g).Grows := by
  intro m b hb
  rcases andThen_mem f g m with heq | heq
  · rw [heq]
    exact hf m b hb
  · rw [heq]
    exact hg _ b (hf m b hb)

lemma undo (hf : f.Grows) (hg : g.Grows) : (Step.undo f g).Grows := by
  intro m b hb
  rcases undo_mem f g m with heq | heq
  · rw [heq]
    exact hg m b hb
  · rw [heq]
    exact hf _ b (hg m b hb)

lemma each {β : Type} {f : β → Step} (hf : ∀ b, (f b).Grows) (l : List β) :
    (Step.each f l).Grows := by
  induction l with
  | nil => exact fun _ _ hb => hb
  | cons b l ih => exact (hf b).andThen ih

end Step.Grows

namespace Step.FreesTable

/-- An initialisation of a table without memory frees it. -/
lemma of_init (hg : g.Grows) {size : ℕ} (hno : ¬malloc m.allocs) :
    ((tableInit malloc t size).andThen g).FreesTable m := by
  refine ⟨t, ?_⟩
  rw [tableInit_andThen]
  refine hg _ _ ?_
  rw [tableInit, if_neg hno]
  exact List.mem_append_right _ (List.mem_singleton_self _)

lemma after_init {size : ℕ} (h : g.FreesTable (tableInit malloc t size m).2) :
    ((tableInit malloc t size).andThen g).FreesTable m := by
  rw [FreesTable, tableInit_andThen]
  exact h

lemma undo (hf : f.Grows) (h : g.FreesTable m) : (Step.undo f g).FreesTable m := by
  obtain ⟨t, ht⟩ := h
  rcases undo_mem f g m with heq | heq
  · exact ⟨t, heq ▸ ht⟩
  · exact ⟨t, heq ▸ hf _ _ ht⟩

lemma andThen (hg : g.Grows) (h : f.FreesTable m) : (f.andThen g).FreesTable m := by
  obtain ⟨t, ht⟩ := h
  rcases andThen_mem f g m with heq | heq
  · exact ⟨t, heq ▸ ht⟩
  · exact ⟨t, heq ▸ hg _ _ ht⟩

lemma not_sound (h : f.FreesTable m) (ts : List TableId) : ¬Sound malloc ts (f m) := by
  obtain ⟨t, ht⟩ := h
  intro hsound
  obtain ⟨k, -, -, heq⟩ := hsound.owned _ ht
  cases heq

end Step.FreesTable

/-- The insertions of `obus_bus_api_init`. -/
def insertElems (malloc : ℕ → Bool) (desc : BusDesc) : Step :=
  (Step.each (apiAddObject malloc) desc.objects.zipIdx).andThen
    (Step.each (tableInsertConst malloc) (busEventElems desc))

lemma insertElems_eq (malloc : ℕ → Bool) (desc : BusDesc) :
    insertElems malloc desc = Step.each (tableInsertConst malloc) (elems desc) := by
  have hobjects : Step.each (apiAddObject malloc) desc.objects.zipIdx =
      Step.each (tableInsertConst malloc) (desc.objects.zipIdx.flatMap objectElems) :=
        Step.each_each ..
  rw [insertElems, hobjects, elems, Step.each_append]

lemma grows_insertElems (malloc : ℕ → Bool) (desc : BusDesc) : (insertElems malloc desc).Grows := by
  rw [insertElems_eq]
  exact Step.Grows.each grows_tableInsertConst _

/-- Initialise a table, go on, and release the table if there is an error. -/
def acquire (malloc : ℕ → Bool) (t : TableId) (size : ℕ) (g : Step) : Step :=
  (tableInit malloc t size).andThen (Step.undo (tableDestroy t) g)

lemma apiInit_eq (malloc : ℕ → Bool) (desc : BusDesc) : apiInit malloc desc =
    acquire malloc .objDesc desc.objects.length
      (acquire malloc .mtdDesc (desc.objects.map fun obj => obj.methods.length).sum
        (acquire malloc .evtDesc (desc.objects.map fun obj => obj.events.length).sum
          (acquire malloc .busEvtDesc desc.events.length (insertElems malloc desc)))) := rfl

lemma grows_acquire (hg : g.Grows) (size : ℕ) : (acquire malloc t size g).Grows :=
  (grows_tableInit size).andThen (grows_tableDestroy.undo hg)

lemma acquire_freesTable (hg : g.Grows) {size : ℕ}
    (h : ¬malloc m.allocs ∨ g.FreesTable (tableInit malloc t size m).2) :
    (acquire malloc t size g).FreesTable m := by
  rcases h with hno | h
  · exact .of_init (grows_tableDestroy.undo hg) hno
  · exact .after_init (.undo grows_tableDestroy h)

/-- When the buckets of a table of the descriptor cannot be allocated, the table is freed. -/
lemma apiInit_freesTable (desc : BusDesc) (hno : ¬ApiBuckets malloc) :
    (apiInit malloc desc).FreesTable {} := by
  have hinsert := grows_insertElems malloc desc
  have hfour : ¬malloc 0 ∨ ¬malloc 1 ∨ ¬malloc 2 ∨ ¬malloc 3 := by
    by_contra hall
    simp only [not_or, not_not] at hall
    refine hno fun k hk => ?_
    interval_cases k
    · exact hall.1
    · exact hall.2.1
    · exact hall.2.2.1
    · exact hall.2.2.2
  rw [apiInit_eq]
  refine acquire_freesTable (grows_acquire (grows_acquire (grows_acquire hinsert _) _) _)
    (hfour.imp_right fun h => ?_)
  refine acquire_freesTable (grows_acquire (grows_acquire hinsert _) _) ?_
  rw [tableInit_allocs]
  refine h.imp_right fun h => acquire_freesTable (grows_acquire hinsert _) ?_
  rw [tableInit_allocs, tableInit_allocs]
  refine h.imp_right fun h => acquire_freesTable hinsert (Or.inl ?_)
  rw [tableInit_allocs, tableInit_allocs, tableInit_allocs]
  exact h

end Freed

/-! ## Initialisations whose tables have their buckets -/

section Acquired

variable {malloc : ℕ → Bool} {m : Mem} {t : TableId} {f g : Step} {live : List TableId}

/-- A step fails, and leaves some tables behind. -/
def Step.FailsWith (malloc : ℕ → Bool) (f : Step) (m : Mem) (live : List TableId) : Prop :=
  ∃ e m' held keys, f m = (some (.error e), m') ∧ m'.Owns malloc live held keys

lemma acquire_ok {size : ℕ} {m₁ m₂ : Mem} (hinit : tableInit malloc t size m = (some (.ok ()), m₁))
    (hg : g m₁ = (some (.ok ()), m₂)) : acquire malloc t size g m = (some (.ok ()), m₂) := by
  rw [acquire, tableInit_andThen, hinit, Step.undo, hg]

/-- The table that was initialised is released on an error. -/
lemma acquire_fails {size : ℕ} {m₁ : Mem} (hinit : tableInit malloc t size m = (some (.ok ()), m₁))
    (hg : g.FailsWith malloc m₁ (t :: live)) :
    (acquire malloc t size g).FailsWith malloc m live := by
  obtain ⟨e, m₂, held, keys, hrun, h₂⟩ := hg
  obtain ⟨m₃, held₃, hdestroy, h₃⟩ := h₂.destroy
  refine ⟨e, m₃, held₃, keys, ?_, h₃⟩
  rw [acquire, tableInit_andThen, hinit, Step.undo, hrun]
  simp only [hdestroy]

/-- Nothing was allocated yet. -/
lemma Mem.Owns.new (malloc : ℕ → Bool) : Mem.Owns malloc {} [] (fun _ => 0) [] where
  holds _ ht := absurd ht List.not_mem_nil
  dead _ _ := rfl
  inited := .refl _
  nodup := List.nodup_nil
  blocks := by
    rw [Finset.sum_const_zero]
    rfl

/-- With the buckets of its tables, `obus_bus_api_init` succeeds exactly if the allocations of the
elements do and no uid comes twice; otherwise it leaves no table behind. -/
lemma apiInit_cases (desc : BusDesc) (hbuckets : ApiBuckets malloc) :
    (desc.UidsDistinct ∧ (∀ k < 4 + elemCount desc, malloc k) ∧ ∃ m held, apiInit malloc desc {} =
      (some (.ok ()), m) ∧
      m.allocs = 4 + elemCount desc ∧ m.inited = apiTables ∧
      m.Owns malloc apiTables.reverse held ((elems desc).map pair)) ∨
    (¬(desc.UidsDistinct ∧ ∀ k < 4 + elemCount desc, malloc k) ∧
      (apiInit malloc desc).FailsWith malloc {} []) := by
  obtain ⟨m₁, held₁, hinit₁, hallocs₁, hinited₁, h₁⟩ :=
    (Mem.Owns.new malloc).init (t := .objDesc) List.not_mem_nil
    (fun _ => List.not_mem_nil) desc.objects.length (hbuckets 0 (by decide))
  obtain ⟨m₂, held₂, hinit₂, hallocs₂, hinited₂, h₂⟩ :=
    h₁.init (t := .mtdDesc) (by rw [hinited₁]; decide)
    (fun _ => List.not_mem_nil) (desc.objects.map fun obj => obj.methods.length).sum
    (by rw [hallocs₁]; exact hbuckets 1 (by decide))
  obtain ⟨m₃, held₃, hinit₃, hallocs₃, hinited₃, h₃⟩ :=
    h₂.init (t := .evtDesc) (by rw [hinited₂, hinited₁]; decide)
    (fun _ => List.not_mem_nil) (desc.objects.map fun obj => obj.events.length).sum
    (by rw [hallocs₂, hallocs₁]; exact hbuckets 2 (by decide))
  obtain ⟨m₄, held₄, hinit₄, hallocs₄, hinited₄, h₄⟩ := h₃.init (t := .busEvtDesc)
    (by rw [hinited₃, hinited₂, hinited₁]; decide) (fun _ => List.not_mem_nil) desc.events.length
    (by rw [hallocs₃, hallocs₂, hallocs₁]; exact hbuckets 3 (by decide))
  have hfour : m₄.allocs = 4 := by rw [hallocs₄, hallocs₃, hallocs₂, hallocs₁]
  have htables : ∀ x ∈ elems desc, x.1 ∈ [TableId.busEvtDesc, .evtDesc, .mtdDesc, .objDesc] := by
    intro x hx
    exact List.mem_reverse.mpr (elems_table hx)
  have hiff : (∀ k < (elems desc).length, malloc (m₄.allocs + k)) ↔
      ∀ k < 4 + elemCount desc, malloc k := by
    rw [hfour, length_elems]
    constructor
    · intro h k hk
      by_cases hlt : k < 4
      · exact hbuckets k hlt
      · have hk' := h (k - 4) (by omega)
        rwa [Nat.add_sub_cancel' (not_lt.mp hlt)] at hk'
    · exact fun h k hk => h (4 + k) (by omega)
  have hkeys : (([] : List (TableId × UInt32)) ++ (elems desc).map pair).Nodup ↔
      desc.UidsDistinct := nodup_elems desc
  by_cases hall : (∀ k < (elems desc).length, malloc (m₄.allocs + k)) ∧
      (([] : List (TableId × UInt32)) ++ (elems desc).map pair).Nodup
  · obtain ⟨m₅, held₅, hrun, hallocs₅, hinited₅, h₅⟩ := h₄.inserts htables hall.1 hall.2
    rw [← insertElems_eq] at hrun
    refine Or.inl ⟨hkeys.mp hall.2, hiff.mp hall.1, m₅, held₅, ?_, ?_, ?_, h₅⟩
    · rw [apiInit_eq]
      exact acquire_ok hinit₁ (acquire_ok hinit₂ (acquire_ok hinit₃ (acquire_ok hinit₄ hrun)))
    · rw [hallocs₅, hfour, length_elems]
    · rw [hinited₅, hinited₄, hinited₃, hinited₂, hinited₁]
      rfl
  · obtain ⟨e, m₅, held₅, keys₅, hrun, h₅⟩ := h₄.inserts_error htables List.nodup_nil hall
    rw [← insertElems_eq] at hrun
    have hfails : (insertElems malloc desc).FailsWith malloc m₄ [.busEvtDesc, .evtDesc, .mtdDesc,
        .objDesc] :=
      ⟨e, m₅, held₅, keys₅, hrun, h₅⟩
    refine Or.inr ⟨fun h => hall ⟨hiff.mpr h.2, hkeys.mpr h.1⟩, ?_⟩
    rw [apiInit_eq]
    exact acquire_fails hinit₁
      (acquire_fails hinit₂ (acquire_fails hinit₃ (acquire_fails hinit₄ hfails)))

/-- The initialisations of `obus_bus_init` after that of the bus api. -/
def busTail (malloc : ℕ → Bool) (desc : BusDesc) : Step :=
  Step.undo apiDestroy <|
  acquire malloc .objects busHashSize <|
  (tableInit malloc .calls busHashSize).andThen <|
  Step.undo (tableDestroy .providers) <|
  tableInit malloc .providers desc.objects.length

lemma busInit_eq (malloc : ℕ → Bool) (desc : BusDesc) :
    busInit malloc desc = (apiInit malloc desc).andThen (busTail malloc desc) := rfl

lemma grows_busTail (malloc : ℕ → Bool) (desc : BusDesc) : (busTail malloc desc).Grows := by
  have hdestroy : apiDestroy.Grows :=
    grows_tableDestroy.andThen
      (grows_tableDestroy.andThen (grows_tableDestroy.andThen grows_tableDestroy))
  have hproviders : (Step.undo (tableDestroy .providers)
      (tableInit malloc .providers desc.objects.length)).Grows :=
    grows_tableDestroy.undo (grows_tableInit _)
  exact hdestroy.undo (grows_acquire ((grows_tableInit _).andThen hproviders) _)

/-- When the buckets of a table of the bus cannot be allocated, the table is freed. -/
lemma busTail_freesTable (desc : BusDesc) (hno : ¬∀ k < 3, malloc (m.allocs + k)) :
    (busTail malloc desc).FreesTable m := by
  have hdestroy : apiDestroy.Grows :=
    grows_tableDestroy.andThen
      (grows_tableDestroy.andThen (grows_tableDestroy.andThen grows_tableDestroy))
  have hproviders : (Step.undo (tableDestroy .providers)
      (tableInit malloc .providers desc.objects.length)).Grows :=
    grows_tableDestroy.undo (grows_tableInit _)
  have hthree : ¬malloc m.allocs ∨ ¬malloc (m.allocs + 1) ∨ ¬malloc (m.allocs + 1 + 1) := by
    by_contra hall
    simp only [not_or, not_not] at hall
    refine hno fun k hk => ?_
    interval_cases k
    · exact hall.1
    · exact hall.2.1
    · exact hall.2.2
  refine .undo hdestroy (acquire_freesTable ((grows_tableInit _).andThen hproviders)
    (hthree.imp_right fun h => ?_))
  rcases h with h | h
  · exact .of_init hproviders (by rwa [tableInit_allocs])
  · refine .after_init (.undo grows_tableDestroy ⟨.providers, ?_⟩)
    rw [tableInit, if_neg (by rwa [tableInit_allocs, tableInit_allocs])]
    exact List.mem_append_right _ (List.mem_singleton_self _)

/-- With the buckets of its tables, `obus_bus_init` succeeds once the bus api is initialised. -/
lemma busTail_ok (desc : BusDesc) {held : TableId → Multiset ℕ} {keys : List (TableId × UInt32)}
    (h : m.Owns malloc apiTables.reverse held keys) (hinited : m.inited = apiTables)
    (hkeys : ∀ x ∈ keys, x.1 ∈ apiTables) (hbuckets : ∀ k < 3, malloc (m.allocs + k)) :
    ∃ m' held', busTail malloc desc m = (some (.ok ()), m') ∧
      m'.Owns malloc (.providers :: .calls :: .objects :: apiTables.reverse) held' keys := by
  have hfree : ∀ {t : TableId}, t ∉ apiTables → ∀ key, (t, key) ∉ keys :=
    fun ht key hmem => ht (hkeys _ hmem)
  obtain ⟨m₁, held₁, hinit₁, hallocs₁, hinited₁, h₁⟩ :=
    h.init (t := .objects) (by rw [hinited]; decide)
    (hfree (by decide)) busHashSize (hbuckets 0 (by decide))
  obtain ⟨m₂, held₂, hinit₂, hallocs₂, hinited₂, h₂⟩ :=
    h₁.init (t := .calls) (by rw [hinited₁, hinited]; decide)
    (hfree (by decide)) busHashSize (by rw [hallocs₁]; exact hbuckets 1 (by decide))
  obtain ⟨m₃, held₃, hinit₃, -, -, h₃⟩ :=
    h₂.init (t := .providers) (by rw [hinited₂, hinited₁, hinited]; decide)
    (hfree (by decide)) desc.objects.length
      (by rw [hallocs₂, hallocs₁]; exact hbuckets 2 (by decide))
  refine ⟨m₃, held₃, ?_, h₃⟩
  have hcalls : ((tableInit malloc .calls busHashSize).andThen <| Step.undo
      (tableDestroy .providers) <|
      tableInit malloc .providers desc.objects.length) m₁ = (some (.ok ()), m₃) := by
    rw [tableInit_andThen, hinit₂, Step.undo, hinit₃]
  rw [busTail, Step.undo, acquire_ok hinit₁ hcalls]

end Acquired

/-- `obus_bus_api_init` and `obus_bus_init` end as they should exactly if the buckets of their
tables can be allocated: every other allocation may fail. -/
theorem bus_init_sound (malloc : ℕ → Bool) (desc : BusDesc) :
    (Sound malloc apiTables (apiInit malloc desc {}) ↔ ApiBuckets malloc) ∧
      (Sound malloc busTables (busInit malloc desc {}) ↔ BusBuckets malloc desc) := by
  constructor
  · constructor
    · intro hsound
      by_contra hno
      exact (apiInit_freesTable desc hno).not_sound apiTables hsound
    · intro hbuckets
      rcases apiInit_cases desc hbuckets with ⟨-, -, m, held, hrun, -, -, h⟩ |
        ⟨-, e, m, held, keys, hrun, h⟩
      · rw [hrun]
        exact h.sound_of_ok fun t ht => List.mem_reverse.mpr ht
      · rw [hrun]
        exact h.sound_of_error apiTables e
  · rw [busInit_eq]
    constructor
    · intro hsound
      refine ⟨?_, fun hdistinct hall => ?_⟩
      · by_contra hno
        exact ((apiInit_freesTable desc hno).andThen (grows_busTail malloc desc)).not_sound
          busTables hsound
      · by_contra hno
        have hbuckets : ApiBuckets malloc := fun k hk => hall k (by omega)
        rcases apiInit_cases desc hbuckets with ⟨-, -, m, held, hrun, hallocs, -, -⟩ | ⟨hfail, -⟩
        · rw [← hallocs] at hno
          have hframe : ((apiInit malloc desc).andThen (busTail malloc desc)) {} =
              busTail malloc desc m := by
            rw [Step.andThen, hrun]
          rw [hframe] at hsound
          exact (busTail_freesTable desc hno).not_sound busTables hsound
        · exact hfail ⟨hdistinct, hall⟩
    · rintro ⟨hbuckets, hlater⟩
      rcases apiInit_cases desc hbuckets with
        ⟨hdistinct, hall, m, held, hrun, hallocs, hinited, h⟩ |
        ⟨-, e, m, held, keys, hrun, h⟩
      · have hthree : ∀ k < 3, malloc (m.allocs + k) := by
          rw [hallocs]
          exact hlater hdistinct hall
        have hkeys : ∀ x ∈ (elems desc).map pair, x.1 ∈ apiTables := by
          intro x hx
          obtain ⟨y, hy, rfl⟩ := List.mem_map.mp hx
          exact elems_table hy
        obtain ⟨m', held', hrest, h'⟩ := busTail_ok desc h hinited hkeys hthree
        rw [Step.andThen, hrun]
        dsimp only
        rw [hrest]
        exact h'.sound_of_ok fun t ht => by revert t; decide
      · rw [Step.andThen, hrun]
        exact h.sound_of_error busTables e

/-- A bus without objects and events. -/
def emptyDesc : BusDesc := ⟨CString.ofBytes [98, 117, 115], [], [], 77⟩

/-- When only the first allocation fails, both initialisations of an empty bus return 0, although
the first table has no buckets and was given to `free`. -/
theorem bus_init_not_sound :
    (busInit (· ≠ 0) emptyDesc {}).1 = some (.ok ()) ∧
      ((busInit (· ≠ 0) emptyDesc {}).2.tables .objDesc).buckets = none ∧
      (busInit (· ≠ 0) emptyDesc {}).2.freed = [.table .objDesc] ∧
      ¬Sound (· ≠ 0) apiTables (apiInit (· ≠ 0) emptyDesc {}) ∧
      ¬Sound (· ≠ 0) busTables (busInit (· ≠ 0) emptyDesc {}) := by
  have happi : (apiInit (· ≠ 0) emptyDesc {}).1 = some (.ok ()) ∧
      ((apiInit (· ≠ 0) emptyDesc {}).2.tables .objDesc).buckets = none := ⟨rfl, rfl⟩
  have hbus : (busInit (· ≠ 0) emptyDesc {}).1 = some (.ok ()) ∧
      ((busInit (· ≠ 0) emptyDesc {}).2.tables .objDesc).buckets = none := ⟨rfl, rfl⟩
  refine ⟨hbus.1, hbus.2, rfl, fun h => ?_, fun h => ?_⟩
  · exact h.usable happi.1 .objDesc (by decide) happi.2
  · exact h.usable hbus.1 .objDesc (by decide) hbus.2

end Obus.BusInit
