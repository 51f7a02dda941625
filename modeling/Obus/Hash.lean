import Obus.Buffer
import Obus.Lib.Chain
import Obus.Lib.Circle

/-!
# Hash tables

The hash table of `obus_hash.c` as it is in memory: an array of buckets, each the beginning of a
chain of entries that are linked by their member `next`, and the circular list `entries`, into which
every entry is linked as well.

A table refines a finite map that remembers in which order its keys were bound (`Hash.Refines`):
every operation returns what the map says and keeps the two structures as they should be
(`hash_refines`), whatever the keys and the size of the table are.

Allocations succeed, and an address is never used again.  A function without a result reads freed
memory, goes beyond the array of buckets or walks a chain for ever.
-/

namespace Obus

/-- `struct obus_hash_entry`; `data` and `const_data` share their memory. -/
structure HashEntry (δ : Type) where
  isConst : Bool
  data : δ
  key : UInt32
  next : Option ℕ

/-- The nodes of the list `entries`: its head and the entries. -/
inductive HashNode where
  | entries
  | entry (a : ℕ)
  deriving DecidableEq, Repr

/-- `struct obus_hash`, with the memory of its entries. -/
structure Hash (δ : Type) where
  buckets : List (Option ℕ)
  size : ℕ
  nodes : Links HashNode
  mem : ℕ → Option (HashEntry δ) := fun _ => none
  /-- The next address. -/
  fresh : ℕ := 0

/-- `hash_prime_tab`. -/
def hashPrimeTab : List ℕ :=
  [1, 2, 3, 7, 13, 31, 61, 127, 251, 509, 1021, 2039, 4093, 8191, 16381, 32749, 65521, 131071,
    262139, 524287, 1048573,
    2097143, 4194301, 8388593, 16777213, 33554393, 67108859, 134217689, 268435399, 536870909,
      1073741789, 2147483647]

/-- `MULT33`. -/
def mult33 (x : UInt32) : UInt32 := (x <<< 5) + x

/-- `obus_hash_32`. -/
def hash32 (key : UInt32) : UInt32 :=
  let hash := mult33 5381 + (key &&& 0xff)
  let key := key >>> 8
  let hash := mult33 hash + (key &&& 0xff)
  let key := key >>> 8
  let hash := mult33 hash + (key &&& 0xff)
  let key := key >>> 8
  mult33 hash + (key &&& 0xff)

/-- The loop of `obus_hash_init`: the first number of the table above the size, or the last one. -/
def upperPrime (size : ℕ) : List ℕ → ℕ
  | [] => 0
  | [p] => p
  | p :: q :: ps => if p ≤ size then upperPrime size (q :: ps) else p

section Functions

variable {δ : Type}

/-- `obus_hash_init`. -/
def hashInit (size : ℕ) : Hash δ where
  buckets := List.replicate (upperPrime size hashPrimeTab) none
  size := upperPrime size hashPrimeTab
  nodes := Links.unlinked.init .entries

/-- The index of the bucket of a key. -/
def Hash.slot (h : Hash δ) (key : UInt32) : ℕ := (hash32 key).toNat % h.size

/-- The loop over the chain of a key: the first entry with that key, and the entry before it. -/
def Hash.find (h : Hash δ) (key : UInt32) : Option (Option ℕ × Option (ℕ × HashEntry δ)) :=
  h.buckets[h.slot key]?.bind
    (Chain.find h.mem HashEntry.next (fun e => e.key = key) (h.fresh + 1) none)

/-- The memory of an entry is written, or freed. -/
def Hash.write (h : Hash δ) (a : ℕ) (e : Option (HashEntry δ)) : Hash δ :=
  { h with mem := Function.update h.mem a e }

/-- An entry becomes the first one of the bucket of a key, and the last one of the list `entries`.
-/
def Hash.link (h : Hash δ) (key : UInt32) (a : ℕ) (entry : HashEntry δ) : Hash δ :=
  { h.write a (some { entry with next := h.buckets[h.slot key]?.join }) with
    buckets := h.buckets.set (h.slot key) (some a)
    nodes := h.nodes.addBefore .entries (.entry a) }

/-- `obus_hash_insert_entry`, for an entry that was allocated. -/
def hashInsertEntry (key : UInt32) (a : ℕ) (entry : HashEntry δ) (h : Hash δ) :
    Option (Except Errno Unit × Hash δ) :=
  match h.find key with
  | none => none
  | some (_, some _) => some (.error .eexist, h)
  | some (_, none) => some (.ok (), h.link key a entry)

/-- The common shape of the two insertions: an entry that cannot be inserted is freed. -/
def hashInsertAs (isConst : Bool) (key : UInt32) (data : δ) (h : Hash δ) :
    Option (Except Errno Unit × Hash δ) :=
  let a := h.fresh
  let entry := ⟨isConst, data, key, none⟩
  match hashInsertEntry key a entry ({ h with fresh := a + 1 }.write a (some entry)) with
  | none => none
  | some (.ok (), h') => some (.ok (), h')
  | some (.error e, h') => some (.error e, h'.write a none)

/-- `obus_hash_insert`. -/
def hashInsert (key : UInt32) (data : δ) : Hash δ → Option (Except Errno Unit × Hash δ) :=
  hashInsertAs false key data

/-- `obus_hash_insert_const`. -/
def hashInsertConst (key : UInt32) (data : δ) : Hash δ → Option (Except Errno Unit × Hash δ) :=
  hashInsertAs true key data

/-- `obus_hash_lookup_entry`. -/
def hashLookupEntry (key : UInt32) (h : Hash δ) : Option (Except Errno (HashEntry δ)) :=
  match h.find key with
  | none => none
  | some (_, none) => some (.error .enoent)
  | some (_, some (_, e)) => some (.ok e)

/-- `obus_hash_lookup`. -/
def hashLookup (key : UInt32) (h : Hash δ) : Option (Except Errno δ) :=
  match hashLookupEntry key h with
  | none => none
  | some (.error e) => some (.error e)
  | some (.ok e) => if e.isConst then some (.error .eperm) else some (.ok e.data)

/-- `obus_hash_lookup_const`. -/
def hashLookupConst (key : UInt32) (h : Hash δ) : Option (Except Errno δ) :=
  match hashLookupEntry key h with
  | none => none
  | some (.error e) => some (.error e)
  | some (.ok e) => some (.ok e.data)

/-- `obus_hash_remove`: the bucket, or the entry before it, gets the pointer of the entry that is
removed. -/
def hashRemove (key : UInt32) (h : Hash δ) : Option (Except Errno Unit × Hash δ) :=
  match h.find key with
  | none => none
  | some (_, none) => some (.error .enoent, h)
  | some (none, some (a, e)) =>
    some (.ok (), { h with
      buckets := h.buckets.set (h.slot key) e.next
      nodes := h.nodes.del (.entry a) }.write a none)
  | some (some b, some (a, e)) =>
    match h.mem b with
    | none => none
    | some prev =>
      some (.ok (), ({ h with nodes := h.nodes.del (.entry a) }.write b
        (some { prev with next := e.next })).write a none)

/-- The loop of `obus_hash_destroy` over the buckets from an index on: the entries that it frees, in
order. -/
def Hash.releaseFrom (h : Hash δ) : ℕ → ℕ → (ℕ → Option (HashEntry δ)) → Option (List ℕ)
  | 0, _, _ => some []
  | n + 1, i, mem =>
    match h.buckets[i]? with
    | none => none
    | some p =>
      match Chain.release HashEntry.next (h.fresh + 1) mem p with
      | none => none
      | some (l, mem) => (releaseFrom h n (i + 1) mem).map (l ++ ·)

/-- `obus_hash_destroy`, up to the array of buckets: the entries that it frees.  The table and the
list `entries` are cleared in the end. -/
def hashDestroy (h : Hash δ) : Option (List ℕ) := h.releaseFrom h.size 0 h.mem

end Functions

/-! ## The finite map -/

/-- A key with what it is bound to. -/
structure Binding (δ : Type) where
  key : UInt32
  isConst : Bool
  data : δ

/-- The operations of a table. -/
inductive HashOp (δ : Type) where
  | insert (key : UInt32) (data : δ)
  | insertConst (key : UInt32) (data : δ)
  | remove (key : UInt32)
  | lookup (key : UInt32)
  | lookupConst (key : UInt32)

section Map

variable {δ : Type}

/-- The binding of a key. -/
def bound (bs : List (Binding δ)) (key : UInt32) : Option (Binding δ) :=
  bs.find? fun b => b.key = key

/-- What an operation does to a finite map, whose bindings are in the order in which they were made:
a key is bound once, and only a bound key is removed or found; a lookup does not return data that
must not be written. -/
def Binding.perform (bs : List (Binding δ)) : HashOp δ → Except Errno (Option δ) × List (Binding δ)
  | .insert key data =>
    match bound bs key with
    | some _ => (.error .eexist, bs)
    | none => (.ok none, bs ++ [⟨key, false, data⟩])
  | .insertConst key data =>
    match bound bs key with
    | some _ => (.error .eexist, bs)
    | none => (.ok none, bs ++ [⟨key, true, data⟩])
  | .remove key =>
    match bound bs key with
    | some _ => (.ok none, bs.filter fun b => b.key ≠ key)
    | none => (.error .enoent, bs)
  | .lookup key =>
    match bound bs key with
    | some b => (if b.isConst then .error .eperm else .ok (some b.data), bs)
    | none => (.error .enoent, bs)
  | .lookupConst key =>
    match bound bs key with
    | some b => (.ok (some b.data), bs)
    | none => (.error .enoent, bs)

/-- Perform operations on a finite map, with what they return. -/
def Binding.performs : List (HashOp δ) → List (Binding δ) →
    List (Except Errno (Option δ)) × List (Binding δ)
  | [], bs => ([], bs)
  | o :: os, bs =>
    let (r, bs) := perform bs o
    let (rs, bs) := performs os bs
    (r :: rs, bs)

/-- Perform an operation on a table. -/
def Hash.perform (h : Hash δ) : HashOp δ → Option (Except Errno (Option δ) × Hash δ)
  | .insert key data => (hashInsert key data h).map fun r => (r.1.map fun _ => none, r.2)
  | .insertConst key data => (hashInsertConst key data h).map fun r => (r.1.map fun _ => none, r.2)
  | .remove key => (hashRemove key h).map fun r => (r.1.map fun _ => none, r.2)
  | .lookup key => (hashLookup key h).map fun r => (r.map some, h)
  | .lookupConst key => (hashLookupConst key h).map fun r => (r.map some, h)

/-- Perform operations on a table, with what they return. -/
def Hash.performs : List (HashOp δ) → Hash δ → Option (List (Except Errno (Option δ)) × Hash δ)
  | [], h => some ([], h)
  | o :: os, h =>
    match h.perform o with
    | none => none
    | some (r, h) => (performs os h).map fun (rs, h) => (r :: rs, h)

/-- A binding as an entry has it. -/
def HashEntry.binding (e : HashEntry δ) : Binding δ := ⟨e.key, e.isConst, e.data⟩

/-- The binding that the entry at an address has, if there is one. -/
def Hash.binding (h : Hash δ) (a : ℕ) : Option (Binding δ) := (h.mem a).map HashEntry.binding

/-- A table stands for a finite map: the list `entries` has an entry for each binding, in the order
of the bindings and without repetition, and the bucket of each index has exactly the entries whose
keys have that index, each once. -/
structure Hash.Stands (h : Hash δ) (as : List ℕ) (bs : List (Binding δ)) : Prop where
  size : 0 < h.size
  buckets : h.buckets.length = h.size
  keys : (bs.map Binding.key).Nodup
  entries : IsCircle h.nodes .entries (as.map .entry)
  bindings : as.map h.binding = bs.map some
  chains : ∀ i < h.size, ∃ c, Chain h.mem HashEntry.next h.buckets[i]?.join c ∧ c.Nodup ∧
    ∀ a, a ∈ c ↔ a ∈ as ∧ ∃ b, h.binding a = some b ∧ h.slot b.key = i
  below : ∀ a ∈ as, a < h.fresh

/-- The bucket index of every key is that of a bucket, and some entries make the table stand for the
map. -/
def Hash.Refines (h : Hash δ) (bs : List (Binding δ)) : Prop :=
  (∀ key, h.slot key < h.size ∧ h.slot key < h.buckets.length) ∧ ∃ as, h.Stands as bs

end Map

/-! ## The refinement -/

section Refinement

variable {δ : Type} {h : Hash δ} {as : List ℕ} {bs : List (Binding δ)} {key : UInt32}

/-- The table of primes has no 0. -/
lemma upperPrime_pos (size : ℕ) : 0 < upperPrime size hashPrimeTab := by
  have hpos : ∀ ps : List ℕ, ps ≠ [] → (∀ p ∈ ps, 0 < p) → 0 < upperPrime size ps := by
    intro ps
    induction ps with
    | nil => exact fun hne _ => absurd rfl hne
    | cons p ps ih =>
      intro _ hps
      cases ps with
      | nil => exact hps p List.mem_cons_self
      | cons q ps =>
        rw [upperPrime]
        split
        · exact ih (List.cons_ne_nil q ps) fun r hr => hps r (List.mem_cons_of_mem p hr)
        · exact hps p List.mem_cons_self
  exact hpos hashPrimeTab (by decide) (by decide)

namespace Hash.Stands

lemma slot_lt (hs : h.Stands as bs) (key : UInt32) : h.slot key < h.size := Nat.mod_lt _ hs.size

lemma refines (hs : h.Stands as bs) : h.Refines bs :=
  ⟨fun key => ⟨hs.slot_lt key, hs.buckets ▸ hs.slot_lt key⟩, as, hs⟩

lemma nodup (hs : h.Stands as bs) : as.Nodup :=
  List.Nodup.of_map _ (List.nodup_cons.mp hs.entries.nodup).2

/-- A new table has no entries. -/
lemma init (size : ℕ) : (hashInit size : Hash δ).Stands [] [] where
  size := upperPrime_pos size
  buckets := List.length_replicate
  keys := List.nodup_nil
  entries := IsCircle.init
  bindings := rfl
  chains i hi := by
    refine ⟨[], ?_, List.nodup_nil, fun a => iff_of_false List.not_mem_nil fun h =>
      absurd h.1 List.not_mem_nil⟩
    rw [hashInit, List.getElem?_replicate]
    split <;> rfl
  below a ha := absurd ha List.not_mem_nil

/-- The entry of a member of the list. -/
lemma binding_of_mem (hs : h.Stands as bs) {a : ℕ} (ha : a ∈ as) :
    ∃ b ∈ bs, h.binding a = some b := by
  have hmem : h.binding a ∈ bs.map some := hs.bindings ▸ List.mem_map_of_mem ha
  obtain ⟨b, hb, heq⟩ := List.mem_map.mp hmem
  exact ⟨b, hb, heq.symm⟩

lemma exists_of_mem (hs : h.Stands as bs) {b : Binding δ} (hb : b ∈ bs) :
    ∃ a ∈ as, h.binding a = some b := by
  have hmem : some b ∈ as.map h.binding := hs.bindings ▸ List.mem_map_of_mem hb
  exact List.mem_map.mp hmem

/-- Two entries have different keys. -/
lemma key_inj (hs : h.Stands as bs) {a a' : ℕ} {b b' : Binding δ} (ha : a ∈ as) (ha' : a' ∈ as)
    (hb : h.binding a = some b) (hb' : h.binding a' = some b') (hkey : b.key = b'.key) :
    a = a' := by
  have hmap : as.map (fun a => (h.binding a).map Binding.key) = (bs.map Binding.key).map some := by
    have hcomp : (fun a => (h.binding a).map Binding.key) = Option.map Binding.key ∘ h.binding :=
      rfl
    rw [hcomp, ← List.map_map, hs.bindings, List.map_map, List.map_map]
    rfl
  have hnodup : (as.map fun a => (h.binding a).map Binding.key).Nodup := by
    rw [hmap]
    exact hs.keys.map (Option.some_injective _)
  refine List.inj_on_of_nodup_map hnodup ha ha' ?_
  simp only [hb, hb', Option.map_some, hkey]

/-- A table whose entries have not changed. -/
lemma congr {h' : Hash δ} (hs : h.Stands as bs) (hbuckets : h'.buckets = h.buckets)
    (hsize : h'.size = h.size)
    (hnodes : h'.nodes = h.nodes) (hmem : ∀ a ∈ as, h'.mem a = h.mem a)
    (hfresh : h.fresh ≤ h'.fresh) : h'.Stands as bs where
  size := hsize ▸ hs.size
  buckets := by rw [hbuckets, hsize, hs.buckets]
  keys := hs.keys
  entries := hnodes ▸ hs.entries
  bindings := by
    rw [← hs.bindings]
    exact List.map_congr_left fun a ha => by rw [binding, binding, hmem a ha]
  chains i hi := by
    obtain ⟨c, hchain, hnodup, hc⟩ := hs.chains i (hsize ▸ hi)
    refine ⟨c, ?_, hnodup, fun a => ?_⟩
    · rw [hbuckets]
      exact hchain.congr fun a ha => hmem a ((hc a).mp ha).1
    · rw [hc]
      refine and_congr_right fun ha => ?_
      simp only [binding, slot, hmem a ha, hsize]
  below a ha := lt_of_lt_of_le (hs.below a ha) hfresh

/-- The chain of a key, with a bound on the number of its entries. -/
lemma chain (hs : h.Stands as bs) (key : UInt32) :
    ∃ c, Chain h.mem HashEntry.next h.buckets[h.slot key]?.join c ∧ c.Nodup ∧
    c.length < h.fresh + 1 ∧
      ∀ a, a ∈ c ↔ a ∈ as ∧ ∃ b, h.binding a = some b ∧ h.slot b.key = h.slot key := by
  obtain ⟨c, hchain, hnodup, hc⟩ := hs.chains _ (hs.slot_lt key)
  refine ⟨c, hchain, hnodup, Nat.lt_succ_of_le ?_, hc⟩
  have hsub : c ⊆ List.range h.fresh := fun a ha => List.mem_range.mpr (hs.below a ((hc a).mp ha).1)
  simpa only [List.length_range] using (hnodup.subperm hsub).length_le

lemma find_eq (hs : h.Stands as bs) (key : UInt32) :
    h.find key = Chain.find h.mem HashEntry.next (fun e => e.key = key)
      (h.fresh + 1) none h.buckets[h.slot key]?.join := by
  have hlt : h.slot key < h.buckets.length := hs.buckets ▸ hs.slot_lt key
  rw [find, List.getElem?_eq_getElem hlt]
  rfl

lemma bound_mem {b : Binding δ} (hb : bound bs key = some b) : b ∈ bs ∧ b.key = key :=
  ⟨List.mem_of_find?_eq_some hb, by simpa using List.find?_some hb⟩

/-- A key that is not bound is not found. -/
lemma find_absent (hs : h.Stands as bs) (hkey : bound bs key = none) :
    ∃ prev, h.find key = some (prev, none) := by
  obtain ⟨c, hchain, -, hlength, hc⟩ := hs.chain key
  rw [hs.find_eq]
  refine ⟨_, hchain.find_none (fun a ha e he => ?_) hlength none⟩
  obtain ⟨b, hb, hab⟩ := hs.binding_of_mem ((hc a).mp ha).1
  have hne := List.find?_eq_none.mp hkey b hb
  rw [Hash.binding, he] at hab
  obtain rfl := Option.some.inj hab
  exact Bool.eq_false_iff.mpr hne

/-- A bound key is found, in the chain of its index. -/
lemma find_present (hs : h.Stands as bs) {b : Binding δ} (hkey : bound bs key = some b) :
    ∃ xs a ys e, Chain h.mem HashEntry.next h.buckets[h.slot key]?.join (xs ++ a :: ys) ∧
    (xs ++ a :: ys).Nodup ∧
      (∀ a', a' ∈ xs ++ a :: ys ↔ a' ∈ as ∧ ∃ b, h.binding a' = some b ∧
        h.slot b.key = h.slot key) ∧
      h.mem a = some e ∧ e.binding = b ∧ a ∈ as ∧
      h.find key = some (Chain.lastOr none xs, some (a, e)) := by
  obtain ⟨c, hchain, hnodup, hlength, hc⟩ := hs.chain key
  obtain ⟨hb, hbkey⟩ := bound_mem hkey
  obtain ⟨a, ha, hab⟩ := hs.exists_of_mem hb
  obtain ⟨e, he, rfl⟩ := Option.map_eq_some_iff.mp hab
  obtain ⟨xs, ys, rfl⟩ := List.append_of_mem ((hc a).mpr ⟨ha, _, hab, by rw [hbkey]⟩)
  refine ⟨xs, a, ys, e, hchain, hnodup, hc, he, rfl, ha, ?_⟩
  rw [hs.find_eq]
  refine hchain.find_some (fun x hx e' he' => ?_) he (decide_eq_true hbkey) (by
    rw [List.length_append] at hlength; omega) none
  have hxmem := ((hc x).mp (List.mem_append_left _ hx)).1
  have hxa : x ≠ a := by
    rintro rfl
    exact (List.nodup_append.mp hnodup).2.2 x hx x List.mem_cons_self rfl
  refine decide_eq_false fun hxkey => hxa ?_
  have hxb : h.binding x = some e'.binding := by rw [Hash.binding, he', Option.map_some]
  exact hs.key_inj hxmem ha hxb hab (hxkey.trans hbkey.symm)

/-- A table in which an entry was allocated that is in no list. -/
lemma alloc (hs : h.Stands as bs) (e : Option (HashEntry δ)) :
    ({ h with fresh := h.fresh + 1 }.write h.fresh e).Stands as bs :=
  hs.congr rfl rfl rfl (fun a ha => Function.update_of_ne (hs.below a ha).ne ..) (Nat.le_succ _)

/-- The insertion of a key that is bound. -/
lemma insert_present (hs : h.Stands as bs) (isConst : Bool) (data : δ) {b : Binding δ}
    (hkey : bound bs key = some b) :
    ∃ h', hashInsertAs isConst key data h = some (.error .eexist, h') ∧ h'.Stands as bs := by
  have hs₁ := hs.alloc (some ⟨isConst, data, key, none⟩)
  obtain ⟨xs, a, ys, e, -, -, -, -, -, -, hfind⟩ := hs₁.find_present hkey
  refine ⟨_, by rw [hashInsertAs, hashInsertEntry, hfind], ?_⟩
  exact hs₁.congr rfl rfl rfl (fun a ha => Function.update_of_ne (hs.below a ha).ne ..) le_rfl

/-- A linked entry has its binding, and the others keep theirs. -/
lemma binding_link (h : Hash δ) (key : UInt32) (a : ℕ) (entry : HashEntry δ) (a' : ℕ) :
    (h.link key a entry).binding a' = if a' = a then some entry.binding else h.binding a' := by
  have hmem : (h.link key a entry).mem =
      Function.update h.mem a (some { entry with next := h.buckets[h.slot key]?.join }) := rfl
  rw [Hash.binding, hmem]
  by_cases ha : a' = a
  · rw [if_pos ha, ha, Function.update_self]
    rfl
  · rw [if_neg ha, Function.update_of_ne ha]
    rfl

/-- Linking an entry for a key that is not bound. -/
lemma link (hs : h.Stands as bs) (hkey : bound bs key = none) {a : ℕ} (ha : a ∉ as)
    (hfresh : a < h.fresh) {entry : HashEntry δ} (hentry : entry.key = key) :
    (h.link key a entry).Stands (as ++ [a]) (bs ++ [entry.binding]) := by
  have hlt : h.slot key < h.buckets.length := hs.buckets ▸ hs.slot_lt key
  have hnew : (h.link key a entry).binding a = some entry.binding := by
    rw [binding_link, if_pos rfl]
  have hold : ∀ a' ∈ as, (h.link key a entry).binding a' = h.binding a' := by
    intro a' ha'
    have hne : a' ≠ a := fun heq => ha (heq ▸ ha')
    rw [binding_link, if_neg hne]
  refine
    { size := hs.size
      buckets := (List.length_set ..).trans hs.buckets
      keys := ?_
      entries := ?_
      bindings := ?_
      chains := fun i hi => ?_
      below := fun a' ha' => ?_ }
  · rw [List.map_append, List.nodup_append]
    refine ⟨hs.keys, List.nodup_singleton _, fun k hk k' hk' => ?_⟩
    obtain ⟨b, hb, rfl⟩ := List.mem_map.mp hk
    have hne := List.find?_eq_none.mp hkey b hb
    rw [List.mem_singleton.mp hk']
    change b.key ≠ entry.key
    rw [hentry]
    simpa using hne
  · rw [List.map_append]
    refine hs.entries.addBefore fun hmem => ?_
    rcases List.mem_cons.mp hmem with heq | hmem
    · cases heq
    · obtain ⟨a', ha', heq⟩ := List.mem_map.mp hmem
      cases heq
      exact ha ha'
  · rw [List.map_append, List.map_append, List.map_congr_left hold, hs.bindings,
      List.map_singleton, hnew]
    rfl
  · obtain ⟨c, hchain, hnodup, hc⟩ := hs.chains i hi
    have hac : a ∉ c := fun hmem => ha ((hc a).mp hmem).1
    have hchain' : Chain (h.link key a entry).mem HashEntry.next h.buckets[i]?.join c := by
      refine hchain.congr fun a' ha' => Function.update_of_ne ?_ ..
      rintro rfl
      exact hac ha'
    have hmem : ∀ a', a' ∈ as ∧ (∃ b, (h.link key a entry).binding a' = some b ∧ h.slot b.key = i) ↔
        a' ∈ c := by
      intro a'
      rw [hc]
      refine and_congr_right fun ha' => ?_
      rw [hold a' ha']
    by_cases hi' : i = h.slot key
    · subst hi'
      refine ⟨a :: c, ⟨?_, _, Function.update_self .., hchain'⟩, List.nodup_cons.mpr ⟨hac, hnodup⟩,
        fun a' => ?_⟩
      · change (h.buckets.set (h.slot key) (some a))[h.slot key]?.join = some a
        rw [List.getElem?_set_self hlt]
        rfl
      · rw [List.mem_cons, List.mem_append, List.mem_singleton, ← hmem]
        constructor
        · rintro (rfl | ⟨ha', hb⟩)
          · exact ⟨Or.inr rfl, _, hnew, congrArg h.slot hentry⟩
          · exact ⟨Or.inl ha', hb⟩
        · rintro ⟨ha' | rfl, hb⟩
          · exact Or.inr ⟨ha', hb⟩
          · exact Or.inl rfl
    · refine ⟨c, ?_, hnodup, fun a' => ?_⟩
      · change Chain _ _ (h.buckets.set (h.slot key) (some a))[i]?.join c
        rw [List.getElem?_set_ne (Ne.symm hi')]
        exact hchain'
      · rw [← hmem, List.mem_append, List.mem_singleton]
        constructor
        · exact fun ⟨ha', hb⟩ => ⟨Or.inl ha', hb⟩
        · rintro ⟨ha' | rfl, hb⟩
          · exact ⟨ha', hb⟩
          · obtain ⟨b, hb, hslot⟩ := hb
            rw [hnew] at hb
            cases hb
            have hslot : h.slot entry.key = i := hslot
            rw [hentry] at hslot
            exact absurd hslot.symm hi'
  · rcases List.mem_append.mp ha' with ha' | ha'
    · exact hs.below a' ha'
    · rw [List.mem_singleton.mp ha']
      exact hfresh

/-- The insertion of a key that is not bound. -/
lemma insert_absent (hs : h.Stands as bs) (isConst : Bool) (data : δ) (hkey : bound bs key = none) :
    ∃ h', hashInsertAs isConst key data h = some (.ok (), h') ∧
      h'.Stands (as ++ [h.fresh]) (bs ++ [⟨key, isConst, data⟩]) := by
  have hs₁ := hs.alloc (some ⟨isConst, data, key, none⟩)
  obtain ⟨prev, hfind⟩ := hs₁.find_absent hkey
  have hfresh : h.fresh ∉ as := fun hmem => lt_irrefl _ (hs.below _ hmem)
  refine ⟨_, by rw [hashInsertAs, hashInsertEntry, hfind], ?_⟩
  exact hs₁.link hkey hfresh (Nat.lt_succ_self _) rfl

/-- A table from which an entry was taken: it is in the list no more, its chain has lost it, and
nothing else has changed. -/
lemma removed {h' : Hash δ} (hs : h.Stands as bs) {a : ℕ} {b : Binding δ} {xs ys : List ℕ}
    (ha : a ∈ as) (hab : h.binding a = some b) (hnodup : (xs ++ a :: ys).Nodup)
    (hc : ∀ a', a' ∈ xs ++ a :: ys ↔ a' ∈ as ∧ ∃ b', h.binding a' = some b' ∧
      h.slot b'.key = h.slot b.key)
    (hsize : h'.size = h.size) (hlength : h'.buckets.length = h.buckets.length)
    (hnodes : h'.nodes = h.nodes.del (.entry a))
    (hfresh : h'.fresh = h.fresh) (hbinding : ∀ a' ∈ as, a' ≠ a → h'.binding a' = h.binding a')
    (hchain : Chain h'.mem HashEntry.next h'.buckets[h.slot b.key]?.join (xs ++ ys))
    (hother : ∀ i, i ≠ h.slot b.key → h'.buckets[i]? = h.buckets[i]?)
    (hmem : ∀ a', a' ∉ xs ++ a :: ys → h'.mem a' = h.mem a') :
    h'.Stands (as.erase a) (bs.filter fun b' => b'.key ≠ b.key) := by
  have hslot : ∀ k, h'.slot k = h.slot k := fun k => by rw [Hash.slot, Hash.slot, hsize]
  have hasnodup := hs.nodup
  have hlist : ∀ a', a' ∈ as.erase a ↔ a' ≠ a ∧ a' ∈ as := fun a' => hasnodup.mem_erase_iff
  have hmembers : ∀ i a', (a' ∈ as.erase a ∧ ∃ b', h'.binding a' = some b' ∧ h'.slot b'.key = i) ↔
      a' ≠ a ∧ a' ∈ as ∧ ∃ b', h.binding a' = some b' ∧ h.slot b'.key = i := by
    intro i a'
    rw [hlist, and_assoc]
    refine and_congr_right fun hne => and_congr_right fun ha' => ?_
    simp only [hbinding a' ha' hne, hslot]
  refine
    { size := hsize ▸ hs.size
      buckets := by rw [hlength, hsize, hs.buckets]
      keys := hs.keys.sublist (List.filter_sublist.map _)
      entries := ?_
      bindings := ?_
      chains := fun i hi => ?_
      below := fun a' ha' => hfresh ▸ hs.below a' ((hlist a').mp ha').2 }
  · have herase : (as.erase a).map HashNode.entry = (as.map HashNode.entry).erase (.entry a) :=
      List.map_erase (fun _ _ heq => HashNode.entry.inj heq) as
    rw [hnodes, herase]
    exact hs.entries.del (List.mem_map_of_mem ha)
  · have hkept : as.erase a = as.filter fun a' => (h.binding a').all fun b' => b'.key ≠ b.key := by
      rw [hasnodup.erase_eq_filter]
      refine List.filter_congr fun a' ha' => ?_
      obtain ⟨b', -, hb'⟩ := hs.binding_of_mem ha'
      rw [hb', Option.all_some]
      have hiff : a' ≠ a ↔ b'.key ≠ b.key := by
        refine not_congr ⟨?_, fun hkey => hs.key_inj ha' ha hb' hab hkey⟩
        rintro rfl
        rw [hab] at hb'
        rw [Option.some.inj hb']
      rw [Bool.eq_iff_iff, bne_iff_ne, decide_eq_true_iff]
      exact hiff
    have hsame : (as.erase a).map h'.binding = (as.erase a).map h.binding :=
      List.map_congr_left fun a' ha' => hbinding a' ((hlist a').mp ha').2 ((hlist a').mp ha').1
    have hfilter : (bs.filter fun b' => b'.key ≠ b.key).map some =
        (bs.map some).filter fun o => o.all fun b' => b'.key ≠ b.key := by
      rw [List.filter_map]
      rfl
    rw [hsame, hfilter, ← hs.bindings, List.filter_map, hkept]
    rfl
  · by_cases hi' : i = h.slot b.key
    · subst hi'
      have hperm : (xs ++ a :: ys).Perm (a :: (xs ++ ys)) := List.perm_middle
      obtain ⟨hnot, hrest⟩ := List.nodup_cons.mp (hperm.nodup_iff.mp hnodup)
      refine ⟨xs ++ ys, hchain, hrest, fun a' => ?_⟩
      rw [hmembers, ← hc, hperm.mem_iff, List.mem_cons]
      constructor
      · exact fun ha' => ⟨fun heq => hnot (heq ▸ ha'), Or.inr ha'⟩
      · exact fun ⟨hne, ha'⟩ => ha'.resolve_left hne
    · obtain ⟨c, hchain, hcnodup, hc'⟩ := hs.chains i (hsize ▸ hi)
      have hapart : ∀ a' ∈ c, a' ∉ xs ++ a :: ys := by
        intro a' ha' hmem'
        obtain ⟨-, b₁, hb₁, hslot₁⟩ := (hc' a').mp ha'
        obtain ⟨-, b₂, hb₂, hslot₂⟩ := (hc a').mp hmem'
        rw [hb₁] at hb₂
        cases hb₂
        exact hi' (hslot₁.symm.trans hslot₂)
      refine ⟨c, ?_, hcnodup, fun a' => ?_⟩
      · rw [hother i hi']
        exact hchain.congr fun a' ha' => hmem a' (hapart a' ha')
      · rw [hmembers, ← hc']
        refine ⟨fun ha' => ⟨?_, ha'⟩, And.right⟩
        rintro rfl
        exact hapart a' ha' (List.mem_append_right xs List.mem_cons_self)

/-- The removal of a key that is not bound. -/
lemma remove_absent (hs : h.Stands as bs) (hkey : bound bs key = none) :
    hashRemove key h = some (.error .enoent, h) := by
  obtain ⟨prev, hfind⟩ := hs.find_absent hkey
  cases prev <;> rw [hashRemove, hfind]

/-- The removal of a bound key. -/
lemma remove_present (hs : h.Stands as bs) {b : Binding δ} (hkey : bound bs key = some b) :
    ∃ h' as', hashRemove key h = some (.ok (), h') ∧
    h'.Stands as' (bs.filter fun b => b.key ≠ key) := by
  obtain ⟨xs, a, ys, e, hchain, hnodup, hc, he, rfl, ha, hfind⟩ := hs.find_present hkey
  have hekey : e.key = key := (bound_mem hkey).2
  have hab : h.binding a = some e.binding := by rw [Hash.binding, he, Option.map_some]
  have hlt : h.slot key < h.buckets.length := hs.buckets ▸ hs.slot_lt key
  have hperm : (xs ++ a :: ys).Perm (a :: (xs ++ ys)) := List.perm_middle
  have hrest : a ∉ xs ++ ys := (List.nodup_cons.mp (hperm.nodup_iff.mp hnodup)).1
  subst hekey
  have hfreed : ∀ (m : ℕ → Option (HashEntry δ)) {p : Option ℕ}, Chain m HashEntry.next p
      (xs ++ ys) →
      Chain (Function.update m a none) HashEntry.next p (xs ++ ys) := by
    intro m p hm
    refine hm.congr fun a' ha' => Function.update_of_ne ?_ ..
    rintro rfl
    exact hrest ha'
  rcases List.eq_nil_or_concat' xs with rfl | ⟨ws, w, rfl⟩
  · -- the first entry of its bucket
    refine ⟨_, as.erase a, by rw [hashRemove, hfind]; rfl, ?_⟩
    refine hs.removed ha hab hnodup hc rfl (List.length_set ..) rfl rfl (fun a' _ hne => ?_) ?_
      (fun i hi => ?_)
      fun a' ha' => ?_
    · exact congrArg (Option.map HashEntry.binding) (Function.update_of_ne hne ..)
    · change Chain _ _ (h.buckets.set (h.slot e.key) e.next)[h.slot e.key]?.join ys
      rw [List.getElem?_set_self hlt]
      exact hfreed h.mem (hchain.tail he)
    · exact List.getElem?_set_ne (Ne.symm hi)
    · refine Function.update_of_ne ?_ ..
      rintro rfl
      exact ha' List.mem_cons_self
  · -- behind another entry
    rw [List.append_assoc] at hchain hnodup
    obtain ⟨ew, hew⟩ := hchain.read_of_mem (a := w) (by simp)
    have hlast : Chain.lastOr none (ws ++ [w]) = some w := by
      rw [Chain.lastOr, List.getLast?_concat]
      rfl
    rw [hlast] at hfind
    refine ⟨_, as.erase a, by simp only [hashRemove, hfind, hew]; rfl, ?_⟩
    have hwa : w ≠ a := by
      rintro rfl
      exact hrest (by simp)
    have hnodup' : ((ws ++ [w]) ++ a :: ys).Nodup := by rwa [List.append_assoc]
    refine hs.removed ha hab hnodup' hc rfl rfl rfl rfl (fun a' _ hne => ?_) ?_
      (fun i hi => rfl) fun a' ha' => ?_
    · change (Function.update (Function.update h.mem w _) a none a').map HashEntry.binding = _
      rw [Function.update_of_ne hne]
      by_cases haw : a' = w
      · rw [haw, Function.update_self, Hash.binding, hew]
        rfl
      · rw [Function.update_of_ne haw]
        rfl
    · refine hfreed (Function.update h.mem w (some { ew with next := e.next })) ?_
      rw [List.append_assoc]
      exact hchain.unlink hnodup hew he rfl
    · change Function.update (Function.update h.mem w _) a none a' = _
      rw [Function.update_of_ne fun heq => ha' (by simp [heq]), Function.update_of_ne fun heq =>
        ha' (by simp [heq])]

lemma lookup_absent (hs : h.Stands as bs) (hkey : bound bs key = none) :
    hashLookupEntry key h = some (.error .enoent) := by
  obtain ⟨prev, hfind⟩ := hs.find_absent hkey
  rw [hashLookupEntry, hfind]

lemma lookup_present (hs : h.Stands as bs) {b : Binding δ} (hkey : bound bs key = some b) :
    ∃ e, hashLookupEntry key h = some (.ok e) ∧ e.binding = b := by
  obtain ⟨xs, a, ys, e, -, -, -, -, he, -, hfind⟩ := hs.find_present hkey
  exact ⟨e, by rw [hashLookupEntry, hfind], he⟩

/-- One operation returns what the finite map says, and keeps the table. -/
lemma perform (hs : h.Stands as bs) (o : HashOp δ) :
    ∃ h' as', h.perform o = some ((Binding.perform bs o).1, h') ∧
    h'.Stands as' (Binding.perform bs o).2 := by
  cases o with
  | insert key data =>
    cases hkey : bound bs key with
    | none =>
      obtain ⟨h', hrun, hs'⟩ := hs.insert_absent false data hkey
      refine ⟨h', _, ?_, by rw [Binding.perform, hkey]; exact hs'⟩
      rw [Hash.perform, hashInsert, hrun, Binding.perform, hkey]
      rfl
    | some b =>
      obtain ⟨h', hrun, hs'⟩ := hs.insert_present false data hkey
      refine ⟨h', as, ?_, by rw [Binding.perform, hkey]; exact hs'⟩
      rw [Hash.perform, hashInsert, hrun, Binding.perform, hkey]
      rfl
  | insertConst key data =>
    cases hkey : bound bs key with
    | none =>
      obtain ⟨h', hrun, hs'⟩ := hs.insert_absent true data hkey
      refine ⟨h', _, ?_, by rw [Binding.perform, hkey]; exact hs'⟩
      rw [Hash.perform, hashInsertConst, hrun, Binding.perform, hkey]
      rfl
    | some b =>
      obtain ⟨h', hrun, hs'⟩ := hs.insert_present true data hkey
      refine ⟨h', as, ?_, by rw [Binding.perform, hkey]; exact hs'⟩
      rw [Hash.perform, hashInsertConst, hrun, Binding.perform, hkey]
      rfl
  | remove key =>
    cases hkey : bound bs key with
    | none =>
      refine ⟨h, as, ?_, by rw [Binding.perform, hkey]; exact hs⟩
      rw [Hash.perform, hs.remove_absent hkey, Binding.perform, hkey]
      rfl
    | some b =>
      obtain ⟨h', as', hrun, hs'⟩ := hs.remove_present hkey
      refine ⟨h', as', ?_, by rw [Binding.perform, hkey]; exact hs'⟩
      rw [Hash.perform, hrun, Binding.perform, hkey]
      rfl
  | lookup key =>
    cases hkey : bound bs key with
    | none =>
      refine ⟨h, as, ?_, by rw [Binding.perform, hkey]; exact hs⟩
      rw [Hash.perform, hashLookup, hs.lookup_absent hkey, Binding.perform, hkey]
      rfl
    | some b =>
      obtain ⟨e, hrun, rfl⟩ := hs.lookup_present hkey
      refine ⟨h, as, ?_, by rw [Binding.perform, hkey]; exact hs⟩
      rw [Hash.perform, hashLookup, hrun, Binding.perform, hkey]
      cases hconst : e.isConst <;> simp [HashEntry.binding, hconst, Except.map]
  | lookupConst key =>
    cases hkey : bound bs key with
    | none =>
      refine ⟨h, as, ?_, by rw [Binding.perform, hkey]; exact hs⟩
      rw [Hash.perform, hashLookupConst, hs.lookup_absent hkey, Binding.perform, hkey]
      rfl
    | some b =>
      obtain ⟨e, hrun, rfl⟩ := hs.lookup_present hkey
      refine ⟨h, as, ?_, by rw [Binding.perform, hkey]; exact hs⟩
      rw [Hash.perform, hashLookupConst, hrun, Binding.perform, hkey]
      rfl

/-- The loop of the destruction frees the entries of the buckets that it visits, each once. -/
lemma releaseFrom (hs : h.Stands as bs) {n i : ℕ} (hn : i + n = h.size)
    {mem : ℕ → Option (HashEntry δ)}
    (hmem : ∀ a ∈ as, ∀ b, h.binding a = some b → i ≤ h.slot b.key → mem a = h.mem a) :
    ∃ l, h.releaseFrom n i mem = some l ∧ l.Nodup ∧
      ∀ a, a ∈ l ↔ a ∈ as ∧ ∃ b, h.binding a = some b ∧ i ≤ h.slot b.key := by
  induction n generalizing i mem with
  | zero =>
    refine ⟨[], rfl, List.nodup_nil, fun a => iff_of_false List.not_mem_nil ?_⟩
    rintro ⟨-, b, -, hb⟩
    have hlt := hs.slot_lt b.key
    omega
  | succ n ih =>
    have hi : i < h.buckets.length := by
      rw [hs.buckets]
      omega
    obtain ⟨c, hchain, hcnodup, hc⟩ := hs.chains i (hs.buckets ▸ hi)
    rw [List.getElem?_eq_getElem hi, Option.join_some] at hchain
    have hlength : c.length < h.fresh + 1 := by
      have hsub : c ⊆ List.range h.fresh :=
        fun a ha => List.mem_range.mpr (hs.below a ((hc a).mp ha).1)
      have hle := (hcnodup.subperm hsub).length_le
      rw [List.length_range] at hle
      exact Nat.lt_succ_of_le hle
    have hchain' : Chain mem HashEntry.next h.buckets[i] c := by
      refine hchain.congr fun a ha => ?_
      obtain ⟨hmem', b, hb, hslot⟩ := (hc a).mp ha
      exact hmem a hmem' b hb hslot.ge
    obtain ⟨mem', hrelease, hkept⟩ := hchain'.release_eq hcnodup hlength
    have hlater : ∀ a ∈ as, ∀ b, h.binding a = some b → i + 1 ≤ h.slot b.key → a ∉ c := by
      intro a _ b hb hslot hac
      obtain ⟨-, b', hb', hslot'⟩ := (hc a).mp hac
      rw [hb] at hb'
      cases hb'
      omega
    have hmem' : ∀ a ∈ as, ∀ b, h.binding a = some b → i + 1 ≤ h.slot b.key → mem' a = h.mem a := by
      intro a ha b hb hslot
      rw [hkept a (hlater a ha b hb hslot)]
      exact hmem a ha b hb (by omega)
    obtain ⟨l, hrest, hlnodup, hl⟩ := ih (by omega) hmem'
    refine ⟨c ++ l, ?_, List.nodup_append'.mpr ⟨hcnodup, hlnodup, fun a hac hal => ?_⟩, fun a => ?_⟩
    · rw [Hash.releaseFrom, List.getElem?_eq_getElem hi]
      simp only [hrelease, hrest]
      rfl
    · obtain ⟨ha, b, hb, hslot⟩ := (hl a).mp hal
      exact hlater a ha b hb hslot hac
    · rw [List.mem_append, hc, hl]
      constructor
      · rintro (⟨ha, b, hb, hslot⟩ | ⟨ha, b, hb, hslot⟩)
        · exact ⟨ha, b, hb, hslot.ge⟩
        · exact ⟨ha, b, hb, by omega⟩
      · rintro ⟨ha, b, hb, hslot⟩
        rcases Nat.eq_or_lt_of_le hslot with heq | hlt
        · exact Or.inl ⟨ha, b, hb, heq.symm⟩
        · exact Or.inr ⟨ha, b, hb, hlt⟩

/-- The destruction of a table frees its entries, each once. -/
lemma destroy (hs : h.Stands as bs) : ∃ l, hashDestroy h = some l ∧ l.Perm as := by
  obtain ⟨l, hrun, hlnodup, hl⟩ := hs.releaseFrom (Nat.zero_add h.size) fun _ _ _ _ _ => rfl
  refine ⟨l, hrun, (List.perm_ext_iff_of_nodup hlnodup hs.nodup).mpr fun a => ?_⟩
  rw [hl]
  refine and_iff_left_of_imp fun ha => ?_
  obtain ⟨b, -, hb⟩ := hs.binding_of_mem ha
  exact ⟨b, hb, Nat.zero_le _⟩

lemma performs (hs : h.Stands as bs) (os : List (HashOp δ)) :
    ∃ h' as', Hash.performs os h = some ((Binding.performs os bs).1, h') ∧
    h'.Stands as' (Binding.performs os bs).2 := by
  induction os generalizing h as bs with
  | nil => exact ⟨h, as, rfl, hs⟩
  | cons o os ih =>
    obtain ⟨h₁, as₁, hrun, hs₁⟩ := hs.perform o
    obtain ⟨h₂, as₂, hrest, hs₂⟩ := ih hs₁
    refine ⟨h₂, as₂, ?_, hs₂⟩
    rw [Hash.performs, hrun]
    simp only [hrest]
    rfl

end Hash.Stands

/-- An insertion uses one address, whether it succeeds or not. -/
lemma hashInsertAs_fresh {isConst : Bool} {data : δ} {r : Except Errno Unit} {h' : Hash δ}
    (hrun : hashInsertAs isConst key data h = some (r, h')) : h'.fresh = h.fresh + 1 := by
  unfold hashInsertAs hashInsertEntry at hrun
  cases hfind : ({ h with fresh := h.fresh + 1 }.write h.fresh
    (some ⟨isConst, data, key, none⟩)).find key with
  | none => simp only [hfind, reduceCtorEq] at hrun
  | some found =>
    obtain ⟨prev, e⟩ := found
    cases e <;> simp only [hfind, Option.some.injEq, Prod.mk.injEq] at hrun <;>
      rw [← hrun.2] <;> rfl

end Refinement

/-- A hash table of any size refines a finite map: in every sequence of operations each one returns
what the map says, and at the end the table stands for the map. -/
theorem hash_refines {δ : Type} (size : ℕ) (ops : List (HashOp δ)) :
    ∃ h, Hash.performs ops (hashInit size) = some ((Binding.performs ops []).1, h) ∧
      h.Refines (Binding.performs ops []).2 := by
  obtain ⟨h, as, hrun, hs⟩ := (Hash.Stands.init size).performs ops
  exact ⟨h, hrun, hs.refines⟩

/-- Two keys of one bucket. -/
example : (Hash.performs [.insert 1 'a', .insertConst 34 'b', .insert 1 'c', .lookup 34,
    .lookupConst 34, .remove 1,
    .lookup 1] (hashInit 0)).map Prod.fst =
    some [.ok none, .ok none, .error .eexist, .error .eperm, .ok (some 'b'), .ok none,
      .error .enoent] := by decide

end Obus
