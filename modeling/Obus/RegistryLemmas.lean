import Obus.Registry
import Obus.BusLemmas

/-!
# The tables of a bus agree

The lists of a bus and its tables say the same about its objects (`Registry.Tidy`): an object is in
the list of registered objects if its flag is set, and in the hash table under its handle if it
points to the bus.  Every function of a bus keeps this, wherever the lists of a bus event lead.
-/

namespace Obus

/-- The members of the lists of a bus, by their addresses. -/
structure Lists where
  objects : List ℕ := []
  calls : List ℕ := []
  providers : List (UInt16 × ℕ) := []
  received : ℕ → Option (List ℕ) := fun _ => none

namespace Lists

/-- An object is in the list of a packet. -/
def Waiting (l : Lists) (a : ℕ) : Prop := ∃ k as, l.received k = some as ∧ a ∈ as

/-- No list of a packet has members. -/
def Settled (l : Lists) : Prop := ∀ k as, l.received k = some as → as = []

lemma Settled.not_waiting {l : Lists} (h : l.Settled) {a : ℕ} : ¬ l.Waiting a := by
  rintro ⟨k, as, hk, ha⟩
  rw [h k as hk] at ha
  cases ha

/-- The lists of the nodes `node`, by their heads. -/
def contents (l : Lists) (hash : Table → List (UInt16 × ℕ)) : ListNode → Option (List ListNode)
  | .objects => some (l.objects.map .object)
  | .calls => some (l.calls.map .call)
  | .providers => some (l.providers.map fun p => .provider p.1 p.2)
  | .entries t => some ((hash t).map fun e => .entry t e.1)
  | .received k => (l.received k).map (List.map .object)
  | _ => none

variable {l : Lists} {hash : Table → List (UInt16 × ℕ)}

lemma contents_objects (os : List ℕ) : { l with objects := os }.contents hash =
    Function.update (l.contents hash) .objects (some (os.map .object)) := by
  funext n
  cases n <;> rfl

lemma contents_calls (cs : List ℕ) : { l with calls := cs }.contents hash =
    Function.update (l.contents hash) .calls (some (cs.map .call)) := by
  funext n
  cases n <;> rfl

lemma contents_providers (ps : List (UInt16 × ℕ)) : { l with providers := ps }.contents hash =
    Function.update (l.contents hash) .providers (some (ps.map fun p => .provider p.1 p.2)) := by
  funext n
  cases n <;> rfl

lemma contents_received (k : ℕ) (as : List ℕ) :
    { l with received := Function.update l.received k (some as) }.contents hash =
      Function.update (l.contents hash) (.received k) (some (as.map .object)) := by
  funext n
  cases n with
  | received j =>
    by_cases hj : j = k
    · subst hj
      simp [contents]
    · simp [contents, Function.update_of_ne, hj]
  | _ => rfl

lemma contents_hash (t : Table) (es : List (UInt16 × ℕ)) :
    l.contents (Function.update hash t es) =
      Function.update (l.contents hash) (.entries t) (some (es.map fun e => .entry t e.1)) := by
  funext n
  cases n with
  | entries s =>
    by_cases hs : s = t
    · subst hs
      simp [contents]
    · simp [contents, Function.update_of_ne, hs]
  | _ => rfl

lemma outside_object {a : ℕ} :
    Outside (l.contents hash) (.object a) ↔ a ∉ l.objects ∧ ∀ k as, l.received k = some as →
    a ∉ as := by
  constructor
  · intro h
    refine ⟨fun ha => h .objects _ rfl (by simp [ha]), fun k as hk ha => ?_⟩
    exact h (.received k) (as.map .object) (by simp [contents, hk]) (by simp [ha])
  · rintro ⟨hobjects, hreceived⟩ n xs hn hmem
    cases n with
    | received k =>
      obtain ⟨as, has, rfl⟩ := Option.map_eq_some_iff.mp hn
      simp only [List.mem_cons, reduceCtorEq, List.mem_map, ListNode.object.injEq, exists_eq_right,
        false_or] at hmem
      exact hreceived k as has hmem
    | _ => cases hn <;> simp_all

lemma outside_call {c : ℕ} : Outside (l.contents hash) (.call c) ↔ c ∉ l.calls := by
  constructor
  · exact fun h hc => h .calls _ rfl (by simp [hc])
  · intro hcalls n xs hn hmem
    cases n with
    | received k =>
      obtain ⟨as, has, rfl⟩ := Option.map_eq_some_iff.mp hn
      simp at hmem
    | _ => cases hn <;> simp_all

lemma outside_provider {uid : UInt16} {p : ℕ} :
    Outside (l.contents hash) (.provider uid p) ↔ (uid, p) ∉ l.providers := by
  constructor
  · exact fun h hp => h .providers _ rfl (by simpa using hp)
  · intro hproviders n xs hn hmem
    cases n with
    | received k =>
      obtain ⟨as, has, rfl⟩ := Option.map_eq_some_iff.mp hn
      simp at hmem
    | _ => cases hn <;> simp_all

lemma outside_entry {t : Table} {key : UInt16} :
    Outside (l.contents hash) (.entry t key) ↔ ∀ e ∈ hash t, e.1 ≠ key := by
  constructor
  · intro h e he hkey
    refine h (.entries t) _ rfl (List.mem_cons_of_mem _ (List.mem_map.mpr ⟨e, he, ?_⟩))
    rw [hkey]
  · intro hkeys n xs hn hmem
    cases n with
    | received k =>
      obtain ⟨as, has, rfl⟩ := Option.map_eq_some_iff.mp hn
      simp at hmem
    | entries s =>
      cases hn
      simp only [List.mem_cons, reduceCtorEq, List.mem_map, ListNode.entry.injEq, false_or] at hmem
      obtain ⟨e, he, rfl, hkey⟩ := hmem
      exact hkeys e he hkey
    | _ => cases hn <;> simp_all

lemma outside_received {k : ℕ} : Outside (l.contents hash) (.received k) ↔ l.received k = none := by
  constructor
  · intro h
    by_contra hne
    obtain ⟨as, has⟩ := Option.ne_none_iff_exists'.mp hne
    exact h (.received k) (as.map .object) (by simp [contents, has]) List.mem_cons_self
  · intro hnone n xs hn hmem
    cases n with
    | received j =>
      obtain ⟨as, has, rfl⟩ := Option.map_eq_some_iff.mp hn
      simp only [List.mem_cons, ListNode.received.injEq, List.mem_map, reduceCtorEq, and_false,
        exists_false,
        or_false] at hmem
      rw [← hmem, hnone] at has
      cases has
    | _ => cases hn <;> simp_all

end Lists

namespace Registry

variable {m m' : Registry} {l : Lists} {a c : ℕ} {t : Table} {key : UInt16}

/-- What the lists and the table of objects say about an address fits the object there: whether it
is listed, under which keys it is found, and whether it is in the list of a packet. -/
structure ObjectOk (listed : Prop) (keyed : UInt16 → Prop) (waiting : Prop) (x : Option ObjectMem) :
    Prop where
  listed_iff : listed ↔ ∃ o ∈ x, o.isRegistered = true
  keyed_iff : ∀ h, keyed h ↔ ∃ o ∈ x, o.bus = true ∧ o.handle = h
  onBus : ∀ o ∈ x, o.isRegistered = true → o.bus = true
  valid : ∀ o ∈ x, o.bus = true → o.handle ≠ 0 ∧ o.uid ≠ 0
  unregistered : waiting → ∃ o ∈ x, o.isRegistered = false

/-- The lists of a bus and its tables agree, and until a fault only members of lists were taken out
of lists.  What a fault leaves behind in the table of providers does not matter. -/
structure Tidy (m : Registry) (l : Lists) : Prop where
  circles : Circles m.nodes (l.contents m.hash)
  object : ∀ a, ObjectOk (a ∈ l.objects) (fun h => (h, a) ∈ m.hash .objects) (l.Waiting a)
    (m.objs a)
  fresh : ∀ a, m.fresh ≤ a → m.objs a = none ∧ l.received a = none ∧ a ∉ l.calls
  providers : m.fault = false → l.providers = m.hash .providers
  clean : m.fault = false → ∀ d ∈ m.dels, ∃ h xs, IsCircle d.1 h xs ∧ d.2 ∈ xs

namespace Tidy

/-- Only the pointers, the objects, the hash tables and the addresses in use matter. -/
lemma congr (h : Tidy m l) (hnodes : m'.nodes = m.nodes) (hobjs : m'.objs = m.objs)
    (hhash : m'.hash = m.hash)
    (hdels : m'.dels = m.dels) (hfresh : m.fresh ≤ m'.fresh)
    (hfault : m'.fault = false → m.fault = false) : Tidy m' l where
  circles := by rw [hnodes, hhash]; exact h.circles
  object := by rw [hobjs, hhash]; exact h.object
  fresh a ha := by rw [hobjs]; exact h.fresh a (hfresh.trans ha)
  providers hf := by rw [hhash]; exact h.providers (hfault hf)
  clean hf := by rw [hdels]; exact h.clean (hfault hf)

lemma crash (h : Tidy m l) : Tidy m.crash l := h.congr rfl rfl rfl rfl le_rfl nofun

/-- The keys of a hash table are different. -/
lemma keys_nodup (h : Tidy m l) (t : Table) : ((m.hash t).map Prod.fst).Nodup := by
  have hnodup := (List.nodup_cons.mp (h.circles.circle (.entries t) _ rfl).nodup).2
  have heq : (m.hash t).map (fun e => ListNode.entry t e.1) = ((m.hash t).map Prod.fst).map
      (.entry t) := by
    rw [List.map_map]
    rfl
  rw [heq] at hnodup
  exact hnodup.of_map _

/-- An object is found under its handle. -/
lemma lookup (h : Tidy m l) {e : UInt16 × ℕ} (he : e ∈ m.hash t) :
    m.hashLookup t e.1 = some e.2 := by
  rw [hashLookup, Option.map_eq_some_iff]
  have hsome : ((m.hash t).find? fun x => decide (x.1 = e.1)).isSome = true :=
    List.find?_isSome.mpr ⟨e, he, by simp⟩
  obtain ⟨x, hx⟩ := Option.isSome_iff_exists.mp hsome
  have hkey : x.1 = e.1 := by simpa using List.find?_some hx
  exact ⟨x,
    hx, by rw [List.inj_on_of_nodup_map (h.keys_nodup t) (List.mem_of_find?_eq_some hx) he hkey]⟩

end Tidy

lemma hashLookup_mem {x : ℕ} (h : m.hashLookup t key = some x) : (key, x) ∈ m.hash t := by
  obtain ⟨e, he, rfl⟩ := Option.map_eq_some_iff.mp h
  have hkey : e.1 = key := by simpa using List.find?_some he
  rw [← hkey]
  exact List.mem_of_find?_eq_some he

/-! ## What the primitive operations do -/

lemma live_of_fault {f : Registry → Registry} (hf : m.fault = true) : m.live f = m := if_pos hf

lemma live_of_running {f : Registry → Registry} (hf : m.fault = false) : m.live f = f m := by
  rw [live, hf]
  rfl

/-- Taking out a member of a list. -/
lemma del_of_mem {C : ListNode → Option (List ListNode)} (h : Circles m.nodes C)
    (hf : m.fault = false)
    {n k : ListNode} {xs : List ListNode} (hC : C k = some xs) (hn : n ∈ xs) :
    m.del n = { m with dels := (m.nodes, n) :: m.dels, nodes := m.nodes.del n } ∧
      Circles (m.nodes.del n) (Function.update C k (some (xs.erase n))) := by
  obtain ⟨⟨b, -, hb⟩, a, -, ha⟩ := (h.circle k xs hC).linked (List.mem_cons_of_mem k hn)
  refine ⟨?_, h.del hC hn⟩
  rw [del, live_of_running hf]
  simp only [ha, hb]
  rfl

/-- Taking out a node that is in no list. -/
lemma del_of_outside {C : ListNode → Option (List ListNode)} (h : Circles m.nodes C)
    (hf : m.fault = false)
    {n : ListNode} (hn : Outside C n) :
    m.del n = { m with dels := (m.nodes, n) :: m.dels, fault := true } := by
  rw [del, live_of_running hf]
  simp only [(h.unlinked n hn).1]
  rfl

lemma addBefore_of_outside {C : ListNode → Option (List ListNode)} (h : Circles m.nodes C)
    (hf : m.fault = false)
    {n k : ListNode} {xs : List ListNode} (hC : C k = some xs) (hn : Outside C n) :
    m.addBefore k n = { m with nodes := m.nodes.addBefore k n } ∧
      Circles (m.nodes.addBefore k n) (Function.update C k (some (xs ++ [n]))) := by
  obtain ⟨-, a, -, ha⟩ := (h.circle k xs hC).linked List.mem_cons_self
  refine ⟨?_, h.addBefore hC hn⟩
  rw [addBefore, live_of_running hf]
  simp only [ha]
  rfl

/-- An insertion fails, or it adds an entry under a key that was free. -/
lemma hashInsert_cases (h : Circles m.nodes (l.contents m.hash)) (alloc : Bool) (t : Table)
    (key : UInt16) (data : ℕ) : m.hashInsert alloc t key data = (false, m) ∨
      m.fault = false ∧ (∀ e ∈ m.hash t, e.1 ≠ key) ∧
        m.hashInsert alloc t key data = (true, { m with
          hash := Function.update m.hash t (m.hash t ++ [(key, data)])
          nodes := m.nodes.addBefore (.entries t) (.entry t key) }) ∧
        Circles (m.nodes.addBefore (.entries t) (.entry t key))
          (l.contents (Function.update m.hash t (m.hash t ++ [(key, data)]))) := by
  unfold hashInsert
  split
  · exact .inl rfl
  · next hguard =>
    simp only [Bool.or_eq_true, not_or, Bool.not_eq_true, List.any_eq_false,
      decide_eq_true_eq] at hguard
    obtain ⟨⟨hf, -⟩, hkeys⟩ := hguard
    obtain ⟨hadd, hcircles⟩ := addBefore_of_outside (k := .entries t)
      (m := { m with hash := Function.update m.hash t (m.hash t ++ [(key, data)]) }) h hf rfl
      (Lists.outside_entry.mpr hkeys)
    refine .inr ⟨hf, hkeys, congrArg (Prod.mk true) hadd, ?_⟩
    rw [Lists.contents_hash, List.map_append]
    exact hcircles

/-- A removal finds no entry, or it takes out the entry under the key. -/
lemma hashRemove_cases (h : Circles m.nodes (l.contents m.hash)) (t : Table) (key : UInt16) :
    m.hashRemove t key = (false, m) ∧ (m.fault = true ∨ ∀ e ∈ m.hash t, e.1 ≠ key) ∨
      m.fault = false ∧ (∃ e ∈ m.hash t, e.1 = key) ∧
        m.hashRemove t key = (true, { m with
          hash := Function.update m.hash t ((m.hash t).filter (·.1 ≠ key))
          nodes := m.nodes.del (.entry t key)
          dels := (m.nodes, .entry t key) :: m.dels }) ∧
        Circles (m.nodes.del (.entry t key))
          (l.contents (Function.update m.hash t ((m.hash t).filter (·.1 ≠ key)))) := by
  unfold hashRemove
  split
  · next hguard =>
    refine .inl ⟨rfl, ?_⟩
    simpa using hguard
  · next hguard =>
    simp only [Bool.or_eq_true, not_or, Bool.not_eq_true, Bool.not_eq_false', List.any_eq_true,
      decide_eq_true_eq] at hguard
    obtain ⟨hf, e, he, hkey⟩ := hguard
    have hmem : ListNode.entry t key ∈ (m.hash t).map fun e => ListNode.entry t e.1 :=
      List.mem_map.mpr ⟨e, he, by rw [hkey]⟩
    obtain ⟨hdel, hcircles⟩ := del_of_mem (k := .entries t)
      (m := { m with hash := Function.update m.hash t ((m.hash t).filter (·.1 ≠ key)) }) h
        hf rfl hmem
    refine .inr ⟨hf, ⟨e, he, hkey⟩, congrArg (Prod.mk true) hdel, ?_⟩
    rw [Lists.contents_hash]
    have hnodup := (List.nodup_cons.mp (h.circle (.entries t) _ rfl).nodup).2
    have heq : ((m.hash t).map fun e => ListNode.entry t e.1).erase (.entry t key) =
        ((m.hash t).filter (·.1 ≠ key)).map fun e => ListNode.entry t e.1 := by
      rw [hnodup.erase_eq_filter, List.filter_map]
      refine congrArg _ (List.filter_congr fun x _ => ?_)
      simp only [Function.comp_apply, bne, ne_eq, decide_not]
      congr 1
      rw [beq_eq_decide]
      exact decide_eq_decide.mpr ⟨fun heq => (ListNode.entry.inj heq).2, fun heq => heq ▸ rfl⟩
    rw [← heq]
    exact hcircles

/-! ## Objects -/

lemma crash_of_fault (hf : m.fault = true) : m.crash = m := by
  cases m
  simp_all [crash]

lemma setObj_of_running {o : ObjectMem} {f : ObjectMem → ObjectMem} (hf : m.fault = false)
    (ha : m.objs a = some o) :
    m.setObj a f = { m with objs := Function.update m.objs a (some (f o)) } := by
  rw [setObj, live_of_running hf]
  simp only [ha]

namespace Tidy

variable {o : ObjectMem}

lemma outside_of_fresh (h : Tidy m l) (ha : m.fresh ≤ a) :
    Outside (l.contents m.hash) (.object a) := by
  have hok := h.object a
  rw [(h.fresh a ha).1] at hok
  refine Lists.outside_object.mpr ⟨fun hmem => ?_, fun k as hk hmem => ?_⟩
  · obtain ⟨o, ho, -⟩ := hok.listed_iff.mp hmem
    cases ho
  · obtain ⟨o, ho, -⟩ := hok.unregistered ⟨k, as, hk, hmem⟩
    cases ho

/-- What stays true of the other objects when one changes. -/
lemma update_object (h : Tidy m l) {l' : Lists} {hash : Table → List (UInt16 × ℕ)}
    {x : Option ObjectMem}
    (hnew : ObjectOk (a ∈ l'.objects) (fun h => (h, a) ∈ hash .objects) (l'.Waiting a) x)
    (hlisted : ∀ b ≠ a, b ∈ l'.objects ↔ b ∈ l.objects)
    (hkeyed : ∀ b ≠ a, ∀ h, (h, b) ∈ hash .objects ↔ (h, b) ∈ m.hash .objects)
    (hwaiting : ∀ b, l'.Waiting b → l.Waiting b) (b : ℕ) :
    ObjectOk (b ∈ l'.objects) (fun h => (h, b) ∈ hash .objects) (l'.Waiting b)
      (Function.update m.objs a x b) := by
  by_cases hb : b = a
  · subst hb
    rw [Function.update_self]
    exact hnew
  · rw [Function.update_of_ne hb]
    have hok := h.object b
    refine ⟨(hlisted b hb).trans hok.listed_iff, fun k => (hkeyed b hb k).trans (hok.keyed_iff k),
      hok.onBus,
      hok.valid, fun hw => hok.unregistered (hwaiting b hw)⟩

/-- A changed object is none of those to come. -/
lemma update_fresh (h : Tidy m l) (ha : m.objs a = some o) (x : Option ObjectMem) (b : ℕ)
    (hb : m.fresh ≤ b) :
    Function.update m.objs a x b = none ∧ l.received b = none ∧ b ∉ l.calls := by
  obtain ⟨hobjs, hrest⟩ := h.fresh b hb
  have hne : b ≠ a := by
    rintro rfl
    rw [ha] at hobjs
    cases hobjs
  exact ⟨by rw [Function.update_of_ne hne, hobjs], hrest⟩

/-- A new object is in no list and in no table. -/
lemma objectNew (h : Tidy m l) (uid handle : UInt16) : Tidy (m.objectNew uid handle).2 l := by
  obtain ⟨hnext, hprev⟩ := h.circles.unlinked _ (h.outside_of_fresh le_rfl)
  have hok := h.object m.fresh
  rw [(h.fresh m.fresh le_rfl).1] at hok
  refine ⟨?_, h.update_object ⟨?_, fun k => ?_, ?_, ?_, fun hw => ?_⟩ (fun _ _ => Iff.rfl)
    (fun _ _ _ => Iff.rfl) (fun _ => id), fun b hb => ?_, h.providers, h.clean⟩
  · simp only [Registry.objectNew, Links.unref_eq_self hnext hprev]
    exact h.circles
  · rw [hok.listed_iff]
    simp
  · exact (hok.keyed_iff k).trans (by simp)
  · simp
  · simp
  · obtain ⟨o, ho, -⟩ := hok.unregistered hw
    cases ho
  · have hb' : m.fresh + 1 ≤ b := hb
    obtain ⟨hobjs, hrest⟩ := h.fresh b (by omega)
    exact ⟨(Function.update_of_ne (by omega) _ _).trans hobjs, hrest⟩

/-- Inserting an object fails and changes nothing, or the object gets its handle and its bus. -/
lemma busAddObject (h : Tidy m l) (hf : m.fault = false) (alloc : Bool) (draws : List UInt16)
    (ha : m.objs a = some o) : m.busAddObject alloc draws a = (false, m) ∨
      o.bus = false ∧ ∃ x nodes, m.busAddObject alloc draws a = (true, { m with
          objs := Function.update m.objs a (some { o with handle := x, bus := true })
          hash := Function.update m.hash .objects (m.hash .objects ++ [(x, a)])
          nodes := nodes }) ∧
        Tidy { m with
          objs := Function.update m.objs a (some { o with handle := x, bus := true })
          hash := Function.update m.hash .objects (m.hash .objects ++ [(x, a)])
          nodes := nodes } l := by
  have hok := h.object a
  rw [ha] at hok
  -- what an insertion under a free handle gives
  have hadded : ∀ x nodes, o.bus = false → x ≠ 0 → o.uid ≠ 0 →
      Circles nodes (l.contents (Function.update m.hash .objects (m.hash .objects ++ [(x, a)]))) →
      Tidy { m with
        objs := Function.update m.objs a (some { o with handle := x, bus := true })
        hash := Function.update m.hash .objects (m.hash .objects ++ [(x, a)])
        nodes := nodes } l := by
    intro x nodes hbus hx huid hcircles
    have hno : o.isRegistered = false := by
      by_contra hreg
      rw [hok.onBus o rfl (by simpa using hreg)] at hbus
      cases hbus
    refine ⟨hcircles, h.update_object ⟨?_, fun k => ?_, ?_, ?_, fun _ => ?_⟩ (fun _ _ => Iff.rfl)
      (fun b hb k => ?_) (fun _ => id), h.update_fresh ha _, fun hf => ?_, h.clean⟩
    · rw [hok.listed_iff]
      simp
    · have hold : (k, a) ∉ m.hash .objects := fun hmem => by
        obtain ⟨o', ho', hbus', -⟩ := (hok.keyed_iff k).mp hmem
        cases ho'
        rw [hbus] at hbus'
        cases hbus'
      simp [hold, eq_comm (a := k)]
    · simp
    · simp [hx, huid]
    · simp [hno]
    · simp [hb]
    · simp only [Function.update_of_ne (show Table.providers ≠ Table.objects by decide)]
      exact h.providers hf
  unfold Registry.busAddObject
  simp only [ha]
  split
  · exact .inl rfl
  · next huid =>
    split
    · next hzero =>
      -- an object on the bus has a handle
      have hbus : o.bus = false := by
        by_contra hbus
        exact (hok.valid o rfl (by simpa using hbus)).1 hzero
      split
      · exact .inl rfl
      · next x hdraw =>
        obtain ⟨hx, -⟩ := randHandle_spec hdraw
        have hset := setObj_of_running (f := fun o => { o with handle := x }) hf ha
        have hcircles : Circles (m.setObj a fun o => { o with handle := x }).nodes
            (l.contents (m.setObj a fun o => { o with handle := x }).hash) := by
          rw [hset]
          exact h.circles
        rcases hashInsert_cases hcircles alloc .objects x a with hfail | ⟨-, -, hins, hcircles⟩
        · left
          rw [hfail]
          have hback : Function.update (Function.update m.objs a (some { o with handle := x })) a
              (some { o with handle := 0 }) = m.objs := by
            rw [Function.update_idem, ← hzero, ← ha, Function.update_eq_self]
          simp only [hset]
          refine congrArg (Prod.mk false)
            ((setObj_of_running (by exact hf) (by exact Function.update_self ..)).trans ?_)
          simp only [hback]
        · right
          rw [hins]
          rw [hset] at hcircles ⊢
          refine ⟨hbus, x, _, ?_, hadded x _ hbus hx huid hcircles⟩
          refine congrArg (Prod.mk true)
            ((setObj_of_running (by exact hf) (by exact Function.update_self ..)).trans ?_)
          simp only [Function.update_idem]
    · next hzero =>
      rcases hashInsert_cases h.circles alloc .objects o.handle a with hfail |
        ⟨-, hkeys, hins, hcircles⟩
      · left
        rw [hfail]
      · right
        have hbus : o.bus = false := by
          by_contra hbus
          exact hkeys _ ((hok.keyed_iff o.handle).mpr ⟨o, rfl, by simpa using hbus, rfl⟩) rfl
        refine ⟨hbus, o.handle, _, ?_, hadded o.handle _ hbus hzero huid hcircles⟩
        rw [hins]
        exact congrArg (Prod.mk true) (setObj_of_running hf ha)

/-- Removing an object from its bus takes it out of the table. -/
lemma busRemoveObject (h : Tidy m l) (hf : m.fault = false) (ha : m.objs a = some o)
    (hreg : o.isRegistered = false) : ∃ hash nodes dels,
      m.busRemoveObject o.bus a = { m with
        objs := Function.update m.objs a (some { o with bus := false })
        hash := hash
        nodes := nodes
        dels := dels } ∧
      Tidy { m with
        objs := Function.update m.objs a (some { o with bus := false })
        hash := hash
        nodes := nodes
        dels := dels } l ∧
      hash = Function.update m.hash .objects ((m.hash .objects).filter (·.2 ≠ a)) := by
  have hok := h.object a
  rw [ha] at hok
  unfold Registry.busRemoveObject
  simp only [ha]
  cases hbus : o.bus with
  | false =>
    have hsame : Function.update m.objs a (some { o with bus := false }) = m.objs := by
      rw [← hbus, ← ha, Function.update_eq_self]
    refine ⟨m.hash, m.nodes, m.dels, ?_, ?_, ?_⟩
    · simp only [hsame]
      rfl
    · simp only [hsame]
      exact h
    · have hall : (m.hash .objects).filter (·.2 ≠ a) = m.hash .objects := by
        refine List.filter_eq_self.mpr fun e he => ?_
        rw [decide_eq_true_eq]
        rintro rfl
        obtain ⟨o', ho', hbus', -⟩ := (hok.keyed_iff e.1).mp he
        cases ho'
        rw [hbus] at hbus'
        cases hbus'
      rw [hall, Function.update_eq_self]
  | true =>
    have huid : ¬ o.uid = 0 := (hok.valid o rfl hbus).2
    have hmem : (o.handle, a) ∈ m.hash .objects := (hok.keyed_iff _).mpr ⟨o, rfl, hbus, rfl⟩
    simp only [Bool.not_true, Bool.false_or, huid, decide_false, Bool.false_eq_true, if_false]
    rcases hashRemove_cases h.circles .objects o.handle with ⟨-, hnone⟩ | ⟨-, -, hrem, hcircles⟩
    · rcases hnone with hfault | hnone
      · rw [hf] at hfault
        cases hfault
      · exact absurd rfl (hnone _ hmem)
    · refine ⟨Function.update m.hash .objects ((m.hash .objects).filter (·.1 ≠ o.handle)),
        m.nodes.del (.entry .objects o.handle), (m.nodes, .entry .objects o.handle) :: m.dels, ?_,
        ⟨hcircles, h.update_object ⟨?_, fun k => ?_, ?_, ?_, fun _ => ?_⟩ (fun _ _ => Iff.rfl)
          (fun b hb k => ?_)
          (fun _ => id), h.update_fresh ha _, fun hf => ?_, fun hf d hd => ?_⟩, ?_⟩
      · simp only [hrem]
        exact setObj_of_running (by exact hf) (by exact ha)
      · rw [hok.listed_iff]
        simp
      · simp only [Function.update_self, List.mem_filter, hok.keyed_iff]
        simp +contextual [eq_comm (a := k)]
      · simp [hreg]
      · simp
      · simp [hreg]
      · simp only [Function.update_self, List.mem_filter, and_iff_left_iff_imp, decide_eq_true_eq]
        rintro hmem' rfl
        have hsame := (h.lookup (e := (o.handle, b)) hmem').symm.trans
          (h.lookup (e := (o.handle, a)) hmem)
        exact hb (Option.some.inj hsame)
      · simp only [Function.update_of_ne (show Table.providers ≠ Table.objects by decide)]
        exact h.providers hf
      · rcases List.mem_cons.mp hd with rfl | hd
        · exact ⟨_, _, h.circles.circle (.entries .objects) _ rfl, List.mem_map.mpr ⟨_, hmem, rfl⟩⟩
        · exact h.clean hf d hd
      · -- the entry of the object is the only one under its handle
        refine congrArg _ (List.filter_congr fun e he => ?_)
        rw [Bool.eq_iff_iff, decide_eq_true_eq, decide_eq_true_eq, not_iff_not]
        constructor
        · intro hkey
          exact Option.some.inj ((h.lookup he).symm.trans
            ((congrArg (m.hashLookup .objects) hkey).trans
            (h.lookup (e := (o.handle, a)) hmem)))
        · rintro rfl
          obtain ⟨o', ho', -, hhandle⟩ := (hok.keyed_iff e.1).mp he
          cases ho'
          exact hhandle.symm

/-- Registering an object adds it to the list. -/
lemma busRegisterObject (h : Tidy m l) (hf : m.fault = false) (ha : m.objs a = some o)
    (hreg : o.isRegistered = false) (hbus : o.bus = true) (hwait : ¬ l.Waiting a) : ∃ nodes,
      m.busRegisterObject a = { m with
        objs := Function.update m.objs a (some { o with isRegistered := true })
        nodes := nodes } ∧
      Tidy { m with
        objs := Function.update m.objs a (some { o with isRegistered := true })
        nodes := nodes } { l with objects := l.objects ++ [a] } := by
  have hok := h.object a
  rw [ha] at hok
  have hout : Outside (l.contents m.hash) (.object a) := by
    refine Lists.outside_object.mpr ⟨fun hmem => ?_, fun k as hk hmem => hwait ⟨k, as, hk, hmem⟩⟩
    obtain ⟨o', ho', hreg'⟩ := hok.listed_iff.mp hmem
    cases ho'
    rw [hreg] at hreg'
    cases hreg'
  have hset := setObj_of_running (f := fun o => { o with isRegistered := true }) hf ha
  obtain ⟨hadd, hcircles⟩ := addBefore_of_outside (k := .objects)
    (m := { m with objs := Function.update m.objs a (some { o with isRegistered := true }) })
      h.circles hf rfl hout
  refine ⟨m.nodes.addBefore .objects (.object a), ?_,
    ⟨?_, h.update_object ⟨?_, fun k => ?_, ?_, ?_, fun hw => ?_⟩
    (fun b hb => ?_) (fun _ _ _ => Iff.rfl) (fun _ => id), h.update_fresh ha _,
      h.providers, h.clean⟩⟩
  · rw [Registry.busRegisterObject, hset, hadd]
  · rw [Lists.contents_objects, List.map_append]
    exact hcircles
  · simp
  · exact (hok.keyed_iff k).trans (by simp)
  · simp [hbus]
  · simpa using hok.valid o rfl
  · exact absurd hw hwait
  · simp [hb]

/-- Unregistering a registered object takes it out of the list. -/
lemma busUnregisterObject (h : Tidy m l) (hf : m.fault = false) (ha : m.objs a = some o)
    (hreg : o.isRegistered = true) : ∃ nodes dels,
      m.busUnregisterObject a = { m with
        objs := Function.update m.objs a (some { o with isRegistered := false })
        nodes := nodes
        dels := dels } ∧
      Tidy { m with
        objs := Function.update m.objs a (some { o with isRegistered := false })
        nodes := nodes
        dels := dels } { l with objects := l.objects.erase a } := by
  have hok := h.object a
  rw [ha] at hok
  have hmem : a ∈ l.objects := hok.listed_iff.mpr ⟨o, rfl, hreg⟩
  have hmem' : ListNode.object a ∈ l.objects.map .object := List.mem_map_of_mem hmem
  have hnodup : l.objects.Nodup :=
    ((List.nodup_cons.mp (h.circles.circle .objects _ rfl).nodup).2).of_map _
  have hset := setObj_of_running (f := fun o => { o with isRegistered := false }) hf ha
  obtain ⟨hdel, hcircles⟩ := del_of_mem (k := .objects)
    (m := { m with objs := Function.update m.objs a (some { o with isRegistered := false }) })
      h.circles hf rfl hmem'
  refine ⟨m.nodes.del (.object a), (m.nodes, .object a) :: m.dels, ?_, ⟨?_, h.update_object
    ⟨?_, fun k => ?_, ?_, ?_, fun _ => ?_⟩ (fun b hb => ?_) (fun _ _ _ => Iff.rfl) (fun _ => id),
    h.update_fresh ha _, h.providers, fun hf d hd => ?_⟩⟩
  · rw [Registry.busUnregisterObject, hset, hdel]
  · rw [Lists.contents_objects, List.map_erase (fun _ _ => ListNode.object.inj)]
    exact hcircles
  · simpa using hnodup.not_mem_erase
  · exact (hok.keyed_iff k).trans (by simp)
  · simp
  · simpa using hok.valid o rfl
  · simp
  · exact List.mem_erase_of_ne hb
  · rcases List.mem_cons.mp hd with rfl | hd
    · exact ⟨_, _, h.circles.circle .objects _ rfl, hmem'⟩
    · exact h.clean hf d hd

/-- Unregistering an object that is not registered is a fault. -/
lemma busUnregisterObject_fault (h : Tidy m l) (hf : m.fault = false) (ha : m.objs a = some o)
    (hreg : o.isRegistered = false) (hwait : ¬ l.Waiting a) :
    m.busUnregisterObject a = { m with dels := (m.nodes, .object a) :: m.dels, fault := true } := by
  have hok := h.object a
  rw [ha] at hok
  have hout : Outside (l.contents m.hash) (.object a) := by
    refine Lists.outside_object.mpr ⟨fun hmem => ?_, fun k as hk hmem => hwait ⟨k, as, hk, hmem⟩⟩
    obtain ⟨o', ho', hreg'⟩ := hok.listed_iff.mp hmem
    cases ho'
    rw [hreg] at hreg'
    cases hreg'
  have hsame : Function.update m.objs a (some { o with isRegistered := false }) = m.objs := by
    rw [← hreg, ← ha, Function.update_eq_self]
  rw [Registry.busUnregisterObject, setObj_of_running hf ha, hsame]
  exact del_of_outside (m := m) h.circles hf hout

/-- Registering a call fails and changes nothing, or the call gets a handle that is free. -/
lemma busRegisterCall (h : Tidy m l) (hf : m.fault = false) (alloc : Bool) (draws : List UInt16)
    {call : CallMem}
    (hc : m.calls c = some call) (hzero : call.handle = 0) (hnew : c ∉ l.calls)
    (hlt : c < m.fresh) :
    m.busRegisterCall alloc draws c = (false, m) ∨ ∃ x nodes, x ≠ 0 ∧
    (∀ e ∈ m.hash .calls, e.1 ≠ x) ∧
      m.busRegisterCall alloc draws c = (true, { m with
        calls := Function.update m.calls c (some { call with handle := x })
        hash := Function.update m.hash .calls (m.hash .calls ++ [(x, c)])
        nodes := nodes }) ∧
      Tidy { m with
        calls := Function.update m.calls c (some { call with handle := x })
        hash := Function.update m.hash .calls (m.hash .calls ++ [(x, c)])
        nodes := nodes } { l with calls := l.calls ++ [c] } := by
  unfold Registry.busRegisterCall
  simp only [hc]
  split
  · exact .inl rfl
  · next x hdraw =>
    obtain ⟨hx, -⟩ := randHandle_spec hdraw
    rcases hashInsert_cases
      (m := { m with calls := Function.update m.calls c (some { call with handle := x }) })
      h.circles alloc .calls x c with hno | ⟨-, hkeys, hins, hcircles⟩
    · left
      rw [hno]
      have hback : Function.update (Function.update m.calls c (some { call with handle := x })) c
          (some { call with handle := 0 }) = m.calls := by
        rw [Function.update_idem, ← hzero, ← hc, Function.update_eq_self]
      simp only [hback]
    · right
      obtain ⟨hadd, hcircles'⟩ := addBefore_of_outside (m := { m with
        calls := Function.update m.calls c (some { call with handle := x })
        hash := Function.update m.hash .calls (m.hash .calls ++ [(x, c)])
        nodes := m.nodes.addBefore (.entries .calls) (.entry .calls x) })
          (k := .calls) hcircles hf rfl
        (Lists.outside_call.mpr hnew)
      refine ⟨x, (m.nodes.addBefore (.entries .calls) (.entry .calls x)).addBefore .calls (.call c),
        hx, hkeys, ?_,
        ⟨?_, ?_, fun a ha => ?_, fun hf => ?_, h.clean⟩⟩
      · rw [hins]
        exact congrArg (Prod.mk true) hadd
      · rw [Lists.contents_calls, List.map_append]
        exact hcircles'
      · simp only [Function.update_of_ne (show Table.objects ≠ Table.calls by decide)]
        exact h.object
      · obtain ⟨hobjs, hreceived, hcalls⟩ := h.fresh a ha
        refine ⟨hobjs, hreceived, fun hmem => ?_⟩
        rcases List.mem_append.mp hmem with hmem | hmem
        · exact hcalls hmem
        · have ha' : m.fresh ≤ a := ha
          have := List.mem_singleton.mp hmem
          omega
      · simp only [Function.update_of_ne (show Table.providers ≠ Table.calls by decide)]
        exact h.providers hf

/-- An object that is not registered can go. -/
lemma forget (h : Tidy m l) (ha : m.objs a = some o) (hreg : o.isRegistered = false)
    (hbus : o.bus = false)
    (hwait : ¬ l.Waiting a) : Tidy { m with objs := Function.update m.objs a none } l := by
  have hok := h.object a
  rw [ha] at hok
  refine ⟨h.circles, h.update_object ⟨?_, fun k => ?_, nofun, nofun, fun hw => absurd hw hwait⟩
    (fun _ _ => Iff.rfl) (fun _ _ _ => Iff.rfl) (fun _ => id), h.update_fresh ha _,
      h.providers, h.clean⟩
  · rw [hok.listed_iff]
    simp [hreg]
  · exact (hok.keyed_iff k).trans (by simp [hbus])

end Tidy

/-! ## After a fault -/

section Fault

variable (hf : m.fault = true)
include hf

lemma setObj_of_fault {f : ObjectMem → ObjectMem} : m.setObj a f = m := live_of_fault hf

lemma hashInsert_of_fault {alloc : Bool} {data : ℕ} : m.hashInsert alloc t key data = (false, m) :=
  if_pos (by rw [hf]; rfl)

lemma hashRemove_of_fault : m.hashRemove t key = (false, m) := if_pos (by rw [hf]; rfl)

lemma busAddObject_of_fault {alloc : Bool} {draws : List UInt16} :
    m.busAddObject alloc draws a = (false, m) := by
  unfold busAddObject
  split
  · rw [crash_of_fault hf]
  · split
    · rfl
    · split
      · split
        · rfl
        · simp only [setObj_of_fault hf, hashInsert_of_fault hf]
      · simp only [hashInsert_of_fault hf]

lemma busRemoveObject_of_fault {b : Bool} : m.busRemoveObject b a = m := by
  unfold busRemoveObject
  split
  · rw [crash_of_fault hf]
  · split
    · rfl
    · simp only [hashRemove_of_fault hf]

lemma busRegisterObject_of_fault : m.busRegisterObject a = m := by
  rw [busRegisterObject, setObj_of_fault hf]
  exact live_of_fault hf

lemma busUnregisterObject_of_fault : m.busUnregisterObject a = m := by
  rw [busUnregisterObject, setObj_of_fault hf]
  exact live_of_fault hf

lemma objectDestroy_of_fault : m.objectDestroy a = m := by
  unfold objectDestroy
  split
  · rw [crash_of_fault hf]
  · split
    · rfl
    · have hdel : m.eventDel (.object a) = m := live_of_fault hf
      simp only [busRemoveObject_of_fault hf, hdel, ite_self]
      exact live_of_fault hf

end Fault

/-! ## What does not touch the tables -/

/-- Taking a node out of a list of a bus event changes nothing else. -/
lemma eventDel_frame (n : EventNode) (m : Registry) : ∃ links ds f,
    m.eventDel n = { m with eventNodes := links, eventDels := ds, fault := f } ∧
    (f = false → m.fault = false) := by
  unfold eventDel live
  split
  · exact ⟨m.eventNodes, m.eventDels, m.fault, rfl, id⟩
  · next hf =>
    have hf' : m.fault = false := by simpa using hf
    simp only
    split
    · exact ⟨m.eventNodes, _, true, rfl, fun _ => hf'⟩
    · exact ⟨_, _, m.fault, rfl, id⟩

lemma eventAddBefore_frame (h n : EventNode) (m : Registry) : ∃ links f,
    m.eventAddBefore h n = { m with eventNodes := links, fault := f } ∧
    (f = false → m.fault = false) := by
  unfold eventAddBefore live
  split
  · exact ⟨m.eventNodes, m.fault, rfl, id⟩
  · next hf =>
    have hf' : m.fault = false := by simpa using hf
    simp only
    split
    · exact ⟨m.eventNodes, true, rfl, fun _ => hf'⟩
    · exact ⟨_, m.fault, rfl, id⟩

/-! ## What the invariant says -/

/-- The three ways to know the objects of a bus agree: an object is in the list of registered
objects, once, if its flag is set, and then in the hash table; the entries of the hash table have
the handles of their objects as keys, which are different and not zero; a lookup gives the object
with the handle; and an object that is not in the hash table has no bus. -/
structure Consistent (m : Registry) : Prop where
  listed : ∃ as : List ℕ, IsCircle m.nodes .objects (as.map .object) ∧ as.Nodup ∧
    ∀ a, a ∈ as ↔ ∃ o, m.objs a = some o ∧ o.isRegistered = true
  hashed : ∀ a o, m.objs a = some o → o.isRegistered = true → (o.handle, a) ∈ m.hash .objects
  keys : ∀ e ∈ m.hash .objects, e.1 ≠ 0 ∧ ∃ o, m.objs e.2 = some o ∧ o.handle = e.1
  distinct : ((m.hash .objects).map Prod.fst).Nodup
  lookup : ∀ h a, m.busObject h = some a ↔ (h, a) ∈ m.hash .objects
  apart : ∀ a o, m.objs a = some o → (∀ h, (h, a) ∉ m.hash .objects) → o.bus = false

lemma Tidy.consistent (h : Tidy m l) : m.Consistent where
  listed := ⟨l.objects, h.circles.circle .objects _ rfl,
    (List.nodup_cons.mp (h.circles.circle .objects _ rfl).nodup).2.of_map _,
      fun a => (h.object a).listed_iff⟩
  hashed a o ha hreg := (h.object a).keyed_iff _ |>.mpr ⟨o, ha, (h.object a).onBus o ha hreg, rfl⟩
  keys e he := by
    obtain ⟨o, ho, hbus, hhandle⟩ := (h.object e.2).keyed_iff _ |>.mp he
    refine ⟨?_, o, ho, hhandle⟩
    rw [← hhandle]
    exact ((h.object e.2).valid o ho hbus).1
  distinct := h.keys_nodup .objects
  lookup x a := by
    constructor
    · intro hfound
      unfold busObject at hfound
      split at hfound
      · cases hfound
      · exact hashLookup_mem hfound
    · intro hmem
      obtain ⟨o, ho, hbus, rfl⟩ := (h.object a).keyed_iff _ |>.mp hmem
      rw [busObject, if_neg ((h.object a).valid o ho hbus).1]
      exact h.lookup (e := (o.handle, a)) hmem
  apart a o ha hnone := by
    by_contra hbus
    exact hnone o.handle ((h.object a).keyed_iff _ |>.mpr ⟨o, ha, by simpa using hbus, rfl⟩)

/-- A new bus is empty. -/
lemma busInit_tidy : Tidy busInit {} := by
  have hout : ∀ {C : ListNode → Option (List ListNode)} {n : ListNode}, C n = none →
      (∀ k xs, C k = some xs → xs = []) → Outside C n := by
    intro C n hn hnil k xs hk hmem
    rw [hnil k xs hk, List.mem_singleton] at hmem
    rw [← hmem, hn] at hk
    cases hk
  have hupdate : ∀ {C : ListNode → Option (List ListNode)} {n : ListNode},
      (∀ k xs, C k = some xs → xs = []) →
      ∀ k xs, Function.update C n (some []) k = some xs → xs = [] := by
    intro C n hnil k xs hk
    by_cases hkn : k = n
    · subst hkn
      rw [Function.update_self, Option.some.injEq] at hk
      exact hk.symm
    · rw [Function.update_of_ne hkn] at hk
      exact hnil k xs hk
  have h₀ : ∀ (k : ListNode) (xs : List ListNode), (fun _ => none) k = some xs → xs = [] := nofun
  have h₁ := hupdate (n := .objects) h₀
  have h₂ := hupdate (n := .entries .objects) h₁
  have h₃ := hupdate (n := .calls) h₂
  have h₄ := hupdate (n := .entries .calls) h₃
  have h₅ := hupdate (n := .providers) h₄
  have hcircles :=
    (((((Circles.empty.init (h := .objects) (hout rfl h₀)).init (h := .entries .objects)
    (hout rfl h₁)).init (h := .calls) (hout rfl h₂)).init (h := .entries .calls) (hout rfl h₃)).init
    (h := .providers) (hout rfl h₄)).init (h := .entries .providers) (hout rfl h₅)
  refine ⟨?_, fun a => ⟨by simp [busInit], fun _ => by simp [busInit], nofun, nofun, ?_⟩,
    fun a _ => ?_,
    fun _ => rfl, nofun⟩
  · refine Eq.subst ?_ hcircles
    funext n
    cases n with
    | entries t => cases t <;> rfl
    | _ => rfl
  · rintro ⟨k, as, hk, -⟩
    cases hk
  · exact ⟨rfl, rfl, List.not_mem_nil⟩

end Registry
end Obus
