import Obus.RegistryClient

/-!
# List nodes are unlinked when they are linked

Every call of `obus_list_del` is made on a member of a circular list, as long as a server that is
destroyed has only registered objects, and a client gets no bus event that removes an object twice
and unregisters no provider in the place of another one.

For a client, `Registry.Sound` adds to the order of the lists that the calls in the list are those
in the table; between its packets all objects are registered and the lists of bus events are empty
(`Registry.Idle`).
-/

namespace Obus
namespace Registry

variable {m m' : Registry} {l l' : Lists} {g g' : EventLists} {k : EventNode} {a c e : ℕ}
  {as : List ℕ} {o : ObjectMem}

/-- A walk along a list of a bus visits its members in order, if the body at a member leaves the
members to come linked behind it. -/
lemma Tidy.walkNodes {I : List ListNode → Registry → Prop} {n : ListNode}
    {f : ListNode → Registry → Registry} {ns : List ListNode}
    (hnext : ∀ x rest m, I (x :: rest) m → ∃ l pre, Tidy m l ∧
      l.contents m.hash n = some (pre ++ x :: rest))
    (hbody : ∀ x rest m, I (x :: rest) m → I rest (f x m)) (h : Tidy m l)
    (hn : l.contents m.hash n = some ns) (hlength : ns.length ≤ m.fresh) (hs : I ns m) :
    I [] (m.walkNodes n f) := by
  rw [Registry.walkNodes, (h.circles.circle n ns hn).next_eq]
  refine walkSafe_members ?_ hbody hs (Nat.lt_succ_of_le hlength)
  intro x rest m hI
  obtain ⟨l, pre, hl, hx⟩ := hnext x rest m hI
  exact (hl.circles.circle n _ hx).next_mem pre

/-- Unregistering a call of the list takes it out of the list and the table. -/
lemma Tidy.busUnregisterCall {call : CallMem} (h : Tidy m l) (hf : m.fault = false)
    (hc : m.calls c = some call)
    (hkey : (call.handle, c) ∈ m.hash .calls) (hmem : c ∈ l.calls) : ∃ nodes dels,
      m.busUnregisterCall c = { m with
        hash := Function.update m.hash .calls ((m.hash .calls).filter (·.1 ≠ call.handle))
        nodes := nodes
        dels := dels } ∧
      Tidy { m with
        hash := Function.update m.hash .calls ((m.hash .calls).filter (·.1 ≠ call.handle))
        nodes := nodes
        dels := dels } { l with calls := l.calls.erase c } := by
  unfold Registry.busUnregisterCall
  simp only [hc]
  rcases hashRemove_cases h.circles .calls call.handle with ⟨-, hnone⟩ | ⟨-, -, hrem, hcircles⟩
  · rcases hnone with hfault | hnone
    · rw [hf] at hfault
      cases hfault
    · exact absurd rfl (hnone _ hkey)
  · obtain ⟨hdel, hcircles'⟩ := del_of_mem (m := { m with
      hash := Function.update m.hash .calls ((m.hash .calls).filter (·.1 ≠ call.handle))
      nodes := m.nodes.del (.entry .calls call.handle)
      dels := (m.nodes, .entry .calls call.handle) :: m.dels }) (k := .calls) hcircles hf rfl
      (List.mem_map_of_mem hmem)
    rw [hrem]
    refine ⟨_, _, hdel, ⟨?_, ?_, fun b hb => ?_, fun hf => ?_, fun hf d hd => ?_⟩⟩
    · rw [Lists.contents_calls, List.map_erase (fun _ _ => ListNode.call.inj)]
      exact hcircles'
    · simp only [Function.update_of_ne (show Table.objects ≠ Table.calls by decide)]
      exact h.object
    · obtain ⟨hobjs, hreceived, hcalls⟩ := h.fresh b hb
      exact ⟨hobjs, hreceived, fun hin => hcalls (List.mem_of_mem_erase hin)⟩
    · simp only [Function.update_of_ne (show Table.providers ≠ Table.calls by decide)]
      exact h.providers hf
    · simp only [List.mem_cons] at hd
      rcases hd with rfl | rfl | hd
      · exact ⟨_, _, hcircles.circle .calls _ rfl, List.mem_map_of_mem hmem⟩
      · exact ⟨_, _, h.circles.circle (.entries .calls) _ rfl, List.mem_map.mpr ⟨_, hkey, rfl⟩⟩
      · exact h.clean hf d hd

/-- What holds while a client handles something. -/
structure Sound (m : Registry) (l : Lists) (g : EventLists) : Prop extends Linked m l g where
  listed : (m.hash .calls).map Prod.snd = l.calls
  found : ∀ e ∈ m.hash .calls, ∃ call, m.calls e.2 = some call ∧ call.handle = e.1

/-- All objects of a client are registered. -/
def AllRegistered (m : Registry) : Prop := ∀ a, ¬ Unregistered m a

/-- Every object that is left after an object was destroyed was there before. -/
lemma AllRegistered.of_update (hall : AllRegistered m)
    (hobjs : m'.objs = Function.update m.objs a none) : AllRegistered m' := by
  rintro b ⟨o, ho, hreg⟩
  rw [hobjs] at ho
  by_cases hba : b = a
  · subst hba
    rw [Function.update_self] at ho
    cases ho
  · rw [Function.update_of_ne hba] at ho
    exact hall b ⟨o, ho, hreg⟩

/-- The loops of `obus_client_commit_bus_event` before the one that removes the objects. -/
def commitAdditions (alloc : UInt16 → Bool) (e : ℕ) (m : Registry) : Registry :=
  let m := m.walkEvents (.addObjs e) (onObject fun a m => m.addObject alloc a)
  let m := m.walkEvents (.addObjs e) (onObject fun a m => m.eventDel (.object a))
  m.walkEvents (.objEvents e) (onEvent fun v m => (m.eventDel (.event v)).eventDestroy v)

/-- Between two packets all objects are registered and the lists of the bus events are empty. -/
def Idle (m : Registry) : Prop :=
  ∃ l g, Sound m l g ∧ AllRegistered m ∧ ∀ n as, g n = some as → as = []

namespace Sound

/-- The calls only matter for what is known about the calls. -/
lemma of_linked (h : Sound m l g) (hlinked : Linked m' l' g') (hcalls : m'.calls = m.calls)
    (hhash : m'.hash .calls = m.hash .calls) (hl : l'.calls = l.calls) : Sound m' l' g' :=
  ⟨hlinked, by rw [hhash, hl]; exact h.listed, by rw [hhash, hcalls]; exact h.found⟩

/-- A call of the list exists. -/
lemma call_of_mem (h : Sound m l g) (hc : c ∈ l.calls) : ∃ call, m.calls c = some call := by
  rw [← h.listed] at hc
  obtain ⟨e, he, rfl⟩ := List.mem_map.mp hc
  obtain ⟨call, hcall, -⟩ := h.found e he
  exact ⟨call, hcall⟩

/-- A call of the list is unregistered and destroyed. -/
lemma complete (h : Sound m l g) (hc : c ∈ l.calls) : ∃ hash nodes dels calls,
    (m.busUnregisterCall c).callDestroy c =
      { m with hash := hash, nodes := nodes, dels := dels, calls := calls } ∧
      Sound { m with hash := hash, nodes := nodes, dels := dels, calls := calls }
        { l with calls := l.calls.erase c } g ∧ ∀ t ≠ .calls, hash t = m.hash t := by
  have hmem := hc
  rw [← h.listed] at hmem
  obtain ⟨⟨x, c'⟩, hkey, rfl⟩ := List.mem_map.mp hmem
  obtain ⟨call, hcall, rfl⟩ := h.found _ hkey
  obtain ⟨nodes, dels, heq, htidy⟩ := h.tidy.busUnregisterCall h.running hcall hkey hc
  have hkeys := h.tidy.keys_nodup .calls
  have hdata : ((m.hash .calls).map Prod.snd).Nodup := by
    rw [h.listed]
    exact (List.nodup_cons.mp (h.tidy.circles.circle .calls _ rfl).nodup).2.of_map _
  refine ⟨Function.update m.hash .calls ((m.hash .calls).filter (·.1 ≠ call.handle)), nodes, dels,
    Function.update m.calls c' none, ?_,
    ⟨⟨htidy.congr rfl rfl rfl rfl le_rfl id, h.attached.congr rfl rfl
    (fun _ => id) rfl (fun _ => id) le_rfl, h.settled, h.running⟩, ?_, fun e he => ?_⟩,
    fun t ht => Function.update_of_ne ht ..⟩
  · rw [heq]
    exact live_of_running h.running
  · -- the entry of the call is the only one under its handle and the only one of the call
    have hfilter : (m.hash .calls).filter (·.1 ≠ call.handle) = (m.hash .calls).filter
        (·.2 ≠ c') := by
      refine List.filter_congr fun e he => ?_
      rw [Bool.eq_iff_iff, decide_eq_true_eq, decide_eq_true_eq]
      constructor
      · exact fun hne heq => hne (congrArg Prod.fst (List.inj_on_of_nodup_map hdata he hkey heq))
      · exact fun hne heq => hne (congrArg Prod.snd (List.inj_on_of_nodup_map hkeys he hkey heq))
    simp only [Function.update_self, hfilter]
    rw [← h.listed, hdata.erase_eq_filter, List.filter_map]
    refine congrArg _ (List.filter_congr fun e _ => ?_)
    simp [bne, beq_eq_decide]
  · simp only [Function.update_self] at he
    obtain ⟨he, hne⟩ := List.mem_filter.mp he
    obtain ⟨call', hcall', hhandle⟩ := h.found e he
    have hdata' : e.2 ≠ c' := by
      intro heq
      rw [heq, hcall, Option.some.injEq] at hcall'
      rw [← hcall'] at hhandle
      simp [hhandle] at hne
    exact ⟨call', by simpa only [Function.update_of_ne hdata'] using hcall', hhandle⟩

/-- Aborting calls takes them out of the list and the table; without an object none is left. -/
lemma busAbortCall (h : Sound m l g) (obj : Option ℕ) : ∃ hash nodes dels calls cs,
    m.busAbortCall obj = { m with hash := hash, nodes := nodes, dels := dels, calls := calls } ∧
      Sound { m with hash := hash, nodes := nodes, dels := dels, calls := calls }
        { l with calls := cs } g ∧
      (∀ t ≠ .calls, hash t = m.hash t) ∧ (obj = none → cs = []) := by
  -- the calls that were kept, and those to come
  let I (ns : List ListNode) (m' : Registry) : Prop := ∃ hash nodes dels calls kept cs,
    m' = { m with hash := hash, nodes := nodes, dels := dels, calls := calls } ∧
      Sound m' { l with calls := kept ++ cs } g ∧ (∀ t ≠ .calls, hash t = m.hash t) ∧
      ns = cs.map .call ∧
      (obj = none → kept = [])
  have hlength : (l.calls.map ListNode.call).length ≤ m.fresh := by
    rw [List.length_map]
    refine ((List.nodup_cons.mp (h.tidy.circles.circle .calls _ rfl).nodup).2.of_map _).length_le
      fun c hc => ?_
    by_contra hge
    exact (h.tidy.fresh c (by omega)).2.2 hc
  have hwalk : I [] (m.busAbortCall obj) := by
    refine h.tidy.walkNodes (n := .calls) ?_ ?_ rfl hlength
      ⟨m.hash, m.nodes, m.dels, m.calls, [], l.calls, rfl, h, fun _ _ => rfl, rfl, fun _ => rfl⟩
    · rintro n rest m' ⟨-, -, -, -, kept, cs, -, hsound, -, hns, -⟩
      refine ⟨_, kept.map .call, hsound.tidy, ?_⟩
      rw [hns, ← List.map_append]
      rfl
    · rintro n rest m' ⟨hash, nodes, dels, calls, kept, cs, rfl, hsound, hhash, hns, hkept⟩
      obtain ⟨c, cs, rfl, rfl, rfl⟩ := List.map_eq_cons_iff.mp hns.symm
      have hmem : c ∈ kept ++ c :: cs := by simp
      obtain ⟨call, hcall⟩ : ∃ call, calls c = some call := hsound.call_of_mem hmem
      simp only [atCall, hcall]
      split
      · obtain ⟨hash', nodes', dels', calls', heq, hsound', hhash'⟩ := hsound.complete hmem
        have hnodup : (kept ++ c :: cs).Nodup :=
          (List.nodup_cons.mp (hsound.tidy.circles.circle .calls _ rfl).nodup).2.of_map _
        have hnot : c ∉ kept := fun hin =>
          (List.nodup_append.mp hnodup).2.2 c hin c List.mem_cons_self rfl
        rw [List.erase_append_right _ hnot, List.erase_cons_head] at hsound'
        rw [heq]
        exact ⟨hash', nodes', dels', calls', kept, cs, rfl, hsound', fun t ht => (hhash' t ht).trans
          (hhash t ht),
          rfl, hkept⟩
      · next hall =>
        refine ⟨hash, nodes, dels, calls, kept ++ [c], cs, rfl, ?_, hhash, rfl, ?_⟩
        · rwa [List.append_assoc, List.singleton_append]
        · rintro rfl
          exact absurd rfl hall
  obtain ⟨hash, nodes, dels, calls, kept, cs, heq, hsound, hhash, hnil, hkept⟩ := hwalk
  rw [List.map_eq_nil_iff.mp hnil.symm, List.append_nil, heq] at hsound
  exact ⟨hash, nodes, dels, calls, kept, heq, hsound, hhash, hkept⟩

/-- A registered object is removed from the bus and destroyed, after its calls. -/
lemma removeObject (h : Sound m l g) (hall : AllRegistered m) (ha : (m.objs a).isSome = true)
    (hno : ¬ g.Member (.object a)) :
    (∃ l', Sound (m.removeObject (some a)) l' g) ∧ (m.removeObject (some a)).objs =
      Function.update m.objs a none ∧
      (m.removeObject (some a)).hash .objects = (m.hash .objects).filter (·.2 ≠ a) := by
  obtain ⟨o, ho⟩ := Option.isSome_iff_exists.mp ha
  have hreg : o.isRegistered = true := by
    by_contra hreg
    exact hall a ⟨o, ho, by simpa using hreg⟩
  obtain ⟨hash, nodes, dels, calls, cs, habort, habort', hrest, -⟩ := h.busAbortCall (some a)
  have hbus : o.bus = true := by
    have hok := h.tidy.object a
    rw [ho] at hok
    exact hok.onBus o rfl hreg
  obtain ⟨nodes', dels', hunregister, htidy⟩ :=
    habort'.tidy.busUnregisterObject habort'.running ho hreg
  obtain ⟨hash'', nodes'', dels'', hremove, htidy', hhash⟩ :=
    htidy.busRemoveObject habort'.running (Function.update_self ..) rfl
  simp only [hbus] at hunregister hremove htidy'
  have hattached : Attached { m with
      objs := Function.update (Function.update m.objs a
        (some { o with isRegistered := false, bus := true })) a
        (some { o with isRegistered := false, bus := false })
      hash := hash''
      nodes := nodes''
      dels := dels''
      calls := calls } g :=
    habort'.attached.congr rfl rfl (fun _ => id) rfl
      (fun _ hb => isSome_update (isSome_update hb)) le_rfl
  obtain ⟨hgone, hobjs, hlast, hsame⟩ :=
    Linked.objectDestroy ⟨htidy', hattached, h.settled, h.running⟩
    (Function.update_self ..) rfl
  rw [EventLists.erase_of_not_member hno] at hgone
  have hresult : m.removeObject (some a) = Registry.objectDestroy a { m with
      objs := Function.update (Function.update m.objs a
        (some { o with isRegistered := false, bus := true })) a
        (some { o with isRegistered := false, bus := false })
      hash := hash''
      nodes := nodes''
      dels := dels''
      calls := calls } := by
    simp only [Registry.removeObject, habort, hunregister, hremove]
  rw [hresult]
  have hcalls : hash'' .calls = hash .calls :=
    (congrFun hhash .calls).trans (Function.update_of_ne (by decide) ..)
  have hobjects : hash'' .objects = (m.hash .objects).filter (·.2 ≠ a) := by
    have hsame : hash .objects = m.hash .objects := hrest .objects (by decide)
    exact (congrFun hhash .objects).trans
      ((Function.update_self ..).trans (congrArg (List.filter _) hsame))
  refine ⟨⟨_, habort'.of_linked hgone hsame.calls
    ((hsame.hash .calls (by decide)).trans hcalls) rfl⟩,
    hobjs.trans (by simp only [Function.update_idem]), hlast.trans ?_⟩
  simp only [hobjects, List.filter_filter, Bool.and_self]

/-- A new object is registered, or it is destroyed and leaves its list. -/
lemma addObject (h : Sound m l g) (alloc : UInt16 → Bool) (ha : Unregistered m a) : ∃ l' g',
    Sound (m.addObject alloc a) l' g' ∧ (g' = g ∨ g' = g.erase (.object a)) ∧
      (∀ b, Unregistered (m.addObject alloc a) b ↔ Unregistered m b ∧ b ≠ a) ∧
      ∀ p ∈ m.hash .objects, p.2 ≠ a → p ∈ (m.addObject alloc a).hash .objects := by
  obtain ⟨o, ho, hreg⟩ := ha
  unfold Registry.addObject
  simp only [ho]
  rcases h.tidy.busAddObject h.running (alloc o.handle) [] ho with hfail |
    ⟨-, x, nodes, hadd, htidy⟩
  · rw [hfail]
    obtain ⟨hgone, hobjs, hlast, hsame⟩ := h.toLinked.objectDestroy ho hreg
    refine ⟨l, _, h.of_linked hgone hsame.calls (hsame.hash .calls (by decide)) rfl, .inr rfl,
      fun b => ?_,
      fun p hp hne => ?_⟩
    · unfold Unregistered
      rw [hobjs]
      by_cases hba : b = a
      · simp [hba]
      · simp [hba, Function.update_of_ne]
    · rw [hlast]
      exact List.mem_filter.mpr ⟨hp, decide_eq_true hne⟩
  · rw [hadd]
    obtain ⟨nodes', hregister, htidy'⟩ :=
      htidy.busRegisterObject h.running (Function.update_self ..) hreg rfl
      h.settled.not_waiting
    simp only [hregister]
    have hcalls : Function.update m.hash .objects (m.hash .objects ++ [(x, a)]) .calls =
        m.hash .calls :=
      Function.update_of_ne (by decide) ..
    refine ⟨_, g, h.of_linked ⟨htidy', h.attached.congr rfl rfl (fun _ => id) rfl
      (fun _ hb => isSome_update (isSome_update hb)) le_rfl, h.settled, h.running⟩ rfl hcalls
        rfl, .inl rfl,
      fun b => ?_, fun p hp _ => ?_⟩
    · unfold Unregistered
      by_cases hba : b = a
      · simp [hba]
      · simp [hba, Function.update_of_ne]
    · simp only [Function.update_self]
      exact List.mem_append_left _ hp

/-- Taking all members out of a list of a bus event. -/
lemma unlinkAll {Q : List ℕ → Registry → Prop} {f : ℕ → Registry → Registry}
    {F : EventNode → Registry → Registry}
    (hF : ∀ a m, F (k.member a) m = f a (m.eventDel (k.member a)))
    (hQ : ∀ as m links ds, Q as m → Q as { m with eventNodes := links, eventDels := ds })
    (hf : ∀ a rest m l g, Sound m l g → Q (a :: rest) m → ¬ g.Member (k.member a) →
      m.Alive (k.member a) →
      (∃ l', Sound (f a m) l' g) ∧ Q rest (f a m))
    (h : Sound m l g) (hk : g k = some as) (hs : Q as m) : ∃ l',
      Sound (m.walkEvents k F) l' (Function.update g k (some [])) ∧ Q [] (m.walkEvents k F) ∧
      m.walkEvents k F = as.foldl (fun m a => F (k.member a) m) m := by
  have hwalk := h.toLinked.unlinkAll (Q := fun rest m l => ((m.hash .calls).map Prod.snd = l.calls ∧
      ∀ e ∈ m.hash .calls, ∃ call, m.calls e.2 = some call ∧ call.handle = e.1) ∧ Q rest m)
    hF (fun rest m l links ds hs => ⟨hs.1, hQ rest m links ds hs.2⟩) ?_ hk ⟨⟨h.listed, h.found⟩, hs⟩
  · obtain ⟨⟨l', hlinked, ⟨hlisted, hfound⟩, hdone⟩, hfold⟩ := hwalk
    exact ⟨l', ⟨hlinked, hlisted, hfound⟩, hdone, hfold⟩
  · rintro a rest m' l' hlinked ⟨⟨hlisted, hfound⟩, hs⟩ hno halive
    obtain ⟨⟨l'', hsound⟩, hrest⟩ := hf a rest m' l' _ ⟨hlinked, hlisted, hfound⟩ hs hno halive
    exact ⟨l'', hsound.toLinked, ⟨hsound.listed, hsound.found⟩, hrest⟩

/-- An event that is in no list is destroyed. -/
lemma eventDestroy (h : Sound m l g) {v : ℕ} (hno : ¬ g.Member (.event v))
    (hv : m.Alive (.event v)) :
    Sound (m.eventDestroy v) l g ∧ (m.eventDestroy v).objs = m.objs ∧
    (m.eventDestroy v).hash = m.hash := by
  obtain ⟨ev, hev⟩ := Option.isSome_iff_exists.mp hv
  obtain ⟨links, ds, es, heq, hlinked⟩ := h.toLinked.eventDestroy hev
  rw [EventLists.erase_of_not_member hno, ite_self] at hlinked
  rw [heq]
  exact ⟨h.of_linked hlinked rfl rfl rfl, rfl, rfl⟩

/-- Adding the objects of a bus event registers all objects. -/
lemma addObjects (h : Sound m l g) (alloc : UInt16 → Bool) (hadd : g (.addObjs e) = some as)
    (hnew : ∀ b, Unregistered m b ↔ b ∈ as) : ∃ l' bs,
      Sound (m.walkEvents (.addObjs e) (onObject fun a m => m.addObject alloc a)) l'
        (Function.update g (.addObjs e) (some bs)) ∧
      AllRegistered (m.walkEvents (.addObjs e) (onObject fun a m => m.addObject alloc a)) ∧
      ∀ p ∈ m.hash .objects, p.2 ∉ as →
        p ∈ (m.walkEvents (.addObjs e) (onObject fun a m => m.addObject alloc a)).hash
          .objects := by
  -- the objects that are registered by now, and those to come
  let I (rest : List ℕ) (m' : Registry) : Prop := ∃ l' pre,
    Sound m' l' (Function.update g (.addObjs e) (some (pre ++ rest))) ∧
    (∀ b, Unregistered m' b ↔ b ∈ rest) ∧
      rest ⊆ as ∧ ∀ p ∈ m.hash .objects, p.2 ∉ as → p ∈ m'.hash .objects
  have hwalk := h.attached.walkEvents (I := I) (f := onObject fun a m => m.addObject alloc a)
    ?_ ?_ hadd
    ⟨l, [], by rwa [List.nil_append, ← hadd, Function.update_eq_self], hnew, List.Subset.refl _,
      fun _ hp _ => hp⟩
  · obtain ⟨l', pre, hsound, hall, -, hkeep⟩ := hwalk
    exact ⟨l', _, hsound, fun b hb => List.not_mem_nil ((hall b).mp hb), hkeep⟩
  · rintro a rest m' ⟨l', pre, hsound, -⟩
    exact ⟨_, pre, hsound.attached, Function.update_self ..⟩
  · rintro a rest m' ⟨l', pre, hsound, hrest, hsub, hkeep⟩
    obtain ⟨l'', g', hsound', hg', hothers, hstay⟩ :=
      hsound.addObject alloc ((hrest a).mpr List.mem_cons_self)
    obtain ⟨ha, hsub⟩ := List.cons_subset.mp hsub
    have hkeep' : ∀ p ∈ m.hash .objects, p.2 ∉ as → p ∈ (m'.addObject alloc a).hash .objects :=
      fun p hp hnot => hstay p (hkeep p hp hnot) fun heq => hnot (heq ▸ ha)
    have hnodup := hsound.attached.nodup (Function.update_self ..)
    have hrest' : ∀ b, Unregistered (m'.addObject alloc a) b ↔ b ∈ rest := by
      intro b
      rw [hothers, hrest, List.mem_cons]
      constructor
      · rintro ⟨rfl | hb, hne⟩
        · exact absurd rfl hne
        · exact hb
      · refine fun hb => ⟨.inr hb, ?_⟩
        rintro rfl
        exact (List.nodup_cons.mp (List.nodup_append.mp hnodup).2.1).1 hb
    rcases hg' with rfl | rfl
    · refine ⟨l'', pre ++ [a], ?_, hrest', hsub, hkeep'⟩
      rwa [List.append_assoc, List.singleton_append]
    · refine ⟨l'', pre, ?_, hrest', hsub, hkeep'⟩
      have herase := hsound.attached.erase_eq (Function.update_self ..) (a := a) (by simp)
      have hnot : a ∉ pre := fun hin =>
        (List.nodup_append.mp hnodup).2.2 a hin a List.mem_cons_self rfl
      rw [List.erase_append_right _ hnot, List.erase_cons_head, Function.update_idem] at herase
      rw [herase]
      exact hsound'

/-- A bus event is committed: its objects are added and its events destroyed, and then each of the
objects that it removes is removed once. -/
lemma commitBusEvent (as rs vs : List ℕ) (h : Sound m l g) (alloc : UInt16 → Bool)
    (hadd : g (.addObjs e) = some as) (hremove : g (.removeObjs e) = some rs)
    (hevents : g (.objEvents e) = some vs) (hnew : ∀ b, Unregistered m b ↔ b ∈ as) : ∃ l',
      Sound (m.commitBusEvent alloc e) l'
        (Function.update (Function.update (Function.update g (.addObjs e) (some []))
        (.objEvents e) (some [])) (.removeObjs e) (some [])) ∧
      AllRegistered (m.commitBusEvent alloc e) ∧
      m.commitBusEvent alloc e =
        rs.foldl (fun m a => (m.eventDel (.object a)).removeObject (some a))
          (m.commitAdditions alloc e) ∧
      (∀ a ∈ rs, (m.commitBusEvent alloc e).objs a = none) ∧
      ∀ p ∈ m.hash .objects, p.2 ∉ as →
      (p ∈ (m.commitBusEvent alloc e).hash .objects ↔ p.2 ∉ rs) := by
  obtain ⟨l₁, bs, h₁, hall₁, hkeep₁⟩ := h.addObjects alloc hadd hnew
  obtain ⟨l₂, h₂, ⟨hall₂, hkeep₂⟩, -⟩ := h₁.unlinkAll (k := .addObjs e)
    (Q := fun _ m' => AllRegistered m' ∧ ∀ p ∈ m.hash .objects, p.2 ∉ as → p ∈ m'.hash .objects)
      (f := fun _ m => m)
    (F := onObject fun a m => m.eventDel (.object a)) (fun _ _ => rfl) (fun _ _ _ _ => id)
    (fun _ _ _ l _ h hs _ _ => ⟨⟨l, h⟩, hs⟩) (Function.update_self ..) ⟨hall₁, hkeep₁⟩
  rw [Function.update_idem] at h₂
  obtain ⟨l₃, h₃, ⟨hall₃, hkeep₃⟩, -⟩ := h₂.unlinkAll (k := .objEvents e)
    (Q := fun _ m' => AllRegistered m' ∧ ∀ p ∈ m.hash .objects, p.2 ∉ as → p ∈ m'.hash .objects)
    (F := onEvent fun v m => (m.eventDel (.event v)).eventDestroy v) (fun _ _ => rfl)
      (fun _ _ _ _ => id)
    (fun v _ m l g h hs hno halive => by
      obtain ⟨hsound, hobjs, hhash⟩ := h.eventDestroy hno halive
      exact ⟨⟨l, hsound⟩, fun b ⟨o, ho, hreg⟩ => hs.1 b ⟨o, hobjs ▸ ho, hreg⟩, hhash ▸ hs.2⟩)
    (by rwa [Function.update_of_ne (by simp)]) ⟨hall₂, hkeep₂⟩
  -- the objects that are not removed yet are alive, and the others are gone
  have hnodup : rs.Nodup := h.attached.nodup hremove
  obtain ⟨l₄, h₄, ⟨hall₄, -, -, hgone, hhash⟩, hfold⟩ := h₃.unlinkAll (k := .removeObjs e)
    (Q := fun rest m' => AllRegistered m' ∧ rest.Nodup ∧ rest ⊆ rs ∧
      (∀ a ∈ rs, a ∉ rest → m'.objs a = none) ∧
      ∀ p ∈ m.hash .objects, p.2 ∉ as → (p ∈ m'.hash .objects ↔ (p.2 ∈ rs → p.2 ∈ rest)))
    (F := onObject fun a m => (m.eventDel (.object a)).removeObject (some a)) (fun _ _ => rfl)
      (fun _ _ _ _ => id)
    (fun a rest m l g h hs hno halive => by
      obtain ⟨hall, hrest, hsub, hgone, hhash⟩ := hs
      obtain ⟨hnot, hrest⟩ := List.nodup_cons.mp hrest
      obtain ⟨ha, hsub⟩ := List.cons_subset.mp hsub
      obtain ⟨hsound, hobjs, hfilter⟩ := h.removeObject hall halive hno
      refine ⟨hsound, hall.of_update hobjs, hrest, hsub, fun b hb hout => ?_, fun p hp hpas => ?_⟩
      · rw [hobjs]
        by_cases hba : b = a
        · rw [hba, Function.update_self]
        · rw [Function.update_of_ne hba]
          exact hgone b hb fun hmem => (List.mem_cons.mp hmem).elim hba hout
      · rw [hfilter, List.mem_filter, hhash p hp hpas, decide_eq_true_eq]
        constructor
        · exact fun ⟨hin, hne⟩ hrs => (List.mem_cons.mp (hin hrs)).resolve_left hne
        · exact fun hin => ⟨fun hrs => List.mem_cons_of_mem a (hin hrs),
            fun heq => hnot (heq ▸ hin (heq ▸ ha))⟩)
    (by rwa [Function.update_of_ne (by simp), Function.update_of_ne (by simp)])
    ⟨hall₃, hnodup, List.Subset.refl rs, fun a ha hnot => absurd ha hnot, fun p hp hpas =>
      ⟨fun _ => id, fun _ => hkeep₃ p hp hpas⟩⟩
  exact ⟨l₄, h₄, hall₄, hfold, fun a ha => hgone a ha List.not_mem_nil, fun p hp hpas =>
    (hhash p hp hpas).trans ⟨fun hin hrs => List.not_mem_nil (hin hrs), fun hnot hrs =>
      absurd hrs hnot⟩⟩

/-- A bus event is handled: its objects are added and removed, its events are destroyed, and its
lists are empty. -/
lemma handleBusEvent (as rs vs : List ℕ) (h : Sound m l g) (alloc : UInt16 → Bool)
    (hadd : g (.addObjs e) = some as) (hremove : g (.removeObjs e) = some rs)
    (hevents : g (.objEvents e) = some vs)
    (hnew : ∀ b, Unregistered m b ↔ b ∈ as) (hrest : ∀ n ∉ heads e, ∀ bs, g n = some bs → bs = []) :
    Idle (m.handleBusEvent alloc e) := by
  obtain ⟨l₄, h₄, hall₄, -⟩ := h.commitBusEvent as rs vs alloc hadd hremove hevents hnew
  -- the bus event that is destroyed has no members any more
  have hdestroy : m.handleBusEvent alloc e = { m.commitBusEvent alloc e with
      busEvents := Function.update (m.commitBusEvent alloc e).busEvents e false } := by
    unfold Registry.handleBusEvent busEventDestroy
    have hsame : ∀ k ∈ heads e, ∀ F, (m.commitBusEvent alloc e).walkEvents k F =
        m.commitBusEvent alloc e := by
      intro k hk F
      refine h₄.attached.walkEvents_nil ?_ F
      simp only [heads, List.mem_cons, List.not_mem_nil, or_false] at hk
      rcases hk with rfl | rfl | rfl
      · simp
      · simp
      · simp
    simp only [hsame (.objEvents e) (by simp [heads]), hsame (.addObjs e) (by simp [heads]),
      hsame (.removeObjs e) (by simp [heads])]
    exact live_of_running h₄.running
  rw [hdestroy]
  refine ⟨l₄, _, h₄.of_linked
    ⟨h₄.tidy.congr rfl rfl rfl rfl le_rfl id, h₄.attached.congr rfl rfl (fun d hd => ?_) rfl
    (fun _ => id) le_rfl, h₄.settled, h₄.running⟩ rfl rfl rfl, hall₄, fun n bs hn => ?_⟩
  · by_cases hde : d = e
    · subst hde
      simp at hd
    · exact (Function.update_of_ne hde _ _).symm.trans hd
  · by_cases hmem : n ∈ heads e
    · simp only [heads, List.mem_cons, List.not_mem_nil, or_false] at hmem
      rcases hmem with rfl | rfl | rfl <;> simpa using hn.symm
    · have hne : n ≠ .addObjs e ∧ n ≠ .removeObjs e ∧ n ≠ .objEvents e := by
        simpa [heads] using hmem
      rw [Function.update_of_ne hne.2.1, Function.update_of_ne hne.2.2,
        Function.update_of_ne hne.1] at hn
      exact hrest n hmem bs hn

lemma busEventNew (h : Sound m l g) (hnil : ∀ n as, g n = some as → as = []) : ∃ g',
    Sound m.busEventNew.2 l g' ∧ (∀ n ∈ heads m.fresh, g' n = some []) ∧ ∀ n as, g' n = some as →
    as = [] := by
  obtain ⟨g', hattached, hheads, hnil'⟩ := h.attached.busEventNew_nil hnil
  exact ⟨g', h.of_linked ⟨h.tidy.congr rfl rfl rfl rfl (Nat.le_succ _) id, hattached, h.settled,
    h.running⟩ rfl rfl rfl,
    hheads, hnil'⟩

/-- An object that is found exists. -/
lemma found_alive (h : Sound m l g) {x : UInt16} (hx : m.busObject x = some a) :
    (x, a) ∈ m.hash .objects ∧
    (m.objs a).isSome = true ∧ a < m.fresh := by
  have hmem := (h.tidy.consistent.lookup x a).mp hx
  obtain ⟨o, ho, -⟩ := ((h.tidy.object a).keyed_iff x).mp hmem
  refine ⟨hmem, by rw [ho]; rfl, ?_⟩
  by_contra hge
  rw [(h.tidy.fresh a (by omega)).1] at ho
  cases ho

/-- New objects are put into the list of a bus event; none of them is in the hash table. -/
lemma decodeAddObjs (objects : List Object) (h : Sound m l g) (hk : g (.addObjs e) = some as)
    (hnew : ∀ b, Unregistered m b ↔ b ∈ as) (hoff : ∀ b ∈ as, ∀ x, (x, b) ∉ m.hash .objects) : ∃ bs,
      Sound (m.decodeAddObjs e objects) l (Function.update g (.addObjs e) (some bs)) ∧
      (∀ b, Unregistered (m.decodeAddObjs e objects) b ↔ b ∈ bs) ∧
      (m.decodeAddObjs e objects).hash = m.hash ∧ ∀ b ∈ bs, ∀ x, (x, b) ∉ m.hash .objects := by
  induction objects generalizing m g as with
  | nil => exact ⟨as, by rwa [← hk, Function.update_eq_self], hnew, rfl, hoff⟩
  | cons o objects ih =>
    have hnone := (h.tidy.fresh m.fresh le_rfl).1
    obtain ⟨hattached, hno⟩ := h.attached.objectNew hnone o.desc.uid o.handle
    obtain ⟨links, heq, hattached'⟩ :=
      hattached.eventAddBefore h.running (k := .addObjs e) (a := m.fresh) hk hno
      (by simp [Alive, EventNode.member, Registry.objectNew]) (Nat.lt_succ_self _)
    have hstep : m.decodeAddObjs e (o :: objects) =
        Registry.decodeAddObjs e objects
          { (m.objectNew o.desc.uid o.handle).2 with eventNodes := links } :=
      congrArg (List.foldl _ · objects) heq
    have hsound : Sound { (m.objectNew o.desc.uid o.handle).2 with eventNodes := links } l
        (Function.update g (.addObjs e) (some (as ++ [m.fresh]))) :=
      h.of_linked ⟨(h.tidy.objectNew _ _).congr rfl rfl rfl rfl le_rfl id, hattached', h.settled,
        h.running⟩ rfl rfl rfl
    have hobjs : ∀ b, Unregistered
        { (m.objectNew o.desc.uid o.handle).2 with eventNodes := links } b ↔
        b ∈ as ++ [m.fresh] := by
      intro b
      rw [List.mem_append, List.mem_singleton, ← hnew b]
      unfold Unregistered Registry.objectNew
      by_cases hb : b = m.fresh
      · simp [hb]
      · simp [hb, Function.update_of_ne]
    obtain ⟨bs, hsound', hbs, hhash, hoff'⟩ :=
      ih hsound (Function.update_self ..) hobjs fun b hb x hx => by
      rcases List.mem_append.mp hb with hb | hb
      · exact hoff b hb x hx
      · rw [List.mem_singleton.mp hb] at hx
        obtain ⟨o', ho', -⟩ := ((h.tidy.object m.fresh).keyed_iff x).mp hx
        rw [hnone] at ho'
        cases ho'
    rw [Function.update_idem] at hsound'
    rw [hstep]
    exact ⟨bs, hsound', hbs, hhash, hoff'⟩

/-- Different objects that are found are put into the list of a bus event. -/
lemma decodeRemoveObjs (refs : List ObjectRef) (rs : List ℕ)
    (h : Sound m l (Function.update g (.removeObjs e) (some rs)))
    (hno : ∀ x a, (x, a) ∈ m.hash .objects → ¬ g.Member (.object a))
    (hnodup : (rs ++ refs.filterMap (m.busObject ·.handle)).Nodup) : ∃ links,
      m.decodeRemoveObjs e refs = { m with eventNodes := links } ∧
      Sound { m with eventNodes := links } l
        (Function.update g (.removeObjs e)
          (some (rs ++ refs.filterMap (m.busObject ·.handle)))) := by
  induction refs generalizing m rs with
  | nil => exact ⟨m.eventNodes, rfl, by rwa [List.filterMap_nil, List.append_nil]⟩
  | cons r refs ih =>
    cases hfound : m.busObject r.handle with
    | none =>
      have hstep : m.decodeRemoveObjs e (r :: refs) = m.decodeRemoveObjs e refs := by
        simp only [Registry.decodeRemoveObjs, List.foldl_cons, hfound]
      rw [hstep]
      simp only [List.filterMap_cons, hfound] at hnodup ⊢
      exact ih rs h hno hnodup
    | some a =>
      obtain ⟨hmem, halive, hlt⟩ := h.found_alive hfound
      simp only [List.filterMap_cons, hfound] at hnodup
      have hno' : ¬ EventLists.Member (Function.update g (.removeObjs e) (some rs))
          (.object a) := by
        intro hmember
        rcases EventLists.member_update hmember with ⟨n, bs, hn, -, hin⟩ | ⟨b, hb, hab⟩
        · exact hno _ a hmem ⟨n, bs, hn, hin⟩
        · cases hab
          exact (List.nodup_append.mp hnodup).2.2 a hb a List.mem_cons_self rfl
      obtain ⟨links, heq, hattached⟩ :=
        h.attached.eventAddBefore h.running (k := .removeObjs e) (a := a)
        (Function.update_self ..) hno' halive hlt
      have hstep : m.decodeRemoveObjs e (r :: refs) =
          Registry.decodeRemoveObjs e refs { m with eventNodes := links } := by
        simp only [Registry.decodeRemoveObjs, List.foldl_cons, hfound]
        exact congrArg (List.foldl _ · refs) heq
      rw [Function.update_idem] at hattached
      rw [hstep]
      simp only [List.filterMap_cons, hfound]
      rw [List.append_cons] at hnodup ⊢
      exact ih (m := { m with eventNodes := links }) _
        (h.of_linked ⟨h.tidy.congr rfl rfl rfl rfl le_rfl id, hattached,
        h.settled, h.running⟩ rfl rfl rfl) hno hnodup

/-- New events are put into the list of a bus event. -/
lemma decodeObjEvents (events : List Event) (vs : List ℕ) (h : Sound m l g)
    (hk : g (.objEvents e) = some vs) :
    ∃ vs', Sound (m.decodeObjEvents e events) l (Function.update g (.objEvents e) (some vs')) ∧
      (m.decodeObjEvents e events).objs = m.objs ∧ (m.decodeObjEvents e events).hash = m.hash := by
  induction events generalizing m g vs with
  | nil => exact ⟨vs, by rwa [← hk, Function.update_eq_self], rfl, rfl⟩
  | cons v events ih =>
    cases hfound : m.busObject v.obj.handle with
    | none =>
      have hstep : m.decodeObjEvents e (v :: events) = m.decodeObjEvents e events := by
        simp only [Registry.decodeObjEvents, List.foldl_cons, hfound]
      rw [hstep]
      exact ih vs h hk
    | some a =>
      obtain ⟨hattached, hno⟩ := h.attached.eventNew true a
      obtain ⟨links, heq, hattached'⟩ :=
        hattached.eventAddBefore h.running (k := .objEvents e) (a := m.fresh) hk hno
        (by simp [Alive, EventNode.member, Registry.eventNew]) (Nat.lt_succ_self _)
      have hstep : m.decodeObjEvents e (v :: events) =
          Registry.decodeObjEvents e events { (m.eventNew true a).2 with eventNodes := links } := by
        simp only [Registry.decodeObjEvents, List.foldl_cons, hfound]
        exact congrArg (List.foldl _ · events) heq
      have hsound : Sound { (m.eventNew true a).2 with eventNodes := links } l
          (Function.update g (.objEvents e) (some (vs ++ [m.fresh]))) :=
        h.of_linked ⟨h.tidy.congr rfl rfl rfl rfl (Nat.le_succ _) id, hattached', h.settled,
          h.running⟩ rfl rfl rfl
      obtain ⟨vs', hsound', hobjs, hhash⟩ := ih _ hsound (Function.update_self ..)
      rw [Function.update_idem] at hsound'
      rw [hstep]
      exact ⟨vs', hsound', hobjs, hhash⟩

end Sound

/-- What holds while the objects of a connection response are moved into a bus event: those in the
list of the packet are `as`. -/
structure Receiving (m : Registry) (l : Lists) (g : EventLists) (k : ℕ) (as : List ℕ) : Prop where
  tidy : Tidy m l
  attached : Attached m g
  running : m.fault = false
  received : l.received k = some as
  others : ∀ j ≠ k, ∀ bs, l.received j = some bs → bs = []
  listed : (m.hash .calls).map Prod.snd = l.calls
  found : ∀ e ∈ m.hash .calls, ∃ call, m.calls e.2 = some call ∧ call.handle = e.1

namespace Receiving

/-- When no object is left in the list of the packet, everything is in order. -/
lemma sound (h : Receiving m l g c []) : Sound m l g := by
  refine ⟨⟨h.tidy, h.attached, fun j bs hj => ?_, h.running⟩, h.listed, h.found⟩
  by_cases hjc : j = c
  · subst hjc
    rw [h.received, Option.some.injEq] at hj
    exact hj.symm
  · exact h.others j hjc bs hj

/-- The objects of a packet are put into its list. -/
lemma receiveObjects (objects : List Object) (h : Receiving m l g c as)
    (hnew : ∀ b, Unregistered m b ↔ b ∈ as) :
    ∃ l' bs, Receiving (m.receiveObjects c objects) l' g c bs ∧
      ∀ b, Unregistered (m.receiveObjects c objects) b ↔ b ∈ bs := by
  induction objects generalizing m l as with
  | nil => exact ⟨l, as, h, hnew⟩
  | cons o objects ih =>
    obtain ⟨nodes, heq, htidy⟩ := h.tidy.receive h.running h.received o.desc.uid o.handle
    obtain ⟨hattached, -⟩ := h.attached.objectNew
      (h.tidy.fresh m.fresh le_rfl).1 o.desc.uid o.handle
    have hstep : m.receiveObjects c (o :: objects) =
        Registry.receiveObjects c objects
          { (m.objectNew o.desc.uid o.handle).2 with nodes := nodes } :=
      congrArg (List.foldl _ · objects) heq
    rw [hstep]
    refine ih ⟨htidy, hattached.congr rfl rfl (fun _ => id) rfl (fun _ => id) le_rfl, h.running,
      Function.update_self .., fun j hj bs hbs => h.others j hj bs ?_, h.listed, h.found⟩ fun b =>
        ?_
    · simpa only [Function.update_of_ne hj] using hbs
    · rw [List.mem_append, List.mem_singleton, ← hnew b]
      unfold Unregistered Registry.objectNew
      by_cases hb : b = m.fresh
      · simp [hb]
      · simp [hb, Function.update_of_ne]

lemma busEventNew (h : Receiving m l g c as) (hnil : ∀ n bs, g n = some bs → bs = []) : ∃ g',
    Receiving m.busEventNew.2 l g' c as ∧ (∀ n ∈ heads m.fresh, g' n = some []) ∧
    ∀ n bs, g' n = some bs → bs = [] := by
  obtain ⟨g', hattached, hheads, hnil'⟩ := h.attached.busEventNew_nil hnil
  exact ⟨g', ⟨h.tidy.congr rfl rfl rfl rfl (Nat.le_succ _) id, hattached, h.running, h.received,
    h.others, h.listed,
    h.found⟩, hheads, hnil'⟩

/-- All objects of a packet are moved into the list of a bus event. -/
lemma moveReceived (h : Receiving m l g c as) (hadd : g (.addObjs e) = some [])
    (hnil : ∀ n bs, g n = some bs → bs = []) (hnew : ∀ b, Unregistered m b ↔ b ∈ as) : ∃ l',
      Sound (m.walkNodes (.received c) (atObject fun a m =>
        (m.del (.object a)).eventAddBefore (.addObjs e) (.object a))) l'
        (Function.update g (.addObjs e) (some as)) ∧
      ∀ b, Unregistered (m.walkNodes (.received c) (atObject fun a m =>
        (m.del (.object a)).eventAddBefore (.addObjs e) (.object a))) b ↔ b ∈ as := by
  -- the objects that were moved, and those to come
  let I (ns : List ListNode) (m' : Registry) : Prop := ∃ l' pre rest,
    Receiving m' l' (Function.update g (.addObjs e) (some pre)) c rest ∧ as = pre ++ rest ∧
      ns = rest.map .object ∧ ∀ b, Unregistered m' b ↔ b ∈ as
  have hcontents : ∀ {l' : Lists} {hash : Table → List (UInt16 × ℕ)} {rest : List ℕ},
      l'.received c = some rest →
      l'.contents hash (.received c) = some (rest.map .object) := fun hk => by
        simp [Lists.contents, hk]
  have hlt : ∀ a ∈ as, (m.objs a).isSome = true ∧ a < m.fresh := by
    intro a ha
    obtain ⟨o, ho, -⟩ := (hnew a).mpr ha
    refine ⟨by rw [ho]; rfl, ?_⟩
    by_contra hge
    rw [(h.tidy.fresh a (by omega)).1] at ho
    cases ho
  have hnodup : as.Nodup :=
    (List.nodup_cons.mp (h.tidy.circles.circle _ _ (hcontents h.received)).nodup).2.of_map _
  have hlength : (as.map ListNode.object).length ≤ m.fresh := by
    rw [List.length_map]
    exact hnodup.length_le fun a ha => (hlt a ha).2
  have hwalk : I [] (m.walkNodes (.received c) (atObject fun a m =>
      (m.del (.object a)).eventAddBefore (.addObjs e) (.object a))) := by
    refine h.tidy.walkNodes (n := .received c) ?_ ?_ (hcontents h.received) hlength
      ⟨l, [], as, by rwa [← hadd, Function.update_eq_self], rfl, rfl, hnew⟩
    · rintro n rest m' ⟨l', pre, rest', hreceiving, -, hns, -⟩
      exact ⟨l', [], hreceiving.tidy, by rw [hns]; exact hcontents hreceiving.received⟩
    · rintro n rest m' ⟨l', pre, rest', hreceiving, hsplit, hns, hnew'⟩
      obtain ⟨a, rest', rfl, rfl, rfl⟩ := List.map_eq_cons_iff.mp hns.symm
      obtain ⟨nodes, hdel, htidy⟩ :=
        hreceiving.tidy.unreceive hreceiving.running hreceiving.received
      have hmem : a ∈ as := by simp [hsplit]
      have hnot : ¬ EventLists.Member (Function.update g (.addObjs e) (some pre)) (.object a) := by
        intro hmember
        rcases EventLists.member_update hmember with ⟨n, bs, hn, -, b, hb, -⟩ | ⟨b, hb, hab⟩
        · rw [hnil n bs hn] at hb
          cases hb
        · cases hab
          rw [hsplit] at hnodup
          exact (List.nodup_append.mp hnodup).2.2 a hb a List.mem_cons_self rfl
      obtain ⟨o, ho, -⟩ := (hnew' a).mpr hmem
      have hfresh : a < m'.fresh := by
        by_contra hge
        rw [(hreceiving.tidy.fresh a (by omega)).1] at ho
        cases ho
      obtain ⟨links, heq, hattached⟩ := Attached.eventAddBefore
        (m := { m' with dels := (m'.nodes, .object a) :: m'.dels, nodes := nodes })
          (k := .addObjs e) (a := a)
        (hreceiving.attached.congr rfl rfl (fun _ => id) rfl (fun _ => id) le_rfl)
          hreceiving.running
        (Function.update_self ..) hnot (by simp [Alive, EventNode.member, ho]) hfresh
      rw [Function.update_idem] at hattached
      simp only [atObject, hdel]
      rw [show Registry.eventAddBefore (.addObjs e) (.object a) _ = _ from heq]
      refine ⟨_, pre ++ [a], rest',
        ⟨htidy.congr rfl rfl rfl rfl le_rfl id, hattached, hreceiving.running,
        Function.update_self .., fun j hj bs hbs => hreceiving.others j hj bs ?_, hreceiving.listed,
        hreceiving.found⟩, by rw [hsplit]; simp, rfl, hnew'⟩
      simpa only [Function.update_of_ne hj] using hbs
  obtain ⟨l', pre, rest, hreceiving, hsplit, hend, hnew'⟩ := hwalk
  rw [List.map_eq_nil_iff.mp hend.symm] at hreceiving hsplit
  rw [List.append_nil] at hsplit
  rw [hsplit]
  exact ⟨l', hreceiving.sound, hsplit ▸ hnew'⟩

/-- The objects of a packet are added through a bus event. -/
lemma handleBusEvent (h : Receiving m l g c as) (alloc : UInt16 → Bool)
    (hnil : ∀ n bs, g n = some bs → bs = []) (hnew : ∀ b, Unregistered m b ↔ b ∈ as) :
    Idle (Registry.handleBusEvent alloc m.fresh
      (m.busEventNew.2.walkNodes (.received c) (atObject fun a m' =>
      (m'.del (.object a)).eventAddBefore (.addObjs m.fresh) (.object a)))) := by
  obtain ⟨g', hreceiving, hheads, hnil'⟩ := h.busEventNew hnil
  obtain ⟨l', hmoved, hnew'⟩ :=
    hreceiving.moveReceived (hheads (.addObjs m.fresh) (by simp [heads])) hnil' hnew
  refine Sound.handleBusEvent as [] [] hmoved alloc (Function.update_self ..)
    (by rw [Function.update_of_ne (by simp), hheads _ (by simp [heads])])
    (by rw [Function.update_of_ne (by simp), hheads _ (by simp [heads])]) hnew' fun n hn bs hbs =>
      ?_
  have hne : n ≠ .addObjs m.fresh := fun heq => hn (heq ▸ List.mem_cons_self)
  rw [Function.update_of_ne hne] at hbs
  exact hnil' n bs hbs

end Receiving

namespace Idle

/-- The objects that a bus event adds are decoded: they are in its list, and its other lists are
empty. -/
lemma decodeAddObjs (h : Idle m) (objects : List Object) : ∃ l g as,
    Sound (Registry.decodeAddObjs m.fresh objects m.busEventNew.2) l
      (Function.update g (.addObjs m.fresh) (some as)) ∧
      (∀ n ∈ heads m.fresh, g n = some []) ∧ (∀ n bs, g n = some bs → bs = []) ∧
      (∀ b, Unregistered (Registry.decodeAddObjs m.fresh objects m.busEventNew.2) b ↔ b ∈ as) ∧
      (Registry.decodeAddObjs m.fresh objects m.busEventNew.2).hash = m.hash ∧
      ∀ b ∈ as, ∀ x, (x, b) ∉ m.hash .objects := by
  obtain ⟨l, g, hsound, hall, hnil⟩ := h
  obtain ⟨g₀, h₀, hheads, hnil₀⟩ := hsound.busEventNew hnil
  obtain ⟨as, h₁, hnew, hhash, hoff⟩ :=
    h₀.decodeAddObjs objects (e := m.fresh) (hheads _ (by simp [heads]))
    (fun b => ⟨fun hb => absurd hb (hall b), nofun⟩) nofun
  exact ⟨l, g₀, as, h₁, hheads, hnil₀, hnew, hhash, hoff⟩

/-- A bus event that removes different objects is decoded: its lists are in order. -/
lemma busEventDecode (h : Idle m) (event : BusEvent)
    (hnodup : (event.removeObjs.filterMap (m.busObject ·.handle)).Nodup) : ∃ l g as vs,
      Sound (m.busEventDecode event).2 l g ∧ g (.addObjs m.fresh) = some as ∧
      g (.removeObjs m.fresh) = some (event.removeObjs.filterMap (m.busObject ·.handle)) ∧
      g (.objEvents m.fresh) = some vs ∧ (∀ b, Unregistered (m.busEventDecode event).2 b ↔ b ∈ as) ∧
      (∀ n ∉ heads m.fresh, ∀ bs, g n = some bs → bs = []) ∧
      (m.busEventDecode event).2.hash = m.hash ∧
      ∀ b ∈ as, ∀ x, (x, b) ∉ m.hash .objects := by
  obtain ⟨l, g₀, as, h₁, hheads, hnil₀, hnew, hhash, hoff⟩ := h.decodeAddObjs event.addObjs
  have hfound : ∀ x, Registry.busObject x
      (Registry.decodeAddObjs m.fresh event.addObjs m.busEventNew.2) =
      m.busObject x := fun x => by simp only [Registry.busObject, hashLookup, hhash]
  have hremove : Function.update g₀ (.addObjs m.fresh) (some as) (.removeObjs m.fresh) =
      some [] := by
    rw [Function.update_of_ne (by simp), hheads _ (by simp [heads])]
  have hno : ∀ x a, (x, a) ∈ m.hash .objects →
      ¬ EventLists.Member (Function.update g₀ (.addObjs m.fresh) (some as)) (.object a) := by
    rintro x a hx ⟨n, bs, hn, b, hb, hab⟩
    by_cases hadd : n = .addObjs m.fresh
    · subst hadd
      rw [Function.update_self, Option.some.injEq] at hn
      cases hab
      exact hoff a (hn ▸ hb) x hx
    · rw [Function.update_of_ne hadd] at hn
      rw [hnil₀ n bs hn] at hb
      cases hb
  obtain ⟨links, heq, h₂⟩ := Sound.decodeRemoveObjs event.removeObjs []
    (by rwa [← hremove, Function.update_eq_self]) (by rwa [hhash]) (by simpa only [hfound])
  simp only [hfound, List.nil_append] at h₂
  obtain ⟨vs, h₃, hobjs, hhash₃⟩ := Sound.decodeObjEvents (e := m.fresh) event.objEvents [] h₂
    (by
      rw [Function.update_of_ne (by simp), Function.update_of_ne (by simp),
        hheads _ (by simp [heads])])
  have hdecode : m.busEventDecode event = (m.fresh, Registry.decodeObjEvents m.fresh event.objEvents
      { Registry.decodeAddObjs m.fresh event.addObjs m.busEventNew.2 with
        eventNodes := links }) := by
    rw [← heq]
    rfl
  rw [hdecode]
  refine ⟨l, _, as, vs, h₃, by simp, by simp, by simp, fun b => ?_, fun n hn bs hbs => ?_,
    hhash₃.trans hhash, hoff⟩
  · rw [← hnew b]
    unfold Unregistered
    rw [hobjs]
  · have hne : n ≠ .addObjs m.fresh ∧ n ≠ .removeObjs m.fresh ∧ n ≠ .objEvents m.fresh := by
      simpa [heads] using hn
    rw [Function.update_of_ne hne.2.2, Function.update_of_ne hne.2.1,
      Function.update_of_ne hne.1] at hbs
    exact hnil₀ n bs hbs

/-- A bus event that removes different objects is decoded and handled. -/
lemma handleBusEvent (h : Idle m) (alloc : UInt16 → Bool) (event : BusEvent)
    (hnodup : (event.removeObjs.filterMap (m.busObject ·.handle)).Nodup) :
    Idle ((m.busEventDecode event).2.handleBusEvent alloc (m.busEventDecode event).1) := by
  obtain ⟨l, g, as, vs, hsound, hadd, hremove, hevents, hnew, hrest, -⟩ :=
    h.busEventDecode event hnodup
  exact hsound.handleBusEvent as _ vs alloc hadd hremove hevents hnew hrest

/-- A connection response that is accepted replaces nothing: its objects are added. -/
lemma connectionResponse (h : Idle m) (alloc : UInt16 → Bool) (status : ConrespStatus)
    (objects : List Object) : Idle (m.connectionResponse alloc status objects) := by
  obtain ⟨l, g, hsound, hall, hnil⟩ := h
  unfold Registry.connectionResponse
  split
  · exact ⟨l, g, hsound, hall, hnil⟩
  · split
    · exact ⟨l, g, hsound.of_linked
        ⟨hsound.tidy.congr rfl rfl rfl rfl le_rfl id, hsound.attached.congr rfl rfl
        (fun _ => id) rfl (fun _ => id) le_rfl, hsound.settled, hsound.running⟩ rfl rfl rfl,
          hall, hnil⟩
    · have hinit : Receiving
          { m with
            nodes := m.nodes.init (.received m.fresh), fresh := m.fresh + 1, state := .connected }
          { l with received := Function.update l.received m.fresh (some []) } g m.fresh [] := by
        refine ⟨hsound.tidy.receiveInit.congr rfl rfl rfl rfl le_rfl id,
          hsound.attached.congr rfl rfl (fun _ => id) rfl
          (fun _ => id) (Nat.le_succ _), hsound.running, Function.update_self .., fun j hj bs hbs =>
            ?_, hsound.listed,
          hsound.found⟩
        exact hsound.settled j bs (by simpa only [Function.update_of_ne hj] using hbs)
      obtain ⟨l', as, hreceived, hnew⟩ :=
        hinit.receiveObjects objects fun b => ⟨fun hb => absurd hb (hall b), nofun⟩
      exact hreceived.handleBusEvent alloc hnil hnew

/-- All registered objects are removed when the connection is lost. -/
lemma disconnectBus (h : Idle m) (alloc : UInt16 → Bool) : Idle (m.disconnectBus alloc) := by
  obtain ⟨l, g, hsound, hall, hnil⟩ := h
  obtain ⟨g₀, h₀, hheads, hnil₀⟩ := hsound.busEventNew hnil
  -- the objects that are in the bus event, and those to come
  let I (ns : List ListNode) (m' : Registry) : Prop := ∃ links pre rest,
    m' = { m.busEventNew.2 with eventNodes := links } ∧
      Attached m' (Function.update g₀ (.removeObjs m.fresh) (some pre)) ∧ l.objects = pre ++ rest ∧
      ns = rest.map .object
  have hnodup : l.objects.Nodup :=
    (List.nodup_cons.mp (h₀.tidy.circles.circle .objects _ rfl).nodup).2.of_map _
  have hobject : ∀ a ∈ l.objects, (m.objs a).isSome = true ∧ a < m.fresh := by
    intro a ha
    obtain ⟨o, ho, -⟩ := (hsound.tidy.object a).listed_iff.mp ha
    refine ⟨by rw [ho]; rfl, ?_⟩
    by_contra hge
    rw [(hsound.tidy.fresh a (by omega)).1] at ho
    cases ho
  have hlength : (l.objects.map ListNode.object).length ≤ m.busEventNew.2.fresh := by
    rw [List.length_map]
    exact hnodup.length_le fun a ha => Nat.lt_succ_of_lt (hobject a ha).2
  have hwalk : I [] (m.busEventNew.2.walkNodes .objects
      (atObject fun a m' => m'.eventAddBefore (.removeObjs m.fresh) (.object a))) := by
    refine h₀.tidy.walkNodes (n := .objects) ?_ ?_ rfl hlength
      ⟨m.busEventNew.2.eventNodes, [], l.objects, rfl, ?_, rfl,
      rfl⟩
    · rintro n rest m' ⟨links, pre, rest', rfl, -, hsplit, hns⟩
      refine ⟨l, pre.map .object, h₀.tidy.congr rfl rfl rfl rfl le_rfl id, ?_⟩
      rw [hns, ← List.map_append, ← hsplit]
      rfl
    · rintro n rest m' ⟨links, pre, rest', rfl, hattached, hsplit, hns⟩
      obtain ⟨a, rest', rfl, rfl, rfl⟩ := List.map_eq_cons_iff.mp hns.symm
      have hnot : ¬ EventLists.Member (Function.update g₀ (.removeObjs m.fresh) (some pre))
          (.object a) := by
        intro hmember
        rcases EventLists.member_update hmember with ⟨n, bs, hn, -, b, hb, -⟩ | ⟨b, hb, hab⟩
        · rw [hnil₀ n bs hn] at hb
          cases hb
        · cases hab
          rw [hsplit] at hnodup
          exact (List.nodup_append.mp hnodup).2.2 a hb a List.mem_cons_self rfl
      obtain ⟨halive, hlt⟩ := hobject a (by simp [hsplit])
      obtain ⟨links', heq, hattached'⟩ :=
        hattached.eventAddBefore h₀.running (k := .removeObjs m.fresh) (a := a)
        (Function.update_self ..) hnot halive (Nat.lt_succ_of_lt hlt)
      rw [Function.update_idem] at hattached'
      simp only [atObject]
      exact ⟨links', pre ++ [a], rest', heq, heq ▸ hattached', by rw [hsplit]; simp, rfl⟩
    · rw [← hheads (.removeObjs m.fresh) (by simp [heads]), Function.update_eq_self]
      exact h₀.attached
  obtain ⟨links, pre, rest, heq, hattached, -, -⟩ := hwalk
  have hresult : m.disconnectBus alloc = Registry.handleBusEvent alloc m.fresh
      (m.busEventNew.2.walkNodes .objects
      (atObject fun a m' => m'.eventAddBefore (.removeObjs m.fresh) (.object a))) := rfl
  rw [hresult, heq]
  rw [heq] at hattached
  have hsound' : Sound { m.busEventNew.2 with eventNodes := links } l
      (Function.update g₀ (.removeObjs m.fresh) (some pre)) :=
    h₀.of_linked ⟨h₀.tidy.congr rfl rfl rfl rfl le_rfl id, hattached, h₀.settled, h₀.running⟩
      rfl rfl rfl
  refine Sound.handleBusEvent [] pre [] hsound' alloc
    (by rw [Function.update_of_ne (by simp), hheads _ (by simp [heads])]) (Function.update_self ..)
    (by rw [Function.update_of_ne (by simp), hheads _ (by simp [heads])])
    (fun b => ⟨fun hb => absurd hb (hall b), (by rintro ⟨⟩)⟩) fun n hn bs hbs => ?_
  have hne : n ≠ .removeObjs m.fresh := fun heq => hn (by simp [heq, heads])
  rw [Function.update_of_ne hne] at hbs
  exact hnil₀ n bs hbs

/-- An acknowledgement completes a call. -/
lemma ack (h : Idle m) (handle : UInt16) : Idle (m.ack handle) := by
  obtain ⟨l, g, hsound, hall, hnil⟩ := h
  unfold Registry.ack busCall
  split
  · exact ⟨l, g, hsound, hall, hnil⟩
  · next c hc =>
    have hmem : c ∈ l.calls := by
      split at hc
      · cases hc
      · rw [← hsound.listed]
        exact List.mem_map.mpr ⟨_, hashLookup_mem hc, rfl⟩
    obtain ⟨hash, nodes, dels, calls, heq, hsound', -⟩ := hsound.complete hmem
    rw [heq]
    exact ⟨_, g, hsound', hall, hnil⟩

/-- A call is registered and sent, or it is gone again. -/
lemma call (h : Idle m) (ha : (m.objs a).isSome = true) (enabled allocCall allocEntry : Bool)
    (draws : List UInt16)
    (written : Bool) : Idle (m.call a enabled allocCall allocEntry draws written) := by
  obtain ⟨l, g, hsound, hall, hnil⟩ := h
  obtain ⟨o, ho⟩ := Option.isSome_iff_exists.mp ha
  unfold Registry.call
  simp only [ho]
  split
  · exact ⟨l, g, hsound, hall, hnil⟩
  · have hfresh := (hsound.tidy.fresh m.fresh le_rfl).2.2
    have hne : ∀ e ∈ m.hash .calls, e.2 ≠ m.fresh := by
      intro e he heq
      rw [← hsound.listed] at hfresh
      exact hfresh (List.mem_map.mpr ⟨e, he, heq⟩)
    have hnew : Sound (m.callNew a).2 l g := by
      refine ⟨⟨hsound.tidy.congr rfl rfl rfl rfl (Nat.le_succ _) id, hsound.attached.congr rfl rfl
        (fun _ => id) rfl
        (fun _ => id) (Nat.le_succ _), hsound.settled, hsound.running⟩, hsound.listed,
          fun e he => ?_⟩
      obtain ⟨call, hcall, hhandle⟩ := hsound.found e he
      exact ⟨call, (Function.update_of_ne (hne e he) _ _).trans hcall, hhandle⟩
    rcases hnew.tidy.busRegisterCall hsound.running allocEntry draws
      (Function.update_self ..) rfl hfresh
      (Nat.lt_succ_self _) with hno | ⟨x, nodes, -, hkeys, heq, htidy⟩
    · have hno' : (m.callNew a).2.busRegisterCall allocEntry draws (m.callNew a).1 =
          (false, (m.callNew a).2) := hno
      have hdestroy : (m.callNew a).2.callDestroy (m.callNew a).1 = { (m.callNew a).2 with
          calls := Function.update (m.callNew a).2.calls m.fresh none } :=
            live_of_running (by exact hsound.running)
      simp only [hno', hdestroy]
      refine ⟨l, g,
        ⟨⟨hnew.tidy.congr rfl rfl rfl rfl le_rfl id, hnew.attached.congr rfl rfl (fun _ => id) rfl
        (fun _ => id) le_rfl, hsound.settled, hsound.running⟩, hsound.listed, fun e he => ?_⟩,
          hall, hnil⟩
      obtain ⟨call, hcall, hhandle⟩ := hnew.found e he
      exact ⟨call, (Function.update_of_ne (hne e he) _ _).trans hcall, hhandle⟩
    · have heq' : (m.callNew a).2.busRegisterCall allocEntry draws (m.callNew a).1 = _ := heq
      have hregistered : Sound { (m.callNew a).2 with
          calls := Function.update (m.callNew a).2.calls m.fresh (some { obj := a, handle := x })
          hash := Function.update m.hash .calls (m.hash .calls ++ [(x, m.fresh)])
          nodes := nodes } { l with calls := l.calls ++ [m.fresh] } g := by
        refine ⟨⟨htidy, hnew.attached.congr rfl rfl (fun _ => id) rfl (fun _ => id) le_rfl,
          hsound.settled,
          hsound.running⟩, ?_, fun e he => ?_⟩
        · simp [hsound.listed]
        · simp only [Function.update_self, List.mem_append, List.mem_singleton] at he
          rcases he with he | rfl
          · obtain ⟨call, hcall, hhandle⟩ := hnew.found e he
            exact ⟨call, (Function.update_of_ne (hne e he) _ _).trans hcall, hhandle⟩
          · exact ⟨_, Function.update_self .., rfl⟩
      simp only [heq']
      split
      · exact ⟨_, g, hregistered, hall, hnil⟩
      · obtain ⟨hash, nodes', dels, calls, hcomplete, hsound', -⟩ :=
          hregistered.complete (c := m.fresh) (by simp)
        have hdone : Idle _ := ⟨_, g, hsound', hall, hnil⟩
        rw [← hcomplete] at hdone
        exact hdone

lemma busRegisterProvider (h : Idle m) (alloc : Bool) (uid : UInt16) (p : ℕ) :
    Idle (m.busRegisterProvider alloc uid p) := by
  obtain ⟨l, g, hsound, hall, hnil⟩ := h
  obtain ⟨hash, nodes, ps, heq, htidy, hhash⟩ :=
    hsound.tidy.busRegisterProvider hsound.running alloc uid p
  rw [heq]
  exact ⟨_, g, hsound.of_linked
    ⟨htidy, hsound.attached.congr rfl rfl (fun _ => id) rfl (fun _ => id) le_rfl,
    hsound.settled, hsound.running⟩ rfl (hhash .calls (by decide)) rfl, hall, hnil⟩

/-- A provider is unregistered, if none is registered in its place. -/
lemma busUnregisterProvider (h : Idle m) {uid : UInt16} {p : ℕ}
    (hp : (uid, p) ∈ m.hash .providers ∨ ∀ e ∈ m.hash .providers, e.1 ≠ uid) :
    Idle (m.busUnregisterProvider uid p) := by
  obtain ⟨l, g, hsound, hall, hnil⟩ := h
  rcases hp with hp | hnone
  · obtain ⟨hash, nodes, dels, ps, heq, htidy, hhash⟩ :=
      hsound.tidy.busUnregisterProvider hsound.running hp
    rw [heq]
    exact ⟨_, g, hsound.of_linked
      ⟨htidy, hsound.attached.congr rfl rfl (fun _ => id) rfl (fun _ => id) le_rfl,
      hsound.settled, hsound.running⟩ rfl (hhash .calls (by decide)) rfl, hall, hnil⟩
  · rcases hashRemove_cases hsound.tidy.circles .providers uid with ⟨hno, -⟩ | ⟨-, ⟨e, he, hkey⟩, -⟩
    · unfold Registry.busUnregisterProvider
      rw [hno]
      exact ⟨l, g, hsound, hall, hnil⟩
    · exact absurd hkey (hnone e he)

/-- The state of the connection does not matter. -/
lemma withState (h : Idle m) (st : ClientState) : Idle { m with state := st } := by
  obtain ⟨l, g, hsound, hall, hnil⟩ := h
  exact ⟨l, g, hsound.of_linked
    ⟨hsound.tidy.congr rfl rfl rfl rfl le_rfl id, hsound.attached.congr rfl rfl
    (fun _ => id) rfl (fun _ => id) le_rfl, hsound.settled, hsound.running⟩ rfl rfl rfl, hall, hnil⟩

lemma disconnect (h : Idle m) (alloc : UInt16 → Bool) (reconnect : Bool) :
    Idle (m.disconnect alloc reconnect) := by
  unfold Registry.disconnect
  split
  · exact ((h.withState .disconnecting).disconnectBus alloc).withState _
  · exact h.withState _

/-- An object that is announced is registered, or it is destroyed. -/
lemma add (h : Idle m) (alloc : UInt16 → Bool) (uid handle : UInt16) :
    Idle ((m.objectNew uid handle).2.addObject alloc (m.objectNew uid handle).1) := by
  obtain ⟨l, g, hsound, hall, hnil⟩ := h
  obtain ⟨hattached, hno⟩ :=
    hsound.attached.objectNew (hsound.tidy.fresh m.fresh le_rfl).1 uid handle
  have hnew : Sound (m.objectNew uid handle).2 l g := hsound.of_linked
    ⟨hsound.tidy.objectNew uid handle, hattached, hsound.settled, hsound.running⟩ rfl rfl rfl
  obtain ⟨l', g', hsound', hg', hothers, -⟩ :=
    hnew.addObject alloc (a := m.fresh) ⟨_, Function.update_self .., rfl⟩
  have hsame : g' = g := by
    rcases hg' with rfl | rfl
    · rfl
    · exact EventLists.erase_of_not_member hno
  subst hsame
  refine ⟨l', g', hsound', fun b hb => ?_, hnil⟩
  obtain ⟨⟨o, ho, hreg⟩, hne⟩ := (hothers b).mp hb
  exact hall b ⟨o, (Function.update_of_ne hne _ _).symm.trans ho, hreg⟩

/-- A known object is removed. -/
lemma remove (h : Idle m) (ha : (m.objs a).isSome = true) : Idle (m.removeObject (some a)) := by
  obtain ⟨l, g, hsound, hall, hnil⟩ := h
  obtain ⟨⟨l', hsound'⟩, hobjs, -⟩ := hsound.removeObject hall ha fun ⟨n, bs, hn, b, hb, _⟩ => by
    rw [hnil n bs hn] at hb
    cases hb
  exact ⟨l', g, hsound', hall.of_update hobjs, hnil⟩

end Idle

/-! ## Tearing down a bus -/

/-- Every call of `obus_list_del` was made on a member of a circular list. -/
structure Clean (m : Registry) : Prop where
  nodes : ∀ d ∈ m.dels, ∃ h xs, IsCircle d.1 h xs ∧ d.2 ∈ xs
  eventNodes : ∀ d ∈ m.eventDels, ∃ h xs, IsCircle d.1 h xs ∧ d.2 ∈ xs

lemma Linked.clean (h : Linked m l g) : Clean m := ⟨h.tidy.clean h.running, h.attached.clean⟩

/-- The entries of a hash table are taken out of its list one by one. -/
lemma hashDestroy_clean (t : Table) (hcircles : Circles m.nodes (l.contents m.hash)) (h : Clean m) :
    Circles (m.hashDestroy t).nodes (l.contents (m.hashDestroy t).hash) ∧
    Clean (m.hashDestroy t) := by
  have hall : ∀ (es : List (UInt16 × ℕ)) (m : Registry),
      Circles m.nodes (l.contents m.hash) → Clean m →
      Circles (es.foldl (fun m e => (m.hashRemove t e.1).2) m).nodes
        (l.contents (es.foldl (fun m e => (m.hashRemove t e.1).2) m).hash) ∧
      Clean (es.foldl (fun m e => (m.hashRemove t e.1).2) m) := by
    intro es
    induction es with
    | nil => exact fun m hcircles h => ⟨hcircles, h⟩
    | cons e es ih =>
      intro m hcircles h
      rw [List.foldl_cons]
      rcases hashRemove_cases hcircles t e.1 with ⟨hno, -⟩ | ⟨-, ⟨e', he', hkey⟩, hrem, hcircles'⟩
      · rw [hno]
        exact ih m hcircles h
      · rw [hrem]
        refine ih _ hcircles' ⟨fun d hd => ?_, h.eventNodes⟩
        rcases List.mem_cons.mp hd with rfl | hd
        · exact ⟨_, _, hcircles.circle (.entries t) _ rfl, List.mem_map.mpr ⟨e', he', by rw [hkey]⟩⟩
        · exact h.nodes d hd
  exact hall _ m hcircles h

namespace Sound

/-- A bus is cleared, if all objects in its hash table are registered. -/
lemma busClear (h : Sound m l g) (hall : ∀ e ∈ m.hash .objects, Registered m e.2) :
    ∃ l' g', Sound m.busClear l' g' := by
  obtain ⟨hash, nodes, dels, calls, cs, habort, habort', hhash, -⟩ := h.busAbortCall none
  have hobjects : hash .objects = m.hash .objects := hhash .objects (by decide)
  -- the nodes to come are those of the entries that are left
  let I (ns : List ListNode) (m' : Registry) : Prop := ∃ l' g', Sound m' l' g' ∧
    ns = (m'.hash .objects).map (fun e => .entry .objects e.1) ∧ ∀ e ∈ m'.hash .objects,
    Registered m' e.2
  have hlength : ((hash .objects).map fun e => ListNode.entry .objects e.1).length ≤ m.fresh := by
    have hdata : ((hash .objects).map Prod.snd).Nodup := by
      refine (habort'.tidy.keys_nodup .objects).of_map.map_on fun e he e' he' heq => ?_
      obtain ⟨o, ho, -, hkey⟩ := ((habort'.tidy.object e.2).keyed_iff e.1).mp he
      obtain ⟨o', ho', -, hkey'⟩ := ((habort'.tidy.object e'.2).keyed_iff e'.1).mp he'
      rw [heq] at ho
      rw [Option.mem_def.mp ho] at ho'
      cases ho'
      exact Prod.ext (hkey.symm.trans hkey') heq
    rw [List.length_map, ← List.length_map Prod.snd]
    refine hdata.length_le fun a ha => ?_
    obtain ⟨e, he, rfl⟩ := List.mem_map.mp ha
    obtain ⟨o, ho, -⟩ := ((habort'.tidy.object e.2).keyed_iff e.1).mp he
    by_contra hge
    have hnone : m.objs e.2 = none := (h.tidy.fresh e.2 (by omega)).1
    rw [Option.mem_def, hnone] at ho
    cases ho
  have hwalk : I [] m.busClear := by
    unfold Registry.busClear
    rw [habort]
    refine habort'.tidy.walkNodes (n := .entries .objects) ?_ ?_ rfl hlength
      ⟨_, g, habort', rfl, ?_⟩
    · rintro n rest m' ⟨l', g', hsound, hns, -⟩
      exact ⟨l', [], hsound.tidy, congrArg some hns.symm⟩
    · rintro n rest m' ⟨l', g', hsound, hns, hregistered⟩
      obtain ⟨⟨key, a⟩, es, hes, rfl, rfl⟩ := List.map_eq_cons_iff.mp hns.symm
      have hmem : (key, a) ∈ m'.hash .objects := hes ▸ List.mem_cons_self
      obtain ⟨o, ho, hreg⟩ := hregistered _ hmem
      obtain ⟨nodes', dels', hunregister, htidy⟩ :=
        hsound.tidy.busUnregisterObject hsound.running ho hreg
      have hlookup : m'.hashLookup .objects key = some a := hsound.tidy.lookup hmem
      have hattached : Attached { m' with
          objs := Function.update m'.objs a (some { o with isRegistered := false })
          nodes := nodes'
          dels := dels' } g' := hsound.attached.congr rfl rfl (fun _ => id) rfl
            (fun _ => isSome_update) le_rfl
      obtain ⟨hgone, hobjs, hentries, hsame⟩ :=
        Linked.objectDestroy ⟨htidy, hattached, hsound.settled, hsound.running⟩
        (Function.update_self ..) rfl
      simp only [atEntry, hlookup]
      rw [hunregister]
      have hdata : ∀ e ∈ es, e.2 ≠ a := by
        rintro e he rfl
        have hmem' : e ∈ m'.hash .objects := hes ▸ List.mem_cons_of_mem _ he
        obtain ⟨o₁, ho₁, -, hkey₁⟩ := ((hsound.tidy.object e.2).keyed_iff e.1).mp hmem'
        obtain ⟨o₂, ho₂, -, hkey₂⟩ := ((hsound.tidy.object e.2).keyed_iff key).mp hmem
        rw [Option.mem_def.mp ho₁] at ho₂
        cases ho₂
        have hnodup := hsound.tidy.keys_nodup .objects
        rw [hes, List.map_cons] at hnodup
        exact (List.nodup_cons.mp hnodup).1 (List.mem_map.mpr ⟨e, he, hkey₁.symm.trans hkey₂⟩)
      have hleft : Registry.hash (Registry.objectDestroy a { m' with
          objs := Function.update m'.objs a (some { o with isRegistered := false })
          nodes := nodes'
          dels := dels' }) .objects = es := by
        rw [hentries]
        simp only [hes, List.filter_cons, ne_eq, not_true_eq_false, decide_false,
          Bool.false_eq_true, if_false]
        exact List.filter_eq_self.mpr fun e he => by simpa using hdata e he
      refine ⟨_, _, hsound.of_linked hgone hsame.calls
        (hsame.hash .calls (by decide)) rfl, by rw [hleft], fun e he => ?_⟩
      rw [hleft] at he
      obtain ⟨o', ho', hreg'⟩ := hregistered e (hes ▸ List.mem_cons_of_mem _ he)
      refine ⟨o', ?_, hreg'⟩
      rw [hobjs, Function.update_of_ne (hdata e he)]
      exact (Function.update_of_ne (hdata e he) ..).trans ho'
    · intro e he
      exact hall e (hobjects ▸ he)
  obtain ⟨l', g', hsound, -⟩ := hwalk
  exact ⟨l', g', hsound⟩

/-- A bus is destroyed, if all objects in its hash table are registered. -/
lemma busDestroy (h : Sound m l g) (hall : ∀ e ∈ m.hash .objects, Registered m e.2) :
    Clean m.busDestroy := by
  obtain ⟨l', g', hclear⟩ := h.busClear hall
  obtain ⟨hcircles₁, hclean₁⟩ :=
    hashDestroy_clean .objects hclear.tidy.circles hclear.toLinked.clean
  obtain ⟨hcircles₂, hclean₂⟩ := hashDestroy_clean .calls hcircles₁ hclean₁
  obtain ⟨-, hclean₃⟩ := hashDestroy_clean .providers hcircles₂ hclean₂
  exact ⟨hclean₃.nodes, hclean₃.eventNodes⟩

end Sound

/-! ## Runs -/

instance (m : Registry) (a : ℕ) : Decidable (Registered m a) :=
  decidable_of_iff ((m.objs a).any ObjectMem.isRegistered = true) (Option.any_eq_true ..)

/-- When a server is destroyed, all objects on its bus are registered. -/
def RegistersAll (m : Registry) : RegistryOp → Prop
  | .destroy => ∀ e ∈ m.hash .objects, Registered m e.2
  | _ => True

/-- A bus event removes no object twice, and a provider is not unregistered in the place of another
one. -/
def RemovesOnce (m : Registry) : ClientRegistryOp → Prop
  | .packet _ (.busEvent event) => (event.removeObjs.filterMap (m.busObject ·.handle)).Nodup
  | .unregisterProvider uid p => (uid, p) ∈ m.hash .providers ∨ ∀ e ∈ m.hash .providers, e.1 ≠ uid
  | _ => True

instance (m : Registry) : ∀ op, Decidable (RegistersAll m op)
  | .destroy => inferInstanceAs (Decidable (∀ e ∈ m.hash .objects, Registered m e.2))
  | .newObject _ _ _ _ | .registerObject _ | .unregisterObject _ | .objectDestroy _ | .eventNew _ _
  | .eventDestroy _ | .busEventNew | .busEventRegisterObject _ _ | .busEventUnregisterObject _ _
  | .busEventAddEvent _ _ | .sendBusEvent _ _ _ _ | .busEventDestroy _ => .isTrue trivial

instance (m : Registry) : ∀ op, Decidable (RemovesOnce m op)
  | .packet _ (.busEvent event) =>
    inferInstanceAs (Decidable (event.removeObjs.filterMap (m.busObject ·.handle)).Nodup)
  | .unregisterProvider uid p =>
    inferInstanceAs (Decidable ((uid, p) ∈ m.hash .providers ∨ ∀ e ∈ m.hash .providers, e.1 ≠ uid))
  | .packet _ (.conreq _) | .packet _ (.conresp _ _) | .packet _ (.add _) | .packet _ (.remove _)
  | .packet _ (.event _) | .packet _ (.call _) | .packet _
    (.ack _) | .start | .registerProvider _ _ _
  | .call _ _ _ _ _ _ | .disconnect _ | .destroy _ => .isTrue trivial

lemma Serving.sound (h : Serving m l g) : Sound m l g := by
  refine ⟨h.toLinked, ?_, fun e he => ?_⟩
  · rw [h.hash .calls (by decide), h.calls]
    rfl
  · rw [h.hash .calls (by decide)] at he
    cases he

lemma Idle.clean (h : Idle m) : Clean m := by
  obtain ⟨l, g, hsound, -⟩ := h
  exact hsound.toLinked.clean

/-- What a step of a server keeps. -/
lemma Serving.perform_clean (h : Serving m l g) {op : RegistryOp} (hvalid : m.Valid op = true)
    (hC : RegistersAll m op) : Clean (m.perform op) := by
  by_cases hop : op = .destroy
  · subst hop
    exact h.sound.busDestroy hC
  · rcases h.perform hvalid hop with ⟨l', g', hserving⟩ | hcrash
    · exact hserving.toLinked.clean
    · rw [hcrash]
      exact ⟨h.toLinked.clean.nodes, h.toLinked.clean.eventNodes⟩

/-- A packet is handled, or it removes an object that is not known. -/
lemma Idle.packet (h : Idle m) (alloc : UInt16 → Bool) {info : PacketInfo}
    (hC : RemovesOnce m (.packet alloc info)) :
    Clean (m.packet alloc info) ∧
    ((m.packet alloc info).fault = false → Idle (m.packet alloc info)) := by
  have hidle : ∀ {m' : Registry}, Idle m' → Clean m' ∧ (m'.fault = false → Idle m') :=
    fun h => ⟨h.clean, fun _ => h⟩
  cases info with
  | conresp status objects => exact hidle (h.connectionResponse alloc status objects)
  | add obj => exact hidle (h.add alloc obj.desc.uid obj.handle)
  | busEvent event => exact hidle (h.handleBusEvent alloc event hC)
  | ack a => exact hidle (h.ack a.handle)
  | event _ | conreq _ | call _ => exact hidle h
  | remove obj =>
    simp only [Registry.packet]
    cases hfound : obj.bind fun r => m.busObject r.handle with
    | none =>
      obtain ⟨l, g, hsound, -⟩ := h
      obtain ⟨hash, nodes, dels, calls, cs, heq, hsound', -⟩ := hsound.busAbortCall none
      have hcrash : m.removeObject none = Registry.crash
          { m with hash := hash, nodes := nodes, dels := dels, calls := calls } :=
            congrArg crash heq
      rw [hcrash]
      exact ⟨⟨hsound'.toLinked.clean.nodes, hsound'.toLinked.clean.eventNodes⟩, nofun⟩
    | some a =>
      obtain ⟨r, -, hr⟩ := Option.bind_eq_some_iff.mp hfound
      obtain ⟨l, g, hsound, -⟩ := id h
      exact hidle (h.remove (hsound.found_alive hr).2.1)

/-- What a step of a client keeps. -/
lemma Idle.clientPerform (h : Idle m) {op : ClientRegistryOp} (hvalid : m.ClientValid op = true)
    (hC : RemovesOnce m op) : Clean (m.clientPerform op) ∧
      ((m.clientPerform op).destroyed = false → (m.clientPerform op).fault = false →
        Idle (m.clientPerform op)) := by
  have hidle : ∀ {m' : Registry}, Idle m' → Clean m' ∧
      (m'.destroyed = false → m'.fault = false → Idle m') :=
    fun h => ⟨h.clean, fun _ _ => h⟩
  cases op with
  | start =>
    simp only [Registry.clientPerform]
    split
    · exact hidle (h.withState _)
    · exact hidle h
  | registerProvider alloc uid p => exact hidle (h.busRegisterProvider alloc uid p)
  | unregisterProvider uid p => exact hidle (h.busUnregisterProvider hC)
  | call a enabled allocCall allocEntry draws written =>
    exact hidle (h.call hvalid enabled allocCall allocEntry draws written)
  | packet alloc info =>
    obtain ⟨hclean, hpacket⟩ := h.packet alloc hC
    exact ⟨hclean, fun _ => hpacket⟩
  | disconnect alloc => exact hidle (h.disconnect alloc true)
  | destroy alloc =>
    obtain ⟨l, g, hsound, hall, -⟩ := h.disconnect alloc false
    refine ⟨hsound.busDestroy fun e he => ?_, (by rintro ⟨⟩)⟩
    obtain ⟨o, ho, -⟩ := ((hsound.tidy.object e.2).keyed_iff e.1).mp he
    by_contra hreg
    exact hall e.2 ⟨o, ho, by simpa using fun htrue => hreg ⟨o, ho, htrue⟩⟩

lemma Idle.busInit : Idle busInit := by
  refine ⟨{}, fun _ => none, Serving.busInit.sound, ?_, nofun⟩
  rintro a ⟨o, ho, -⟩
  cases ho

end Registry

open Registry

/-- In every run of a server that is destroyed only with registered objects, and in every run of a
client that gets no bus event that removes an object twice and unregisters no provider in the place
of another one, every call of `obus_list_del` is made on a member of a circular list. -/
theorem list_nodes_unlinked_when_linked (ops : List RegistryOp)
    (clientOps : List ClientRegistryOp) :
    (MeetsAll registryStep RegistersAll ops busInit → ∀ m, runs registryStep ops busInit = some m →
      m.Clean) ∧
    (MeetsAll clientRegistryStep RemovesOnce clientOps busInit →
      ∀ m, runs clientRegistryStep clientOps busInit = some m → m.Clean) := by
  constructor
  · intro hC m hrun
    have hinv : m.Clean ∧ (m.destroyed = false → m.fault = false → ∃ l g, Serving m l g) := by
      refine runs_invariant (I := fun m => m.Clean ∧
        (m.destroyed = false → m.fault = false → ∃ l g, Serving m l g)) ?_
        ⟨Serving.busInit.toLinked.clean, fun _ _ => ⟨_, _, Serving.busInit⟩⟩ hC hrun
      rintro m op m' ⟨-, hserving⟩ hC hstep
      unfold registryStep at hstep
      split at hstep
      · cases hstep
      · next hguard =>
        simp only [Bool.or_eq_true, not_or, Bool.not_eq_true, Bool.not_eq_false'] at hguard
        obtain ⟨⟨hf, hdestroyed⟩, hvalid⟩ := hguard
        cases hstep
        obtain ⟨l, g, hserving⟩ := hserving hdestroyed hf
        refine ⟨hserving.perform_clean hvalid hC, fun hdestroyed' hf' => ?_⟩
        have hop : op ≠ .destroy := by
          rintro rfl
          cases hdestroyed'
        rcases hserving.perform hvalid hop with hserving' | hcrash
        · exact hserving'
        · rw [hcrash] at hf'
          cases hf'
    exact hinv.1
  · intro hC m hrun
    have hinv : m.Clean ∧ (m.destroyed = false → m.fault = false → Idle m) := by
      refine runs_invariant (I := fun m => m.Clean ∧
        (m.destroyed = false → m.fault = false → Idle m)) ?_
        ⟨Idle.busInit.clean, fun _ _ => Idle.busInit⟩ hC hrun
      rintro m op m' ⟨-, hidle⟩ hC hstep
      unfold clientRegistryStep at hstep
      split at hstep
      · cases hstep
      · next hguard =>
        simp only [Bool.or_eq_true, not_or, Bool.not_eq_true, Bool.not_eq_false'] at hguard
        cases hstep
        exact (hidle hguard.1.2 hguard.1.1).clientPerform hguard.2 hC
    exact hinv.1

theorem list_nodes_unlinked_when_linked_registered :
    (∃ m, runs registryStep [.newObject 100 true true [7], .registerObject 0, .destroy] busInit =
      some m ∧ m.Clean) ∧
    ∃ m, runs clientRegistryStep
      [.start, .packet (fun _ => true) (.conresp .accepted [plainObject]),
      .packet (fun _ => true) (.busEvent ⟨⟨1⟩, [], [plainObject.ref], []⟩), .destroy fun _ =>
        true] busInit =
        some m ∧ m.Clean :=
  ⟨⟨_, rfl, (list_nodes_unlinked_when_linked [.newObject 100 true true [7], .registerObject 0,
    .destroy] []).1
      (by decide +kernel) _ rfl⟩,
    ⟨_, rfl, (list_nodes_unlinked_when_linked []
      [.start, .packet (fun _ => true) (.conresp .accepted [plainObject]),
      .packet (fun _ => true) (.busEvent ⟨⟨1⟩, [], [plainObject.ref], []⟩),
        .destroy fun _ => true]).2
      (by decide +kernel) _ rfl⟩⟩

/-- A server that is destroyed with an object that was never registered takes a poisoned node out of
a list; so does a client that gets a bus event that removes an object twice. -/
theorem poisoned_node_unlinked :
    (¬ ∀ ops m, runs registryStep (ops ++ [.destroy]) busInit = some m → m.Clean) ∧
    ¬ ∀ ops m, runs clientRegistryStep ops busInit = some m → m.Clean := by
  constructor
  · intro h
    have hclean := h [.newObject 100 true true [7]] _ rfl
    obtain ⟨k, ns, hcircle, hmem⟩ := hclean.nodes _ List.mem_cons_self
    obtain ⟨-, n, -, hn⟩ := hcircle.linked (List.mem_cons_of_mem k hmem)
    cases hn
  · intro h
    have hclean := h [.start, .packet (fun _ => true) (.conresp .accepted [plainObject]),
      .packet (fun _ => true) (.busEvent ⟨⟨1⟩, [], [plainObject.ref, plainObject.ref], []⟩)] _ rfl
    obtain ⟨k, ns, hcircle, hmem⟩ := hclean.eventNodes _ List.mem_cons_self
    obtain ⟨-, n, -, hn⟩ := hcircle.linked (List.mem_cons_of_mem k hmem)
    cases hn

end Obus
