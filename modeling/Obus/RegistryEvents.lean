import Obus.RegistryLemmas

/-!
# The lists of the bus events

What the objects and events of a user's bus events are linked into (`Registry.Attached`): the lists
of the bus events that exist are circular, an object or event is in at most one of them, and it is
there while it lives.
-/

namespace Obus

/-- The members of the lists of bus events, by their addresses. -/
abbrev EventLists := EventNode → Option (List ℕ)

/-- The node of a member of a list. -/
def EventNode.member : EventNode → ℕ → EventNode
  | .objEvents _, v => .event v
  | _, a => .object a

namespace EventLists

/-- The lists of the nodes `event_node`, by their heads. -/
def contents (g : EventLists) (n : EventNode) : Option (List EventNode) :=
  (g n).map (List.map n.member)

/-- A node is in one of the lists. -/
def Member (g : EventLists) (x : EventNode) : Prop :=
  ∃ n as, g n = some as ∧ ∃ a ∈ as, n.member a = x

variable {g : EventLists} {k n x : EventNode} {as bs : List ℕ}

lemma contents_update (as : List ℕ) :
    contents (Function.update g k (some as)) = Function.update g.contents k
      (some (as.map k.member)) := by
  funext n
  by_cases hn : n = k
  · subst hn
    simp [contents]
  · simp [contents, Function.update_of_ne, hn]

lemma member_injective (k : EventNode) : Function.Injective k.member := by
  intro a b hab
  cases k with
  | objEvents e => exact EventNode.event.inj hab
  | _ => exact EventNode.object.inj hab

lemma outside_iff (hx : g x = none) : Outside g.contents x ↔ ¬ g.Member x := by
  constructor
  · rintro hout ⟨n, as, hn, a, ha, rfl⟩
    exact hout n (as.map n.member) (by simp [contents, hn])
      (List.mem_cons_of_mem n (List.mem_map_of_mem ha))
  · intro hno n xs hn hmem
    obtain ⟨as, has, rfl⟩ := Option.map_eq_some_iff.mp hn
    rcases List.mem_cons.mp hmem with rfl | hmem
    · rw [hx] at has
      cases has
    · obtain ⟨a, ha, rfl⟩ := List.mem_map.mp hmem
      exact hno ⟨n, as, has, a, ha, rfl⟩

/-- The lists without a node. -/
def erase (g : EventLists) (x : EventNode) : EventLists :=
  fun n => (g n).map (List.filter (n.member · ≠ x))

lemma erase_of_not_member (h : ¬ g.Member x) : g.erase x = g := by
  funext n
  cases hn : g n with
  | none => simp [erase, hn]
  | some as =>
    rw [erase, hn, Option.map_some, Option.some.injEq, List.filter_eq_self]
    intro a ha
    rw [decide_eq_true_eq]
    rintro rfl
    exact h ⟨n, as, hn, a, ha, rfl⟩

lemma member_erase (h : (g.erase x).Member n) : g.Member n ∧ n ≠ x := by
  obtain ⟨k, as, hk, a, ha, rfl⟩ := h
  obtain ⟨bs, hbs, rfl⟩ := Option.map_eq_some_iff.mp hk
  obtain ⟨hmem, hne⟩ := List.mem_filter.mp ha
  exact ⟨⟨k, bs, hbs, a, hmem, rfl⟩, by simpa using hne⟩

/-- What is in a list after one of them changed. -/
lemma member_update (h : EventLists.Member (Function.update g k (some bs)) x) :
    (∃ n as, g n = some as ∧ n ≠ k ∧ ∃ a ∈ as, n.member a = x) ∨ ∃ a ∈ bs, k.member a = x := by
  obtain ⟨n, as, hn, a, ha, rfl⟩ := h
  by_cases hnk : n = k
  · subst hnk
    rw [Function.update_self, Option.some.injEq] at hn
    exact .inr ⟨a, hn ▸ ha, rfl⟩
  · rw [Function.update_of_ne hnk] at hn
    exact .inl ⟨n, as, hn, hnk, a, ha, rfl⟩

end EventLists

namespace Registry

variable {m m' : Registry} {l : Lists} {g : EventLists} {k x : EventNode} {a v e : ℕ} {as : List ℕ}

/-- What exists is still there after a change. -/
lemma isSome_update {α : Type} {f : ℕ → Option α} {y : α} {b : ℕ} (h : (f b).isSome = true) :
    (Function.update f a (some y) b).isSome = true := by
  by_cases hba : b = a
  · subst hba
    simp
  · rwa [Function.update_of_ne hba]

/-- An object or an event exists. -/
def Alive (m : Registry) : EventNode → Prop
  | .object a => (m.objs a).isSome = true
  | .event v => (m.events v).isSome = true
  | _ => True

/-- The heads of the lists of a bus event. -/
def heads (e : ℕ) : List EventNode := [.addObjs e, .removeObjs e, .objEvents e]

/-- The pointers of the nodes `event_node` are those of the lists of the bus events, whose members
exist. -/
structure Attached (m : Registry) (g : EventLists) : Prop where
  circles : Circles m.eventNodes g.contents
  head : ∀ n as, g n = some as → ∃ e < m.fresh, n ∈ heads e
  opened : ∀ e, m.busEvents e = true → ∀ n ∈ heads e, ∃ as, g n = some as
  alive : ∀ x, g.Member x → m.Alive x
  below : ∀ n as, g n = some as → ∀ a ∈ as, a < m.fresh
  events : ∀ v, m.fresh ≤ v → m.events v = none
  clean : ∀ d ∈ m.eventDels, ∃ h xs, IsCircle d.1 h xs ∧ d.2 ∈ xs

namespace Attached

lemma object_none (h : Attached m g) (a : ℕ) : g (.object a) = none := by
  by_contra hne
  obtain ⟨as, has⟩ := Option.ne_none_iff_exists'.mp hne
  obtain ⟨e, -, he⟩ := h.head _ as has
  simp [heads] at he

lemma event_none (h : Attached m g) (v : ℕ) : g (.event v) = none := by
  by_contra hne
  obtain ⟨as, has⟩ := Option.ne_none_iff_exists'.mp hne
  obtain ⟨e, -, he⟩ := h.head _ as has
  simp [heads] at he

lemma member_none (h : Attached m g) (k : EventNode) (a : ℕ) : g (k.member a) = none := by
  cases k with
  | objEvents e => exact h.event_none a
  | _ => exact h.object_none a

/-- Only the pointers, what exists and the addresses in use matter. -/
lemma congr (h : Attached m g) (hnodes : m'.eventNodes = m.eventNodes)
    (hdels : m'.eventDels = m.eventDels)
    (hbusEvents : ∀ e, m'.busEvents e = true → m.busEvents e = true)
    (hevents : m'.events = m.events)
    (hobjs : ∀ a, (m.objs a).isSome = true → (m'.objs a).isSome = true)
    (hfresh : m.fresh ≤ m'.fresh) : Attached m' g where
  circles := hnodes ▸ h.circles
  head n as hn := by
    obtain ⟨e, he, hmem⟩ := h.head n as hn
    exact ⟨e, by omega, hmem⟩
  opened e he := h.opened e (hbusEvents e he)
  alive x hx := by
    have halive := h.alive x hx
    cases x with
    | object a => exact hobjs a halive
    | event v => rw [Alive, hevents]; exact halive
    | _ => trivial
  below n as hn a ha := (h.below n as hn a ha).trans_le hfresh
  events v hv := hevents ▸ h.events v (hfresh.trans hv)
  clean := hdels ▸ h.clean

lemma circle (h : Attached m g) (hk : g k = some as) : IsCircle m.eventNodes k (as.map k.member) :=
  h.circles.circle k _ (by simp [EventLists.contents, hk])

lemma nodup (h : Attached m g) (hk : g k = some as) : as.Nodup :=
  (List.nodup_cons.mp (h.circle hk).nodup).2.of_map _

/-- A node is in one list at most. -/
lemma unique (h : Attached m g) {n : EventNode} {bs : List ℕ} {b : ℕ} (hk : g k = some as)
    (hn : g n = some bs) (ha : a ∈ as) (hb : b ∈ bs) (hab : k.member a = n.member b) : k = n := by
  have hk' : g.contents k = some (as.map k.member) := by simp [EventLists.contents, hk]
  have hn' : g.contents n = some (bs.map n.member) := by simp [EventLists.contents, hn]
  refine h.circles.mem_unique hk' hn' (List.mem_cons_of_mem k (List.mem_map_of_mem ha)) ?_
  rw [hab]
  exact List.mem_cons_of_mem n (List.mem_map_of_mem hb)

lemma isRef_iff (h : Attached m g) (hx : g x = none) : m.eventNodes.isRef x = true ↔
    g.Member x := by
  rw [h.circles.isRef_iff, EventLists.outside_iff hx, not_not]

/-- An object or event that is in no list is added to one. -/
lemma eventAddBefore (h : Attached m g) (hf : m.fault = false) (hk : g k = some as)
    (hno : ¬ g.Member (k.member a)) (halive : m.Alive (k.member a)) (hlt : a < m.fresh) : ∃ links,
      m.eventAddBefore k (k.member a) = { m with eventNodes := links } ∧
      Attached { m with eventNodes := links } (Function.update g k (some (as ++ [a]))) := by
  have hC : g.contents k = some (as.map k.member) := by simp [EventLists.contents, hk]
  have hout := (EventLists.outside_iff (h.member_none k a)).mpr hno
  obtain ⟨-, z, -, hz⟩ := (h.circles.circle k _ hC).linked List.mem_cons_self
  refine ⟨m.eventNodes.addBefore k (k.member a), ?_,
    ⟨?_, fun n bs hn => ?_, fun e he n hn => ?_, fun x hx => ?_,
    fun n bs hn b hb => ?_, h.events, h.clean⟩⟩
  · rw [Registry.eventAddBefore, live_of_running hf]
    simp only [hz]
    rfl
  · rw [EventLists.contents_update, List.map_append]
    exact h.circles.addBefore hC hout
  · by_cases hnk : n = k
    · exact hnk ▸ h.head k as hk
    · exact h.head n bs (by rwa [Function.update_of_ne hnk] at hn)
  · by_cases hnk : n = k
    · exact ⟨_, by rw [hnk, Function.update_self]⟩
    · obtain ⟨bs, hbs⟩ := h.opened e he n hn
      exact ⟨bs, by rw [Function.update_of_ne hnk, hbs]⟩
  · rcases EventLists.member_update hx with ⟨n, bs, hn, -, hmem⟩ | ⟨b, hb, rfl⟩
    · exact h.alive x ⟨n, bs, hn, hmem⟩
    · rcases List.mem_append.mp hb with hb | hb
      · exact h.alive _ ⟨k, as, hk, b, hb, rfl⟩
      · rw [List.mem_singleton.mp hb]
        exact halive
  · by_cases hnk : n = k
    · subst hnk
      rw [Function.update_self, Option.some.injEq] at hn
      rw [← hn, List.mem_append, List.mem_singleton] at hb
      rcases hb with hb | rfl
      · exact h.below n as hk b hb
      · exact hlt
    · rw [Function.update_of_ne hnk] at hn
      exact h.below n bs hn b hb

/-- A member is taken out of its list. -/
lemma eventDel (h : Attached m g) (hf : m.fault = false) (hk : g k = some as)
    (ha : a ∈ as) : ∃ links,
      m.eventDel (k.member a) =
        { m with eventDels := (m.eventNodes, k.member a) :: m.eventDels, eventNodes := links } ∧
      Attached
        { m with eventDels := (m.eventNodes, k.member a) :: m.eventDels, eventNodes := links }
        (Function.update g k (some (as.erase a))) := by
  have hC : g.contents k = some (as.map k.member) := by simp [EventLists.contents, hk]
  have hmem : k.member a ∈ as.map k.member := List.mem_map_of_mem ha
  obtain ⟨⟨y, -, hy⟩, z, -, hz⟩ := (h.circles.circle k _ hC).linked (List.mem_cons_of_mem k hmem)
  refine ⟨m.eventNodes.del (k.member a), ?_,
    ⟨?_, fun n bs hn => ?_, fun e he n hn => ?_, fun x hx => ?_,
    fun n bs hn b hb => ?_, h.events, fun d hd => ?_⟩⟩
  · rw [Registry.eventDel, live_of_running hf]
    simp only [hy, hz]
    rfl
  · rw [EventLists.contents_update, List.map_erase (EventLists.member_injective k)]
    exact h.circles.del hC hmem
  · by_cases hnk : n = k
    · exact hnk ▸ h.head k as hk
    · exact h.head n bs (by rwa [Function.update_of_ne hnk] at hn)
  · by_cases hnk : n = k
    · exact ⟨_, by rw [hnk, Function.update_self]⟩
    · obtain ⟨bs, hbs⟩ := h.opened e he n hn
      exact ⟨bs, by rw [Function.update_of_ne hnk, hbs]⟩
  · rcases EventLists.member_update hx with ⟨n, bs, hn, -, hmem⟩ | ⟨b, hb, rfl⟩
    · exact h.alive x ⟨n, bs, hn, hmem⟩
    · exact h.alive _ ⟨k, as, hk, b, List.mem_of_mem_erase hb, rfl⟩
  · by_cases hnk : n = k
    · subst hnk
      rw [Function.update_self, Option.some.injEq] at hn
      rw [← hn] at hb
      exact h.below n as hk b (List.mem_of_mem_erase hb)
    · rw [Function.update_of_ne hnk] at hn
      exact h.below n bs hn b hb
  · rcases List.mem_cons.mp hd with rfl | hd
    · exact ⟨k, _, h.circles.circle k _ hC, hmem⟩
    · exact h.clean d hd

/-- A member that was taken out is in no list. -/
lemma not_member_of_erase (h : Attached m g) (hk : g k = some as) (ha : a ∈ as) :
    ¬ EventLists.Member (Function.update g k (some (as.erase a))) (k.member a) := by
  intro hmem
  rcases EventLists.member_update hmem with ⟨n, bs, hn, hnk, b, hb, hab⟩ | ⟨b, hb, hab⟩
  · exact hnk (h.unique hk hn ha hb hab.symm).symm
  · rw [EventLists.member_injective k hab] at hb
    exact (h.nodup hk).not_mem_erase hb

/-- An object in no list can go. -/
lemma forgetObject (h : Attached m g) (hno : ¬ g.Member (.object a)) :
    Attached { m with objs := Function.update m.objs a none } g where
  circles := h.circles
  head := h.head
  opened := h.opened
  alive x hx := by
    have halive := h.alive x hx
    cases x with
    | object b =>
      have hne : b ≠ a := by
        rintro rfl
        exact hno hx
      simpa only [Alive, Function.update_of_ne hne] using halive
    | event v => exact halive
    | _ => trivial
  below := h.below
  events := h.events
  clean := h.clean

/-- An event in no list can go. -/
lemma forgetEvent (h : Attached m g) (hno : ¬ g.Member (.event v)) :
    Attached { m with events := Function.update m.events v none } g where
  circles := h.circles
  head := h.head
  opened := h.opened
  alive x hx := by
    have halive := h.alive x hx
    cases x with
    | event b =>
      have hne : b ≠ v := by
        rintro rfl
        exact hno hx
      simpa only [Alive, Function.update_of_ne hne] using halive
    | object a => exact halive
    | _ => trivial
  below := h.below
  events b hb := by
    by_cases hbv : b = v
    · subst hbv
      exact Function.update_self ..
    · exact (Function.update_of_ne hbv _ _).trans (h.events b hb)
  clean := h.clean

/-- A new event is in no list. -/
lemma eventNew (h : Attached m g) (isAllocated : Bool) (obj : ℕ) :
    Attached (m.eventNew isAllocated obj).2 g ∧
    ¬ g.Member (.event m.fresh) := by
  have hno : ¬ g.Member (.event m.fresh) := by
    intro hmem
    have halive := h.alive _ hmem
    rw [Alive, h.events m.fresh le_rfl] at halive
    cases halive
  obtain ⟨hnext, hprev⟩ := h.circles.unlinked _ ((EventLists.outside_iff (h.event_none _)).mpr hno)
  refine ⟨⟨?_, fun n as hn => ?_, h.opened, fun x hx => ?_, fun n as hn a ha => ?_, fun v hv => ?_,
    h.clean⟩, hno⟩
  · simp only [Registry.eventNew, Links.unref_eq_self hnext hprev]
    exact h.circles
  · obtain ⟨e, he, hmem⟩ := h.head n as hn
    exact ⟨e, Nat.lt_succ_of_lt he, hmem⟩
  · have halive := h.alive x hx
    cases x with
    | event b =>
      have hne : b ≠ m.fresh := by
        rintro rfl
        exact hno hx
      simpa only [Alive, Registry.eventNew, Function.update_of_ne hne] using halive
    | object a => exact halive
    | _ => trivial
  · exact Nat.lt_succ_of_lt (h.below n as hn a ha)
  · have hv' : m.fresh + 1 ≤ v := hv
    exact (Function.update_of_ne (by omega) _ _).trans (h.events v (by omega))

/-- A new object is in no list. -/
lemma objectNew (h : Attached m g) (hfresh : m.objs m.fresh = none) (uid handle : UInt16) :
    Attached (m.objectNew uid handle).2 g ∧ ¬ g.Member (.object m.fresh) := by
  have hno : ¬ g.Member (.object m.fresh) := by
    intro hmem
    have halive := h.alive _ hmem
    rw [Alive, hfresh] at halive
    cases halive
  obtain ⟨hnext, hprev⟩ := h.circles.unlinked _ ((EventLists.outside_iff (h.object_none _)).mpr hno)
  refine ⟨⟨?_, fun n as hn => ?_, h.opened, fun x hx => ?_, fun n as hn a ha => ?_, fun v hv => ?_,
    h.clean⟩, hno⟩
  · simp only [Registry.objectNew, Links.unref_eq_self hnext hprev]
    exact h.circles
  · obtain ⟨e, he, hmem⟩ := h.head n as hn
    exact ⟨e, Nat.lt_succ_of_lt he, hmem⟩
  · have halive := h.alive x hx
    cases x with
    | object b =>
      have hne : b ≠ m.fresh := by
        rintro rfl
        exact hno hx
      simpa only [Alive, Registry.objectNew, Function.update_of_ne hne] using halive
    | event a => exact halive
    | _ => trivial
  · exact Nat.lt_succ_of_lt (h.below n as hn a ha)
  · exact h.events v (Nat.le_of_succ_le hv)

/-- A new list of a bus event. -/
lemma init (h : Attached m g) (hk : g k = none) (he : e < m.fresh) (hmem : k ∈ heads e) :
    Attached { m with eventNodes := m.eventNodes.init k } (Function.update g k (some [])) := by
  have hno : ¬ g.Member k := by
    rintro ⟨n, as, -, a, -, rfl⟩
    cases n <;> simp [heads, EventNode.member] at hmem
  refine ⟨?_, fun n bs hn => ?_, fun d hd n hn => ?_, fun x hx => ?_, fun n bs hn b hb => ?_,
    h.events, h.clean⟩
  · rw [EventLists.contents_update]
    exact h.circles.init ((EventLists.outside_iff hk).mpr hno)
  · by_cases hnk : n = k
    · exact ⟨e, he, hnk ▸ hmem⟩
    · exact h.head n bs (by rwa [Function.update_of_ne hnk] at hn)
  · by_cases hnk : n = k
    · exact ⟨_, by rw [hnk, Function.update_self]⟩
    · obtain ⟨bs, hbs⟩ := h.opened d hd n hn
      exact ⟨bs, by rw [Function.update_of_ne hnk, hbs]⟩
  · rcases EventLists.member_update hx with ⟨n, bs, hn, -, hmem'⟩ | ⟨b, hb, -⟩
    · exact h.alive x ⟨n, bs, hn, hmem'⟩
    · cases hb
  · by_cases hnk : n = k
    · subst hnk
      rw [Function.update_self, Option.some.injEq] at hn
      rw [← hn] at hb
      cases hb
    · rw [Function.update_of_ne hnk] at hn
      exact h.below n bs hn b hb

/-- A list with a head that was not in use. -/
lemma none_of_fresh (h : Attached m g) (hk : k ∈ heads e) (he : m.fresh ≤ e) : g k = none := by
  by_contra hne
  obtain ⟨as, has⟩ := Option.ne_none_iff_exists'.mp hne
  obtain ⟨d, hd, hmem⟩ := h.head k as has
  have heq : d = e := by
    simp only [heads, List.mem_cons, List.not_mem_nil, or_false] at hk hmem
    rcases hk with rfl | rfl | rfl <;> simpa [eq_comm] using hmem
  omega

/-- The lists of a new bus event are empty. -/
lemma busEventNew (h : Attached m g) : Attached m.busEventNew.2
    (Function.update (Function.update (Function.update g (.addObjs m.fresh) (some []))
      (.removeObjs m.fresh) (some [])) (.objEvents m.fresh) (some [])) := by
  have hfresh : Attached { m with fresh := m.fresh + 1 } g :=
    h.congr rfl rfl (fun _ => id) rfl (fun _ => id) (Nat.le_succ _)
  have hadd := hfresh.init (k := .addObjs m.fresh) (h.none_of_fresh (by simp [heads]) le_rfl)
    (Nat.lt_succ_self _)
    (by simp [heads])
  have hremove := hadd.init (k := .removeObjs m.fresh) (e := m.fresh)
    (by simpa using h.none_of_fresh (e := m.fresh) (by simp [heads]) le_rfl) (Nat.lt_succ_self _)
      (by simp [heads])
  have hevents := hremove.init (k := .objEvents m.fresh) (e := m.fresh)
    (by simpa using h.none_of_fresh (e := m.fresh) (by simp [heads]) le_rfl) (Nat.lt_succ_self _)
      (by simp [heads])
  refine ⟨hevents.circles, hevents.head, fun e he n hn => ?_, hevents.alive, hevents.below,
    hevents.events,
    hevents.clean⟩
  by_cases heq : e = m.fresh
  · subst heq
    simp only [heads, List.mem_cons, List.not_mem_nil, or_false] at hn
    rcases hn with rfl | rfl | rfl
    · exact ⟨[], by simp⟩
    · exact ⟨[], by simp⟩
    · exact ⟨[], by simp⟩
  · exact hevents.opened e (by simpa [Registry.busEventNew, Function.update_of_ne, heq] using he) n
      hn

/-- If all lists are empty, so are they with those of a new bus event. -/
lemma busEventNew_nil (h : Attached m g) (hnil : ∀ n as, g n = some as → as = []) : ∃ g',
    Attached m.busEventNew.2 g' ∧ (∀ n ∈ heads m.fresh, g' n = some []) ∧ ∀ n as, g' n = some as →
    as = [] := by
  refine ⟨_, h.busEventNew, fun n hn => ?_, fun n as hn => ?_⟩
  · simp only [heads, List.mem_cons, List.not_mem_nil, or_false] at hn
    rcases hn with rfl | rfl | rfl
    · simp
    · simp
    · simp
  · by_cases hmem : n ∈ heads m.fresh
    · simp only [heads, List.mem_cons, List.not_mem_nil, or_false] at hmem
      rcases hmem with rfl | rfl | rfl <;> simpa using hn.symm
    · have hne : n ≠ .addObjs m.fresh ∧ n ≠ .removeObjs m.fresh ∧ n ≠ .objEvents m.fresh := by
        simpa [heads] using hmem
      rw [Function.update_of_ne hne.2.2, Function.update_of_ne hne.2.1,
        Function.update_of_ne hne.1] at hn
      exact hnil n as hn

/-! ## Walks along the lists of a bus event -/

/-- A walk along a list of a bus event visits its members in order, if the body at a member leaves
the members to come linked behind it. -/
lemma walkEvents {I : List ℕ → Registry → Prop} {f : EventNode → Registry → Registry}
    (hnext : ∀ a rest m, I (a :: rest) m → ∃ g pre, Attached m g ∧ g k = some (pre ++ a :: rest))
    (hbody : ∀ a rest m, I (a :: rest) m → I rest (f (k.member a) m)) (h : Attached m g)
    (hk : g k = some as) (hs : I as m) : I [] (m.walkEvents k f) := by
  have hcircle := h.circle hk
  have hlength : (as.map k.member).length < m.fresh + 1 := by
    rw [List.length_map, Nat.lt_succ_iff]
    exact (h.nodup hk).length_le (h.below k as hk)
  have hwalk : ∃ bs, [] = bs.map k.member ∧ I bs (m.walkEvents k f) := by
    rw [Registry.walkEvents, hcircle.next_eq]
    refine walkSafe_members (I := fun ns m => ∃ bs, ns = bs.map k.member ∧ I bs m) ?_ ?_
      ⟨as, rfl, hs⟩ hlength
    · rintro n rest m ⟨bs, hbs, hI⟩
      obtain ⟨a, bs, rfl, rfl, rfl⟩ := List.map_eq_cons_iff.mp hbs.symm
      obtain ⟨g, pre, hg, hk⟩ := hnext a bs m hI
      have hmem := hg.circle hk
      rw [List.map_append, List.map_cons] at hmem
      exact IsCircle.next_mem _ hmem
    · rintro n rest m ⟨bs, hbs, hI⟩
      obtain ⟨a, bs, rfl, rfl, rfl⟩ := List.map_eq_cons_iff.mp hbs.symm
      exact ⟨bs, rfl, hbody a bs m hI⟩
  obtain ⟨bs, hbs, hI⟩ := hwalk
  rwa [List.map_eq_nil_iff.mp hbs.symm] at hI

/-- Such a walk runs its body once on each member, in order. -/
lemma walkEvents_eq_foldl {I : List ℕ → Registry → Prop} {f : EventNode → Registry → Registry}
    (hnext : ∀ a rest m, I (a :: rest) m → ∃ g pre, Attached m g ∧ g k = some (pre ++ a :: rest))
    (hbody : ∀ a rest m, I (a :: rest) m → I rest (f (k.member a) m)) (h : Attached m g)
    (hk : g k = some as)
    (hs : I as m) : m.walkEvents k f = as.foldl (fun m a => f (k.member a) m) m :=
  (h.walkEvents (I := fun rest t => I rest t ∧
      rest.foldl (fun m a => f (k.member a) m) t = as.foldl (fun m a => f (k.member a) m) m)
    (fun a rest t ht => hnext a rest t ht.1) (fun a rest t ht => ⟨hbody a rest t ht.1, ht.2⟩) hk
      ⟨hs, rfl⟩).2

/-- There is nothing to do along an empty list. -/
lemma walkEvents_nil (h : Attached m g) (hk : g k = some []) (f : EventNode → Registry → Registry) :
    m.walkEvents k f = m := by
  rw [Registry.walkEvents, (h.circle hk).next_eq]
  exact if_pos rfl

/-- The same for a walk whose body leaves the list as it is. -/
lemma followEvents {I : List ℕ → Registry → Prop} {f : EventNode → Registry → Registry}
    (hbody : ∀ a rest m, I (a :: rest) m → I rest (f (k.member a) m) ∧
      ∃ g pre, Attached (f (k.member a) m) g ∧ g k = some (pre ++ a :: rest)) (h : Attached m g)
    (hk : g k = some as) (hs : I as m) : I [] (m.followEvents k f) := by
  have hcircle := h.circle hk
  have hlength : (as.map k.member).length < m.fresh + 1 := by
    rw [List.length_map, Nat.lt_succ_iff]
    exact (h.nodup hk).length_le (h.below k as hk)
  have hwalk : ∃ bs, [] = bs.map k.member ∧ I bs (m.followEvents k f) := by
    rw [Registry.followEvents, hcircle.next_eq]
    refine walk_members (I := fun ns m => ∃ bs, ns = bs.map k.member ∧ I bs m) ?_
      ⟨as, rfl, hs⟩ hlength
    rintro n rest m ⟨bs, hbs, hI⟩
    obtain ⟨a, bs, rfl, rfl, rfl⟩ := List.map_eq_cons_iff.mp hbs.symm
    obtain ⟨hI', g, pre, hg, hk⟩ := hbody a bs m hI
    have hmem := hg.circle hk
    rw [List.map_append, List.map_cons] at hmem
    obtain ⟨hne, hnext⟩ := IsCircle.next_mem _ hmem
    exact ⟨hne, hnext, bs, rfl, hI'⟩
  obtain ⟨bs, hbs, hI⟩ := hwalk
  rwa [List.map_eq_nil_iff.mp hbs.symm] at hI

/-- A test of the members of a list tells whether all pass, unless it needs something that is gone.
-/
lemma checkNodes (h : Attached m g) (hk : g k = some as)
    (test : EventNode → Registry → Option Bool) :
    (∃ ok, m.checkNodes k test = (ok, m) ∧
      (ok = true ↔ ∀ a ∈ as, test (k.member a) m = some true)) ∨
      (m.checkNodes k test).2 = m.crash ∧ ∃ a ∈ as, test (k.member a) m = none := by
  have hcircle := h.circle hk
  have hlength : (as.map k.member).length < m.fresh + 1 := by
    rw [List.length_map, Nat.lt_succ_iff]
    exact (h.nodup hk).length_le (h.below k as hk)
  -- the members before `rest` passed, or one of them did not
  let I (rest : List EventNode) (s : Bool × Registry) : Prop :=
    s.2 = m ∧ ∃ pre post, as = pre ++ post ∧ rest = post.map k.member ∧
      (s.1 = true ↔ ∀ a ∈ pre, test (k.member a) m = some true)
  let P (s : Bool × Registry) : Prop := s.2 = m.crash ∧ ∃ a ∈ as, test (k.member a) m = none
  have hwalk : I [] (m.checkNodes k test) ∨ P (m.checkNodes k test) := by
    rw [Registry.checkNodes, hcircle.next_eq]
    refine walk_members_or ?_ ?_ ?_ ⟨rfl, [], as, rfl, rfl, fun _ _ => nofun, fun _ => rfl⟩ hlength
    · rintro n ⟨ok, m'⟩ ⟨heq, hnone⟩
      cases ok with
      | false => exact ⟨heq, hnone⟩
      | true =>
        simp only [Bool.not_true, Bool.false_eq_true, if_false]
        split
        · exact ⟨(congrArg Registry.crash heq : m'.crash = m.crash.crash), hnone⟩
        · exact ⟨heq, hnone⟩
    · rintro ⟨ok, m'⟩ ⟨heq, hnone⟩
      exact ⟨(congrArg Registry.crash heq : m'.crash = m.crash.crash), hnone⟩
    · rintro n rest ⟨ok, m'⟩ ⟨heq, pre, post, hsplit, hrest, hpassed⟩
      obtain ⟨a, bs, rfl, rfl, rfl⟩ := List.map_eq_cons_iff.mp hrest.symm
      have hmem := hcircle
      rw [hsplit, List.map_append, List.map_cons] at hmem
      obtain ⟨hne, hnext⟩ := IsCircle.next_mem _ hmem
      have hsplit' : as = (pre ++ [a]) ++ bs := by rw [hsplit]; simp
      subst heq
      cases ok with
      | false =>
        refine ⟨hne, hnext, .inl ⟨rfl, pre ++ [a], bs, hsplit', rfl, nofun, fun hall => ?_⟩⟩
        exact hpassed.mpr fun b hb => hall b (List.mem_append_left _ hb)
      | true =>
        cases htest : test (k.member a) m' with
        | none =>
          simp only [Bool.not_true, Bool.false_eq_true, if_false]
          exact ⟨hne, hnext, .inr ⟨rfl, a, by rw [hsplit]; simp, htest⟩⟩
        | some passed =>
          simp only [Bool.not_true, Bool.false_eq_true, if_false]
          refine ⟨hne, hnext, .inl ⟨rfl, pre ++ [a], bs, hsplit', rfl, fun hok b hb => ?_,
            fun hall => ?_⟩⟩
          · rcases List.mem_append.mp hb with hb | hb
            · exact hpassed.mp rfl b hb
            · rw [List.mem_singleton.mp hb]
              exact htest.trans (congrArg some hok)
          · have hlast := hall a (List.mem_append_right pre (List.mem_singleton_self a))
            exact Option.some.inj (htest.symm.trans hlast)
  rcases hwalk with ⟨heq, pre, post, hsplit, hnil, hpassed⟩ | hend
  · rw [List.map_eq_nil_iff.mp hnil.symm, List.append_nil] at hsplit
    exact .inl ⟨(m.checkNodes k test).1, Prod.ext rfl heq, hsplit ▸ hpassed⟩
  · exact .inr hend

end Attached

/-- Taking a member out of its list takes it out of all lists. -/
lemma Attached.erase_eq (h : Attached m g) (hk : g k = some as) (ha : a ∈ as) :
    Function.update g k (some (as.erase a)) = g.erase (k.member a) := by
  funext n
  by_cases hnk : n = k
  · subst hnk
    rw [Function.update_self, EventLists.erase, hk, Option.map_some, (h.nodup hk).erase_eq_filter]
    refine congrArg some (List.filter_congr fun b _ => ?_)
    rw [Bool.eq_iff_iff, bne_iff_ne, decide_eq_true_eq]
    exact not_congr (EventLists.member_injective n).eq_iff.symm
  · rw [Function.update_of_ne hnk]
    cases hn : g n with
    | none => simp [EventLists.erase, hn]
    | some bs =>
      rw [EventLists.erase, hn, Option.map_some, Option.some.injEq, eq_comm, List.filter_eq_self]
      intro b hb
      rw [decide_eq_true_eq]
      exact fun heq => hnk (h.unique hn hk hb ha heq)

/-! ## Destroying what is in a list -/

/-- The lists and tables of a bus and the lists of the bus events are in order, and there was no
fault. -/
structure Linked (m : Registry) (l : Lists) (g : EventLists) : Prop where
  tidy : Tidy m l
  attached : Attached m g
  settled : l.Settled
  running : m.fault = false

/-- What the operations on the objects of a bus leave as it is. -/
structure SameElse (m m' : Registry) : Prop where
  calls : m'.calls = m.calls
  events : m'.events = m.events
  busEvents : m'.busEvents = m.busEvents
  fresh : m'.fresh = m.fresh
  state : m'.state = m.state
  destroyed : m'.destroyed = m.destroyed
  hash : ∀ t ≠ .objects, m'.hash t = m.hash t

lemma SameElse.trans {m'' : Registry} (h : SameElse m m') (h' : SameElse m' m'') :
    SameElse m m'' where
  calls := h'.calls.trans h.calls
  events := h'.events.trans h.events
  busEvents := h'.busEvents.trans h.busEvents
  fresh := h'.fresh.trans h.fresh
  state := h'.state.trans h.state
  destroyed := h'.destroyed.trans h.destroyed
  hash t ht := (h'.hash t ht).trans (h.hash t ht)

namespace Linked

variable {o : ObjectMem}

/-- Taking a node out of the lists of the bus events, if it is in one. -/
lemma unattach (h : Linked m l g) (hx : ∃ k a, x = EventNode.member k a) : ∃ links ds,
    (if m.eventNodes.isRef x then m.eventDel x else m) =
      { m with eventNodes := links, eventDels := ds } ∧
      Linked { m with eventNodes := links, eventDels := ds } l (g.erase x) := by
  have hnone : g x = none := by
    obtain ⟨k, a, rfl⟩ := hx
    exact h.attached.member_none k a
  split
  · next href =>
    obtain ⟨k, as, hk, a, ha, rfl⟩ := (h.attached.isRef_iff hnone).mp href
    obtain ⟨links, hdel, hattached⟩ := h.attached.eventDel h.running hk ha
    rw [h.attached.erase_eq hk ha] at hattached
    exact ⟨links, _, hdel, h.tidy.congr rfl rfl rfl rfl le_rfl id, hattached, h.settled, h.running⟩
  · next href =>
    rw [EventLists.erase_of_not_member fun hmem => href ((h.attached.isRef_iff hnone).mpr hmem)]
    exact ⟨m.eventNodes, m.eventDels, rfl, h⟩

/-- Destroying an object that is not registered takes it out of everything. -/
lemma objectDestroy (h : Linked m l g) (ha : m.objs a = some o) (hreg : o.isRegistered = false) :
    Linked (m.objectDestroy a) l (g.erase (.object a)) ∧
      (m.objectDestroy a).objs = Function.update m.objs a none ∧
      (m.objectDestroy a).hash .objects = (m.hash .objects).filter (·.2 ≠ a) ∧
      SameElse m (m.objectDestroy a) := by
  obtain ⟨hash, nodes, dels, heq, htidy, hhash⟩ := h.tidy.busRemoveObject h.running ha hreg
  have hremoved : Linked { m with
      objs := Function.update m.objs a (some { o with bus := false })
      hash := hash
      nodes := nodes
      dels := dels } l g :=
    ⟨htidy, h.attached.congr rfl rfl (fun _ => id) rfl (fun _ => isSome_update) le_rfl, h.settled,
      h.running⟩
  obtain ⟨links, ds, hdel, hlinked⟩ := hremoved.unattach (x := .object a) ⟨.addObjs 0, a, rfl⟩
  have hresult : m.objectDestroy a = { m with
      objs := Function.update m.objs a none
      hash := hash
      nodes := nodes
      dels := dels
      eventNodes := links
      eventDels := ds } := by
    unfold Registry.objectDestroy
    simp only [ha, hreg, Bool.false_eq_true, if_false]
    rw [heq, hdel, live_of_running (by exact h.running)]
    simp only [Function.update_idem]
  have hforget := hlinked.tidy.forget (Function.update_self ..) hreg rfl h.settled.not_waiting
  simp only [Function.update_idem] at hforget
  have hgone : ¬ (g.erase (.object a)).Member (.object a) :=
    fun hmem => (EventLists.member_erase hmem).2 rfl
  have hattached := hlinked.attached.forgetObject hgone
  simp only [Function.update_idem] at hattached
  rw [hresult]
  exact ⟨⟨hforget, hattached, h.settled, h.running⟩, rfl, (congrFun hhash .objects).trans
    (Function.update_self ..),
    rfl, rfl, rfl, rfl, rfl, rfl, fun t ht => (congrFun hhash t).trans
      (Function.update_of_ne ht ..)⟩

/-- Destroying an event takes it out of its bus event, if it was allocated. -/
lemma eventDestroy (h : Linked m l g) {ev : EventMem} (hv : m.events v = some ev) : ∃ links ds es,
    m.eventDestroy v = { m with eventNodes := links, eventDels := ds, events := es } ∧
      Linked { m with eventNodes := links, eventDels := ds, events := es } l
        (if ev.isAllocated then g.erase (.event v) else g) := by
  unfold Registry.eventDestroy
  simp only [hv]
  cases ev.isAllocated with
  | false => exact ⟨m.eventNodes, m.eventDels, m.events, rfl, h⟩
  | true =>
    obtain ⟨links, ds, hdel, hlinked⟩ := h.unattach (x := .event v) ⟨.objEvents 0, v, rfl⟩
    have hgone : ¬ (g.erase (.event v)).Member (.event v) :=
      fun hmem => (EventLists.member_erase hmem).2 rfl
    refine ⟨links, ds, Function.update m.events v none, ?_,
      hlinked.tidy.congr rfl rfl rfl rfl le_rfl id,
      hlinked.attached.forgetEvent hgone, h.settled, h.running⟩
    exact (congrArg (live fun m => { m with events := Function.update m.events v none }) hdel).trans
      (live_of_running (by exact h.running))

/-- Taking all members out of a list, with something done to each of them once it is out. -/
lemma unlinkAll {Q : List ℕ → Registry → Lists → Prop} {f : ℕ → Registry → Registry}
    {F : EventNode → Registry → Registry}
    (hF : ∀ a m, F (k.member a) m = f a (m.eventDel (k.member a)))
    (hQ : ∀ as m l links ds, Q as m l → Q as { m with eventNodes := links, eventDels := ds } l)
    (hf : ∀ a rest m l, Linked m l (Function.update g k (some rest)) → Q (a :: rest) m l →
      ¬ EventLists.Member (Function.update g k (some rest)) (k.member a) → m.Alive (k.member a) →
      ∃ l', Linked (f a m) l' (Function.update g k (some rest)) ∧ Q rest (f a m) l')
    (h : Linked m l g) (hk : g k = some as) (hs : Q as m l) :
    (∃ l', Linked (m.walkEvents k F) l' (Function.update g k (some [])) ∧
      Q [] (m.walkEvents k F) l') ∧
      m.walkEvents k F = as.foldl (fun m a => F (k.member a) m) m := by
  let I (rest : List ℕ) (m : Registry) : Prop :=
    ∃ l, Linked m l (Function.update g k (some rest)) ∧ Q rest m l
  have hnext : ∀ a rest m, I (a :: rest) m → ∃ g pre, Attached m g ∧
      g k = some (pre ++ a :: rest) := by
    rintro a rest m ⟨l, hl, -⟩
    exact ⟨_, [], hl.attached, Function.update_self ..⟩
  have hbody : ∀ a rest m, I (a :: rest) m → I rest (F (k.member a) m) := by
    rintro a rest m ⟨l, hl, hs⟩
    obtain ⟨links, hdel, hattached⟩ :=
      hl.attached.eventDel hl.running (Function.update_self ..) List.mem_cons_self
    have hno := hl.attached.not_member_of_erase (Function.update_self ..) List.mem_cons_self
    have halive : m.Alive (k.member a) :=
      hl.attached.alive _ ⟨k, _, Function.update_self .., a, List.mem_cons_self, rfl⟩
    rw [Function.update_idem, List.erase_cons_head] at hattached hno
    rw [hF, hdel]
    exact hf a rest _ l ⟨hl.tidy.congr rfl rfl rfl rfl le_rfl id, hattached, hl.settled, hl.running⟩
      (hQ _ _ _ _ _ hs) hno (by cases k <;> exact halive)
  have hI : I as m := ⟨l, by rwa [← hk, Function.update_eq_self], hs⟩
  exact ⟨h.attached.walkEvents hnext hbody hk hI, h.attached.walkEvents_eq_foldl hnext hbody hk hI⟩

end Linked

end Registry
end Obus
