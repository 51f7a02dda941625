import Obus.Lib.Run
import Obus.RegistryServer

/-!
# The tables of a client agree

Whatever a client receives and whatever its user does, the lists of its bus and its tables agree
(`Registry.Tidied.step`).  Nothing is asked of the lists of a bus event: wherever they lead, an
object that is visited is added, removed or destroyed as a whole, or the program stops.

`tables_agree` says it of all runs of a server and of a client.
-/

namespace Obus
namespace Registry

variable {m m' : Registry} {l : Lists} {a c : ℕ} {t : Table} {key : UInt16}

/-- The lists of a bus and its tables agree, and the lists of packets are empty if there was no
fault. -/
def Tidied (m : Registry) : Prop := ∃ l : Lists, Tidy m l ∧ (m.fault = false → l.Settled)

namespace Tidied

variable {f : Registry → Registry}

lemma congr (h : Tidied m) (hnodes : m'.nodes = m.nodes) (hobjs : m'.objs = m.objs)
    (hhash : m'.hash = m.hash)
    (hdels : m'.dels = m.dels) (hfresh : m.fresh ≤ m'.fresh)
    (hfault : m'.fault = false → m.fault = false) : Tidied m' := by
  obtain ⟨l, hl, hsettled⟩ := h
  exact ⟨l, hl.congr hnodes hobjs hhash hdels hfresh hfault, fun hf => hsettled (hfault hf)⟩

lemma crash (h : Tidied m) : Tidied m.crash := h.congr rfl rfl rfl rfl le_rfl nofun

lemma eventDel (h : Tidied m) (n : EventNode) : Tidied (m.eventDel n) := by
  obtain ⟨links, ds, f, heq, hf⟩ := eventDel_frame n m
  rw [heq]
  exact h.congr rfl rfl rfl rfl le_rfl hf

lemma eventAddBefore (h : Tidied m) (k n : EventNode) : Tidied (m.eventAddBefore k n) := by
  obtain ⟨links, f, heq, hf⟩ := eventAddBefore_frame k n m
  rw [heq]
  exact h.congr rfl rfl rfl rfl le_rfl hf

lemma live (h : Tidied m) (hf : m.fault = false → Tidied (f m)) : Tidied (m.live f) := by
  unfold Registry.live
  split
  · exact h
  · next hrun => exact hf (by simpa using hrun)

lemma eventDestroy (h : Tidied m) (v : ℕ) : Tidied (m.eventDestroy v) := by
  unfold Registry.eventDestroy
  split
  · exact h.crash
  · split
    · exact h
    · have hdel : Tidied (if m.eventNodes.isRef (.event v) then m.eventDel (.event v) else m) := by
        split
        · exact h.eventDel _
        · exact h
      exact hdel.live fun _ => hdel.congr rfl rfl rfl rfl le_rfl id

lemma callDestroy (h : Tidied m) (c : ℕ) : Tidied (m.callDestroy c) :=
  h.live fun _ => h.congr rfl rfl rfl rfl le_rfl id

/-- Taking out a call changes the list of calls, or it is a fault. -/
lemma delCall (h : Tidied m) (c : ℕ) : Tidied (m.del (.call c)) := by
  cases hf : m.fault with
  | true => rwa [del, live_of_fault hf]
  | false =>
    obtain ⟨l, hl, hsettled⟩ := h
    by_cases hmem : c ∈ l.calls
    · obtain ⟨hdel, hcircles⟩ :=
        del_of_mem (k := .calls) hl.circles hf rfl (List.mem_map_of_mem hmem)
      rw [hdel]
      refine ⟨{ l with calls := l.calls.erase c },
        ⟨?_, hl.object, fun a ha => ?_, hl.providers, fun hf d hd => ?_⟩,
        hsettled⟩
      · rw [Lists.contents_calls, List.map_erase (fun _ _ => ListNode.call.inj)]
        exact hcircles
      · obtain ⟨hobjs, hreceived, hcalls⟩ := hl.fresh a ha
        exact ⟨hobjs, hreceived, fun hin => hcalls (List.mem_of_mem_erase hin)⟩
      · rcases List.mem_cons.mp hd with rfl | hd
        · exact ⟨_, _, hl.circles.circle .calls _ rfl, List.mem_map_of_mem hmem⟩
        · exact hl.clean hf d hd
    · rw [del_of_outside hl.circles hf (Lists.outside_call.mpr hmem)]
      exact ⟨l, ⟨hl.circles, hl.object, hl.fresh, (by rintro ⟨⟩), (by rintro ⟨⟩)⟩, (by rintro ⟨⟩)⟩

/-- Taking an entry out of another table than that of the objects. -/
lemma hashRemove (h : Tidied m) (ht : t ≠ .objects) (key : UInt16) :
    Tidied { (m.hashRemove t key).2 with fault := true } ∧
      (t = .calls → Tidied (m.hashRemove t key).2) := by
  obtain ⟨l, hl, hsettled⟩ := h
  rcases hashRemove_cases hl.circles t key with ⟨hno, -⟩ | ⟨hf, ⟨e, he, hkey⟩, hrem, hcircles⟩
  · rw [hno]
    exact ⟨⟨l, hl.crash, nofun⟩, fun _ => ⟨l, hl, hsettled⟩⟩
  · have hobject : ∀ a, ObjectOk (a ∈ l.objects)
        (fun h => (h, a) ∈ Function.update m.hash t ((m.hash t).filter (·.1 ≠ key)) .objects)
          (l.Waiting a)
        (m.objs a) := by
      rw [Function.update_of_ne ht.symm]
      exact hl.object
    rw [hrem]
    refine ⟨⟨l, ⟨hcircles, hobject, hl.fresh, nofun, nofun⟩, nofun⟩, fun hcalls => ?_⟩
    subst hcalls
    refine ⟨l, ⟨hcircles, hobject, hl.fresh, fun hf => ?_, fun hf d hd => ?_⟩, hsettled⟩
    · simp only [Function.update_of_ne (show Table.providers ≠ Table.calls by decide)]
      exact hl.providers hf
    · rcases List.mem_cons.mp hd with rfl | hd
      · exact ⟨_, _, hl.circles.circle (.entries .calls) _ rfl,
          List.mem_map.mpr ⟨e, he, by rw [hkey]⟩⟩
      · exact hl.clean hf d hd

lemma busUnregisterCall (h : Tidied m) (c : ℕ) : Tidied (m.busUnregisterCall c) := by
  unfold Registry.busUnregisterCall
  split
  · exact h.crash
  · next call _ =>
    have hrem := (h.hashRemove (show Table.calls ≠ Table.objects by decide) call.handle).2 rfl
    split
    · next heq =>
      rw [heq] at hrem
      exact hrem.delCall c
    · next heq =>
      rw [heq] at hrem
      exact hrem

lemma walkNodes (h : Tidied m) {k : ListNode} {body : ListNode → Registry → Registry}
    (hbody : ∀ n m, Tidied m → Tidied (body n m)) : Tidied (m.walkNodes k body) :=
  walkSafe_invariant hbody (fun _ => crash) _ _ m h

lemma walkEvents (h : Tidied m) {k : EventNode} {body : EventNode → Registry → Registry}
    (hbody : ∀ n m, Tidied m → Tidied (body n m)) : Tidied (m.walkEvents k body) :=
  walkSafe_invariant hbody (fun _ => crash) _ _ m h

lemma atObject {f : ℕ → Registry → Registry} (hf : ∀ a m, Tidied m → Tidied (f a m)) (n : ListNode)
    (m : Registry) (h : Tidied m) : Tidied (atObject f n m) := by
  unfold Registry.atObject
  split
  · exact hf _ _ h
  · exact h.crash

lemma atCall {f : ℕ → Registry → Registry} (hf : ∀ c m, Tidied m → Tidied (f c m)) (n : ListNode)
    (m : Registry) (h : Tidied m) : Tidied (atCall f n m) := by
  unfold Registry.atCall
  split
  · exact hf _ _ h
  · exact h.crash

lemma busAbortCall (h : Tidied m) (obj : Option ℕ) : Tidied (m.busAbortCall obj) := by
  refine h.walkNodes (atCall fun c m h => ?_)
  split
  · exact h.crash
  · split
    · exact (h.busUnregisterCall c).callDestroy c
    · exact h

/-- An object that is registered is not destroyed. -/
lemma objectDestroy (h : Tidied m) (a : ℕ) : Tidied (m.objectDestroy a) := by
  cases hf : m.fault with
  | true => rwa [objectDestroy_of_fault hf]
  | false =>
    unfold Registry.objectDestroy
    split
    · exact h.crash
    · next o ha =>
      split
      · exact h
      · next hreg =>
        have hreg' : o.isRegistered = false := by simpa using hreg
        obtain ⟨l, hl, hsettled⟩ := h
        obtain ⟨hash, nodes, dels, heq, htidy, -⟩ := hl.busRemoveObject hf ha hreg'
        rw [heq]
        simp only
        split
        · obtain ⟨links, ds, f, hdel, hmono⟩ := eventDel_frame (.object a) { m with
            objs := Function.update m.objs a (some { o with bus := false }), hash := hash,
              nodes := nodes, dels := dels }
          rw [hdel]
          refine Tidied.live ⟨l, htidy.congr rfl rfl rfl rfl le_rfl hmono, fun _ => hsettled hf⟩
            fun _ => ⟨l, ?_, fun _ => hsettled hf⟩
          have hdeleted : Tidy { m with
              objs := Function.update m.objs a (some { o with bus := false })
              hash := hash
              nodes := nodes
              dels := dels
              eventNodes := links
              eventDels := ds
              fault := f } l := htidy.congr rfl rfl rfl rfl le_rfl hmono
          exact hdeleted.forget (Function.update_self ..) hreg' rfl (hsettled hf).not_waiting
        · refine Tidied.live ⟨l, htidy, hsettled⟩ fun _ => ⟨l, ?_, hsettled⟩
          exact htidy.forget (Function.update_self ..) hreg' rfl (hsettled hf).not_waiting

/-- An object is added to the bus and registered, or it is destroyed. -/
lemma addObject (h : Tidied m) (alloc : UInt16 → Bool) (a : ℕ) : Tidied (m.addObject alloc a) := by
  unfold Registry.addObject
  split
  · exact h.crash
  · next o ha =>
    cases hf : m.fault with
    | true =>
      rw [busAddObject_of_fault hf]
      exact h.objectDestroy a
    | false =>
      obtain ⟨l, hl, hsettled⟩ := h
      rcases hl.busAddObject hf (alloc o.handle) [] ha with hfail | ⟨hbus, x, nodes, hadd, htidy⟩
      · rw [hfail]
        exact Tidied.objectDestroy ⟨l, hl, hsettled⟩ a
      · rw [hadd]
        have hreg : o.isRegistered = false := by
          by_contra hreg
          have hok := hl.object a
          rw [ha] at hok
          rw [hok.onBus o rfl (by simpa using hreg)] at hbus
          cases hbus
        obtain ⟨nodes', hregister, htidy'⟩ :=
          htidy.busRegisterObject hf (Function.update_self ..) hreg rfl
          (hsettled hf).not_waiting
        simp only [hregister]
        exact ⟨_, htidy', hsettled⟩

/-- A registered object is unregistered and taken off the bus; otherwise the program does not get so
far. -/
lemma unregister_remove (h : Tidied m) (a : ℕ) :
    Tidied ((m.busUnregisterObject a).busRemoveObject true a) := by
  cases hf : m.fault with
  | true => rwa [busUnregisterObject_of_fault hf, busRemoveObject_of_fault hf]
  | false =>
    obtain ⟨l, hl, hsettled⟩ := h
    cases ha : m.objs a with
    | none =>
      have hcrash : m.setObj a (fun o => { o with isRegistered := false }) = m.crash := by
        rw [setObj, live_of_running hf]
        simp only [ha]
      have hsame : m.busUnregisterObject a = m.crash := by
        rw [Registry.busUnregisterObject, hcrash]
        exact live_of_fault rfl
      rw [hsame, busRemoveObject_of_fault rfl]
      exact ⟨l, hl.crash, (by rintro ⟨⟩)⟩
    | some o =>
      cases hreg : o.isRegistered with
      | false =>
        rw [hl.busUnregisterObject_fault hf ha hreg (hsettled hf).not_waiting,
          busRemoveObject_of_fault rfl]
        exact ⟨l, ⟨hl.circles, hl.object, hl.fresh, (by rintro ⟨⟩), (by rintro ⟨⟩)⟩, (by rintro ⟨⟩)⟩
      | true =>
        have hok := hl.object a
        rw [ha] at hok
        obtain ⟨nodes, dels, heq, htidy⟩ := hl.busUnregisterObject hf ha hreg
        obtain ⟨hash, nodes', dels', heq', htidy', -⟩ :=
          htidy.busRemoveObject hf (Function.update_self ..) rfl
        have hbus : o.bus = true := hok.onBus o rfl hreg
        simp only [hbus] at heq heq' htidy'
        rw [heq, heq']
        exact ⟨_, htidy', hsettled⟩

lemma removeObject (h : Tidied m) (obj : Option ℕ) : Tidied (m.removeObject obj) := by
  unfold Registry.removeObject
  split
  · exact (h.busAbortCall _).crash
  · exact ((h.busAbortCall _).unregister_remove _).objectDestroy _

lemma onObject {f : ℕ → Registry → Registry} (hf : ∀ a m, Tidied m → Tidied (f a m)) (n : EventNode)
    (m : Registry) (h : Tidied m) : Tidied (onObject f n m) := by
  unfold Registry.onObject
  split
  · exact hf _ _ h
  · exact h.crash

lemma onEvent {f : ℕ → Registry → Registry} (hf : ∀ v m, Tidied m → Tidied (f v m)) (n : EventNode)
    (m : Registry) (h : Tidied m) : Tidied (onEvent f n m) := by
  unfold Registry.onEvent
  split
  · exact hf _ _ h
  · exact h.crash

lemma commitBusEvent (h : Tidied m) (alloc : UInt16 → Bool) (e : ℕ) :
    Tidied (m.commitBusEvent alloc e) := by
  have h₁ := h.walkEvents (k := .addObjs e) (onObject fun a m h => h.addObject alloc a)
  have h₂ := h₁.walkEvents (k := .addObjs e) (onObject fun a m h => h.eventDel (.object a))
  have h₃ := h₂.walkEvents (k := .objEvents e)
    (onEvent fun v m h => (h.eventDel (.event v)).eventDestroy v)
  exact h₃.walkEvents (onObject fun a m h => (h.eventDel (.object a)).removeObject (some a))

lemma busEventDestroy (h : Tidied m) (e : ℕ) : Tidied (m.busEventDestroy e) := by
  unfold Registry.busEventDestroy
  have h₁ := h.walkEvents (k := .objEvents e)
    (onEvent fun v m h => (h.eventDel (.event v)).eventDestroy v)
  have h₂ := h₁.walkEvents (k := .addObjs e) (onObject fun a m h => h.eventDel (.object a))
  have h₃ := h₂.walkEvents (k := .removeObjs e)
    (onObject fun a m h => (h.eventDel (.object a)).objectDestroy a)
  exact Tidied.live h₃ fun hf => h₃.congr rfl rfl rfl rfl le_rfl fun _ => hf

lemma handleBusEvent (h : Tidied m) (alloc : UInt16 → Bool) (e : ℕ) :
    Tidied (m.handleBusEvent alloc e) :=
  (h.commitBusEvent alloc e).busEventDestroy e

lemma objectNew (h : Tidied m) (uid handle : UInt16) : Tidied (m.objectNew uid handle).2 := by
  obtain ⟨l, hl, hsettled⟩ := h
  exact ⟨l, hl.objectNew uid handle, hsettled⟩

/-- What a fold over objects, references or events keeps. -/
lemma foldl {α : Type} {f : Registry → α → Registry} (h : Tidied m)
    (hf : ∀ m x, Tidied m → Tidied (f m x)) (xs : List α) : Tidied (xs.foldl f m) := by
  induction xs generalizing m with
  | nil => exact h
  | cons x xs ih => exact ih (hf m x h)

lemma busEventDecode (h : Tidied m) (event : BusEvent) : Tidied (m.busEventDecode event).2 := by
  have hnew : Tidied m.busEventNew.2 := h.congr rfl rfl rfl rfl (Nat.le_succ _) id
  unfold Registry.busEventDecode decodeAddObjs decodeRemoveObjs decodeObjEvents
  refine ((hnew.foldl ?_ _).foldl ?_ _).foldl ?_ _
  · exact fun m o h => (h.objectNew o.desc.uid o.handle).eventAddBefore _ _
  · intro m r h
    split
    · exact h
    · exact h.eventAddBefore _ _
  · intro m v h
    split
    · exact h
    · next a _ =>
      have hevent : Tidied (m.eventNew true a).2 := h.congr rfl rfl rfl rfl (Nat.le_succ _) id
      exact hevent.eventAddBefore _ _

end Tidied

/-! ## The objects of a connection response -/

namespace Tidy

variable {k : ℕ} {as : List ℕ}

lemma waiting_update {l : Lists} {a : ℕ} (hk : l.received k = some as) (bs : List ℕ)
    (hw : { l with received := Function.update l.received k (some bs) }.Waiting a) :
    l.Waiting a ∨ a ∈ bs := by
  obtain ⟨j, cs, hj, ha⟩ := hw
  by_cases hjk : j = k
  · subst hjk
    simp only [Function.update_self, Option.some.injEq] at hj
    exact .inr (hj ▸ ha)
  · simp only [Function.update_of_ne hjk] at hj
    exact .inl ⟨j, cs, hj, ha⟩

/-- A new object is put into the list of a packet. -/
lemma receive (h : Tidy m l) (hf : m.fault = false) (hk : l.received k = some as)
    (uid handle : UInt16) :
    ∃ nodes, (m.objectNew uid handle).2.addBefore (.received k) (.object m.fresh) =
        { (m.objectNew uid handle).2 with nodes := nodes } ∧
      Tidy { (m.objectNew uid handle).2 with nodes := nodes }
        { l with received := Function.update l.received k (some (as ++ [m.fresh])) } := by
  have hnew := h.objectNew uid handle
  have hout : Outside (l.contents (m.objectNew uid handle).2.hash) (.object m.fresh) :=
    h.outside_of_fresh le_rfl
  have hC : l.contents (m.objectNew uid handle).2.hash (.received k) = some (as.map .object) := by
    simp [Lists.contents, hk]
  obtain ⟨hadd, hcircles⟩ := addBefore_of_outside hnew.circles hf hC hout
  refine ⟨_, hadd, ⟨?_, fun b => ?_, fun b hb => ?_, hnew.providers, hnew.clean⟩⟩
  · rw [Lists.contents_received, List.map_append]
    exact hcircles
  · have hok := hnew.object b
    refine ⟨hok.listed_iff, hok.keyed_iff, hok.onBus, hok.valid, fun hw => ?_⟩
    rcases waiting_update hk _ hw with hw | hb
    · exact hok.unregistered hw
    · rcases List.mem_append.mp hb with hb | hb
      · exact hok.unregistered ⟨k, as, hk, hb⟩
      · rw [List.mem_singleton.mp hb]
        exact ⟨_, Function.update_self .., rfl⟩
  · obtain ⟨hobjs, hreceived, hcalls⟩ := hnew.fresh b hb
    refine ⟨hobjs, ?_, hcalls⟩
    have hbk : b ≠ k := by
      rintro rfl
      rw [hk] at hreceived
      cases hreceived
    exact (Function.update_of_ne hbk _ _).trans hreceived

/-- The first object of a packet is taken out of its list. -/
lemma unreceive (h : Tidy m l) (hf : m.fault = false)
    (hk : l.received k = some (a :: as)) : ∃ nodes,
    m.del (.object a) = { m with dels := (m.nodes, .object a) :: m.dels, nodes := nodes } ∧
      Tidy { m with dels := (m.nodes, .object a) :: m.dels, nodes := nodes }
        { l with received := Function.update l.received k (some as) } := by
  have hC : l.contents m.hash (.received k) = some ((a :: as).map .object) := by
    simp [Lists.contents, hk]
  have hmem : ListNode.object a ∈ (a :: as).map ListNode.object := List.mem_cons_self
  obtain ⟨hdel, hcircles⟩ := del_of_mem (k := .received k) h.circles hf hC hmem
  refine ⟨_, hdel, ⟨?_, fun b => ?_, fun b hb => ?_, h.providers, fun hf d hd => ?_⟩⟩
  · rw [Lists.contents_received]
    rw [List.map_cons, List.erase_cons_head] at hcircles
    exact hcircles
  · have hok := h.object b
    refine ⟨hok.listed_iff, hok.keyed_iff, hok.onBus, hok.valid, fun hw => ?_⟩
    rcases waiting_update hk _ hw with hw | hb
    · exact hok.unregistered hw
    · exact hok.unregistered ⟨k, _, hk, List.mem_cons_of_mem a hb⟩
  · obtain ⟨hobjs, hreceived, hcalls⟩ := h.fresh b hb
    refine ⟨hobjs, ?_, hcalls⟩
    have hbk : b ≠ k := by
      rintro rfl
      rw [hk] at hreceived
      cases hreceived
    exact (Function.update_of_ne hbk _ _).trans hreceived
  · rcases List.mem_cons.mp hd with rfl | hd
    · exact ⟨_, _, h.circles.circle (.received k) _ hC, hmem⟩
    · exact h.clean hf d hd

/-- A new list of a packet. -/
lemma receiveInit (h : Tidy m l) :
    Tidy { m with nodes := m.nodes.init (.received m.fresh), fresh := m.fresh + 1 }
    { l with received := Function.update l.received m.fresh (some []) } := by
  have hnone := (h.fresh m.fresh le_rfl).2.1
  refine ⟨?_, fun b => ?_, fun b hb => ?_, h.providers, h.clean⟩
  · rw [Lists.contents_received]
    exact h.circles.init (Lists.outside_received.mpr hnone)
  · have hok := h.object b
    refine ⟨hok.listed_iff, hok.keyed_iff, hok.onBus, hok.valid, fun ⟨j, cs, hj, hb⟩ =>
      hok.unregistered ?_⟩
    by_cases hjk : j = m.fresh
    · subst hjk
      simp only [Function.update_self, Option.some.injEq] at hj
      rw [← hj] at hb
      cases hb
    · simp only [Function.update_of_ne hjk] at hj
      exact ⟨j, cs, hj, hb⟩
  · have hb' : m.fresh + 1 ≤ b := hb
    obtain ⟨hobjs, hreceived, hcalls⟩ := h.fresh b (by omega)
    exact ⟨hobjs, (Function.update_of_ne (by omega) _ _).trans hreceived, hcalls⟩

end Tidy

/-! ## Providers -/

namespace Tidy

variable {uid : UInt16} {p : ℕ}

/-- A provider is registered under its number, or nothing is. -/
lemma busRegisterProvider (h : Tidy m l) (hf : m.fault = false) (alloc : Bool)
    (uid : UInt16) (p : ℕ) :
    ∃ hash nodes ps, m.busRegisterProvider alloc uid p = { m with hash := hash, nodes := nodes } ∧
      Tidy { m with hash := hash, nodes := nodes } { l with providers := ps } ∧
      ∀ t ≠ .providers, hash t = m.hash t := by
  unfold Registry.busRegisterProvider
  rcases hashInsert_cases h.circles alloc .providers uid p with hno | ⟨-, hkeys, hins, hcircles⟩
  · rw [hno]
    exact ⟨m.hash, m.nodes, l.providers, rfl, h, fun _ _ => rfl⟩
  · have hout :
        Outside (l.contents (Function.update m.hash .providers (m.hash .providers ++ [(uid, p)])))
        (.provider uid p) := by
      rw [Lists.outside_provider, h.providers hf]
      exact fun hmem => hkeys _ hmem rfl
    obtain ⟨hadd, hcircles'⟩ := addBefore_of_outside (m := { m with
      hash := Function.update m.hash .providers (m.hash .providers ++ [(uid, p)])
      nodes := m.nodes.addBefore (.entries .providers) (.entry .providers uid) })
        (k := .providers) hcircles hf rfl hout
    rw [hins]
    refine ⟨_, _, l.providers ++ [(uid, p)], hadd, ⟨?_, ?_, h.fresh, fun hf => ?_, h.clean⟩,
      fun t ht => Function.update_of_ne ht ..⟩
    · rw [Lists.contents_providers, List.map_append]
      exact hcircles'
    · simp only [Function.update_of_ne (show Table.objects ≠ Table.providers by decide)]
      exact h.object
    · simp only [Function.update_self, h.providers hf]

/-- A registered provider is unregistered. -/
lemma busUnregisterProvider (h : Tidy m l) (hf : m.fault = false)
    (hp : (uid, p) ∈ m.hash .providers) : ∃ hash nodes dels ps,
      m.busUnregisterProvider uid p = { m with hash := hash, nodes := nodes, dels := dels } ∧
      Tidy { m with hash := hash, nodes := nodes, dels := dels } { l with providers := ps } ∧
      ∀ t ≠ .providers, hash t = m.hash t := by
  unfold Registry.busUnregisterProvider
  rcases hashRemove_cases h.circles .providers uid with ⟨-, hnone⟩ | ⟨-, -, hrem, hcircles⟩
  · rcases hnone with hfault | hnone
    · rw [hf] at hfault
      cases hfault
    · exact absurd rfl (hnone _ hp)
  · have hmem : (uid, p) ∈ l.providers := by rwa [h.providers hf]
    have hmem' : ListNode.provider uid p ∈ l.providers.map fun q => ListNode.provider q.1 q.2 :=
      List.mem_map.mpr ⟨(uid, p), hmem, rfl⟩
    obtain ⟨hdel, hcircles'⟩ := del_of_mem (m := { m with
      hash := Function.update m.hash .providers ((m.hash .providers).filter (·.1 ≠ uid))
      nodes := m.nodes.del (.entry .providers uid)
      dels := (m.nodes, .entry .providers uid) :: m.dels }) (k := .providers) hcircles hf rfl hmem'
    rw [hrem]
    have hnodup := h.keys_nodup .providers
    rw [← h.providers hf] at hnodup
    have herase : l.providers.erase (uid, p) = l.providers.filter (·.1 ≠ uid) := by
      rw [hnodup.of_map.erase_eq_filter]
      refine List.filter_congr fun q hq => ?_
      rw [Bool.eq_iff_iff, bne_iff_ne, decide_eq_true_eq]
      constructor
      · exact fun hne heq => hne (List.inj_on_of_nodup_map hnodup hq hmem heq)
      · exact fun hne heq => hne (heq ▸ rfl)
    refine ⟨_, _, _, l.providers.erase (uid, p), hdel,
      ⟨?_, ?_, h.fresh, fun hf => ?_, fun hf d hd => ?_⟩,
      fun t ht => Function.update_of_ne ht ..⟩
    · have hinj : Function.Injective fun q : UInt16 × ℕ => ListNode.provider q.1 q.2 := by
        rintro ⟨u, q⟩ ⟨u', q'⟩ heq
        obtain ⟨rfl, rfl⟩ := ListNode.provider.inj heq
        rfl
      rw [Lists.contents_providers, List.map_erase hinj]
      exact hcircles'
    · simp only [Function.update_of_ne (show Table.objects ≠ Table.providers by decide)]
      exact h.object
    · refine herase.trans ?_
      rw [h.providers hf]
      exact (Function.update_self Table.providers _ m.hash).symm
    · simp only [List.mem_cons] at hd
      rcases hd with rfl | rfl | hd
      · exact ⟨_, _, hcircles.circle .providers _ rfl, hmem'⟩
      · exact ⟨_, _, h.circles.circle (.entries .providers) _ rfl, List.mem_map.mpr ⟨_, hp, rfl⟩⟩
      · exact h.clean hf d hd

end Tidy

/-! ## The steps of a client -/

lemma receiveObjects_tidy {k : ℕ} {as : List ℕ} (objects : List Object) (h : Tidy m l)
    (hf : m.fault = false)
    (hk : l.received k = some as) (hrest : ∀ j ≠ k, ∀ bs, l.received j = some bs → bs = []) :
    ∃ l' as', Tidy (m.receiveObjects k objects) l' ∧ (m.receiveObjects k objects).fault = false ∧
      l'.received k = some as' ∧ ∀ j ≠ k, ∀ bs, l'.received j = some bs → bs = [] := by
  induction objects generalizing m l as with
  | nil => exact ⟨l, as, h, hf, hk, hrest⟩
  | cons o objects ih =>
    obtain ⟨nodes, heq, htidy⟩ := h.receive hf hk o.desc.uid o.handle
    have hstep : m.receiveObjects k (o :: objects) =
        { (m.objectNew o.desc.uid o.handle).2 with nodes := nodes }.receiveObjects k objects :=
      congrArg (List.foldl _ · objects) heq
    rw [hstep]
    refine ih htidy hf (Function.update_self ..) fun j hj bs hbs => hrest j hj bs ?_
    simpa only [Function.update_of_ne hj] using hbs

namespace Tidied

/-- Moving the objects of a packet into a bus event. -/
lemma moveReceived {k e : ℕ} {as : List ℕ} (h : Tidy m l) (hf : m.fault = false)
    (hk : l.received k = some as) (hrest : ∀ j ≠ k, ∀ bs, l.received j = some bs → bs = []) :
    Tidied (m.walkNodes (.received k) (Registry.atObject fun a m =>
      (m.del (.object a)).eventAddBefore (.addObjs e) (.object a))) := by
  -- the nodes to come are those of the objects left in the list
  let I (ns : List ListNode) (m : Registry) : Prop := m.fault = false ∧ ∃ l : Lists, Tidy m l ∧
    (∃ bs, l.received k = some bs ∧ ns = bs.map .object) ∧
    ∀ j ≠ k, ∀ bs, l.received j = some bs → bs = []
  let P (m : Registry) : Prop := m.fault = true ∧ ∃ l, Tidy m l
  have hcircle : ∀ {m : Registry} {l : Lists} {bs : List ℕ}, Tidy m l → l.received k = some bs →
      IsCircle m.nodes (.received k) (bs.map .object) := fun h hk =>
    h.circles.circle _ _ (by simp [Lists.contents, hk])
  have hstart := hcircle h hk
  have hlength : (as.map ListNode.object).length < m.fresh + 1 := by
    rw [List.length_map, Nat.lt_succ_iff]
    refine ((List.nodup_cons.mp hstart.nodup).2.of_map _).length_le fun a ha => ?_
    by_contra hlt
    obtain ⟨o, ho, -⟩ := (h.object a).unregistered ⟨k, as, hk, ha⟩
    rw [(h.fresh a (by omega)).1] at ho
    cases ho
  have hwalk : I [] (m.walkNodes (.received k) (Registry.atObject fun a m =>
        (m.del (.object a)).eventAddBefore (.addObjs e) (.object a))) ∨
      P (m.walkNodes (.received k) (Registry.atObject fun a m =>
        (m.del (.object a)).eventAddBefore (.addObjs e) (.object a))) := by
    rw [Registry.walkNodes, hstart.next_eq]
    refine walkSafe_members_or ?_ ?_ ?_ ?_ ⟨hf, l, h, ⟨as, hk, rfl⟩, hrest⟩ hlength
    · rintro n m ⟨hfault, hl⟩
      have hsame : m.crash = m := crash_of_fault hfault
      cases n with
      | object a =>
        have hdel : m.del (.object a) = m := live_of_fault hfault
        have hadd : m.eventAddBefore (.addObjs e) (.object a) = m := live_of_fault hfault
        rw [Registry.atObject, hdel, hadd]
        exact ⟨hfault, hl⟩
      | _ =>
        rw [Registry.atObject, hsame]
        · exact ⟨hfault, hl⟩
        · rintro _ ⟨⟩
    · rintro m ⟨-, l, hl⟩
      exact ⟨rfl, l, hl.crash⟩
    · rintro n rest m ⟨-, l, hl, ⟨bs, hbs, hns⟩, -⟩
      have hmem := hcircle hl hbs
      rw [← hns] at hmem
      exact IsCircle.next_mem [] hmem
    · rintro n rest m ⟨hf, l, hl, ⟨bs, hbs, hns⟩, hrest⟩
      obtain ⟨a, cs, rfl, rfl, rfl⟩ := List.map_eq_cons_iff.mp hns.symm
      obtain ⟨nodes, hdel, htidy⟩ := hl.unreceive hf hbs
      simp only [Registry.atObject, hdel]
      obtain ⟨links, f, heq, hmono⟩ := eventAddBefore_frame (.addObjs e) (.object a)
        { m with dels := (m.nodes, .object a) :: m.dels, nodes := nodes }
      rw [heq]
      have htidy' : Tidy { m with
          dels := (m.nodes, .object a) :: m.dels
          nodes := nodes
          eventNodes := links
          fault := f } _ := htidy.congr rfl rfl rfl rfl le_rfl hmono
      cases f with
      | true => exact .inr ⟨rfl, _, htidy'⟩
      | false =>
        refine .inl ⟨rfl, _, htidy', ⟨cs, Function.update_self .., rfl⟩, fun j hj bs hbs' =>
          hrest j hj bs ?_⟩
        simpa only [Function.update_of_ne hj] using hbs'
  rcases hwalk with ⟨-, l', hl', ⟨bs, hbs, hnil⟩, hrest'⟩ | ⟨hfault, l', hl'⟩
  · refine ⟨l', hl', fun _ j cs hj => ?_⟩
    by_cases hjk : j = k
    · subst hjk
      rw [hbs, Option.some.injEq] at hj
      rw [← hj]
      exact List.map_eq_nil_iff.mp hnil.symm
    · exact hrest' j hjk cs hj
  · exact ⟨l', hl', fun hno => by rw [hfault] at hno; cases hno⟩

lemma connectionResponse (h : Tidied m) (hf : m.fault = false) (alloc : UInt16 → Bool)
    (status : ConrespStatus)
    (objects : List Object) : Tidied (m.connectionResponse alloc status objects) := by
  unfold Registry.connectionResponse
  split
  · exact h
  · split
    · exact h.congr rfl rfl rfl rfl le_rfl id
    · obtain ⟨l, hl, hsettled⟩ := h
      have hinit : Tidy { m with
          nodes := m.nodes.init (.received m.fresh), fresh := m.fresh + 1, state := .connected }
          { l with received := Function.update l.received m.fresh (some []) } :=
        hl.receiveInit.congr rfl rfl rfl rfl le_rfl id
      obtain ⟨l', as, hl', hf', hk, hrest⟩ :=
        receiveObjects_tidy objects hinit hf (Function.update_self ..)
        fun j hj bs hbs => hsettled hf j bs (by simpa only [Function.update_of_ne hj] using hbs)
      exact (moveReceived (m := (Registry.busEventNew _).2)
        (hl'.congr rfl rfl rfl rfl (Nat.le_succ _) id) hf' hk
        hrest).handleBusEvent alloc _

lemma disconnect (h : Tidied m) (alloc : UInt16 → Bool) (reconnect : Bool) :
    Tidied (m.disconnect alloc reconnect) := by
  have hinner : Tidied (if m.state = .connected
      then { m with state := .disconnecting }.disconnectBus alloc
      else m) := by
    split
    · have hnew : Tidied (Registry.busEventNew { m with state := .disconnecting }).2 :=
        h.congr rfl rfl rfl rfl (Nat.le_succ _) id
      exact (hnew.walkNodes (atObject fun a m h => h.eventAddBefore _ _)).handleBusEvent alloc _
    · exact h
  exact hinner.congr rfl rfl rfl rfl le_rfl id

lemma ack (h : Tidied m) (handle : UInt16) : Tidied (m.ack handle) := by
  unfold Registry.ack
  split
  · exact h
  · exact (h.busUnregisterCall _).callDestroy _

lemma packet (h : Tidied m) (hf : m.fault = false) (alloc : UInt16 → Bool) (info : PacketInfo) :
    Tidied (m.packet alloc info) := by
  cases info with
  | conresp status objects => exact h.connectionResponse hf alloc status objects
  | add obj => exact (h.objectNew _ _).addObject alloc _
  | remove obj => exact h.removeObject _
  | busEvent event => exact (h.busEventDecode event).handleBusEvent alloc _
  | ack a => exact h.ack a.handle
  | event _ | conreq _ | call _ => exact h

lemma call (h : Tidied m) (hf : m.fault = false) (a : ℕ) (enabled allocCall allocEntry : Bool)
    (draws : List UInt16) (written : Bool) :
    Tidied (m.call a enabled allocCall allocEntry draws written) := by
  unfold Registry.call
  split
  · exact h.crash
  · split
    · exact h
    · obtain ⟨l, hl, hsettled⟩ := h
      have hnew : Tidy (m.callNew a).2 l := hl.congr rfl rfl rfl rfl (Nat.le_succ _) id
      have hregister := hnew.busRegisterCall hf allocEntry draws (Function.update_self ..) rfl
        (hl.fresh m.fresh le_rfl).2.2 (Nat.lt_succ_self _)
      rcases hregister with hno | ⟨x, nodes, -, -, heq, htidy⟩
      · have hno' : (m.callNew a).2.busRegisterCall allocEntry draws (m.callNew a).1 =
            (false, (m.callNew a).2) := hno
        simp only [hno']
        exact Tidied.callDestroy ⟨l, hnew, hsettled⟩ _
      · have heq' : (m.callNew a).2.busRegisterCall allocEntry draws (m.callNew a).1 = _ := heq
        simp only [heq']
        split
        · exact ⟨_, htidy, hsettled⟩
        · exact (Tidied.busUnregisterCall ⟨_, htidy, hsettled⟩ _).callDestroy _

lemma busRegisterProvider (h : Tidied m) (hf : m.fault = false) (alloc : Bool)
    (uid : UInt16) (p : ℕ) : Tidied (m.busRegisterProvider alloc uid p) := by
  obtain ⟨l, hl, hsettled⟩ := h
  obtain ⟨hash, nodes, ps, heq, htidy, -⟩ := hl.busRegisterProvider hf alloc uid p
  rw [heq]
  exact ⟨_, htidy, hsettled⟩

lemma busUnregisterProvider (h : Tidied m) (hf : m.fault = false) (uid : UInt16) (p : ℕ) :
    Tidied (m.busUnregisterProvider uid p) := by
  obtain ⟨l, hl, hsettled⟩ := h
  by_cases hp : (uid, p) ∈ m.hash .providers
  · obtain ⟨hash, nodes, dels, ps, heq, htidy, -⟩ := hl.busUnregisterProvider hf hp
    rw [heq]
    exact ⟨_, htidy, hsettled⟩
  · unfold Registry.busUnregisterProvider
    rcases hashRemove_cases hl.circles .providers uid with ⟨hno, -⟩ | ⟨-, -, hrem, hcircles⟩
    · rw [hno]
      exact ⟨l, hl, hsettled⟩
    · have hmem : (uid, p) ∉ l.providers := by rwa [hl.providers hf]
      rw [hrem]
      simp only
      rw [del_of_outside (m := { m with
        hash := Function.update m.hash .providers ((m.hash .providers).filter (·.1 ≠ uid))
        nodes := m.nodes.del (.entry .providers uid)
        dels := (m.nodes, .entry .providers uid) :: m.dels }) hcircles hf
          (Lists.outside_provider.mpr hmem)]
      refine ⟨l, ⟨hcircles, ?_, hl.fresh, nofun, nofun⟩, nofun⟩
      simp only [Function.update_of_ne (show Table.objects ≠ Table.providers by decide)]
      exact hl.object

/-- What a step of a client keeps, as long as the client was not destroyed. -/
lemma step {op : ClientRegistryOp} (h : Tidied m) (hf : m.fault = false)
    (halive : (m.clientPerform op).destroyed = false) : Tidied (m.clientPerform op) := by
  cases op with
  | start =>
    simp only [clientPerform]
    split
    · exact h.congr rfl rfl rfl rfl le_rfl id
    · exact h
  | registerProvider alloc uid p => exact h.busRegisterProvider hf alloc uid p
  | unregisterProvider uid p => exact h.busUnregisterProvider hf uid p
  | call a enabled allocCall allocEntry draws written =>
    exact h.call hf a enabled allocCall allocEntry draws written
  | packet alloc info => exact h.packet hf alloc info
  | disconnect alloc => exact h.disconnect alloc true
  | destroy alloc => cases halive

end Tidied

end Registry

open Registry

/-! ## Runs -/

/-- In every state that a server or a client reaches, until it is destroyed, the lists and tables of
its bus agree on its objects. -/
theorem tables_agree :
    (∀ ops m, runs registryStep ops busInit = some m → m.destroyed = false → m.Consistent) ∧
    ∀ ops m, runs clientRegistryStep ops busInit = some m → m.destroyed = false → m.Consistent := by
  constructor
  · intro ops m hrun hdestroyed
    -- a fault leaves the lists and tables as they were
    have hinv : m.destroyed = false → ∃ m' l g, Serving m' l g ∧ (m = m' ∨ m = m'.crash) := by
      refine runs_invariant (C := fun _ _ => True)
        (I := fun m => m.destroyed = false → ∃ m' l g, Serving m' l g ∧ (m = m' ∨ m = m'.crash)) ?_
        (fun _ => ⟨busInit, _, _, Serving.busInit, .inl rfl⟩)
          (meetsAll_of_forall (fun _ _ _ => trivial) _) hrun
      intro m op m' hinv _ hstep hdestroyed'
      unfold registryStep at hstep
      split at hstep
      · cases hstep
      · next hguard =>
        simp only [Bool.or_eq_true, not_or, Bool.not_eq_true, Bool.not_eq_false'] at hguard
        obtain ⟨⟨hf, hdestroyed⟩, hvalid⟩ := hguard
        cases hstep
        obtain ⟨m', l, g, hserving, rfl | rfl⟩ := hinv hdestroyed
        · have hop : op ≠ .destroy := by
            rintro rfl
            cases hdestroyed'
          rcases hserving.perform hvalid hop with ⟨l', g', hl'⟩ | hcrash
          · exact ⟨_, l', g', hl', .inl rfl⟩
          · exact ⟨_, l, g, hserving, .inr hcrash⟩
        · cases hf
    obtain ⟨m', l, g, hserving, rfl | rfl⟩ := hinv hdestroyed
    · exact hserving.tidy.consistent
    · exact hserving.tidy.crash.consistent
  · intro ops m hrun hdestroyed
    have hinv : m.destroyed = false → Tidied m := by
      refine runs_invariant (C := fun _ _ => True) (I := fun m => m.destroyed = false → Tidied m) ?_
        (fun _ => ⟨{}, busInit_tidy, fun _ => nofun⟩)
          (meetsAll_of_forall (fun _ _ _ => trivial) _) hrun
      intro m op m' hinv _ hstep hdestroyed'
      unfold clientRegistryStep at hstep
      split at hstep
      · cases hstep
      · next hguard =>
        simp only [Bool.or_eq_true, not_or, Bool.not_eq_true, Bool.not_eq_false'] at hguard
        cases hstep
        exact (hinv hguard.1.2).step hguard.1.1 hdestroyed'
    obtain ⟨l, hl, -⟩ := hinv hdestroyed
    exact hl.consistent

/-- An object without fields. -/
def plainObject : Object := ⟨⟨100, [], [], []⟩, 7, false, []⟩

theorem tables_agree_two :
    (∃ m, runs registryStep [.newObject 100 true true [7], .newObject 100 true true [8],
      .registerObject 0,
        .registerObject 1, .unregisterObject 0] busInit = some m ∧ m.Consistent ∧
        m.busObject 7 = some 0 ∧
      m.busObject 8 = some 1) ∧
    ∃ m, runs clientRegistryStep [.start, .packet (fun _ => true) (.conresp .accepted
        [plainObject, { plainObject with handle := 8 }])] busInit = some m ∧ m.Consistent ∧
      m.busObject 7 = some 1 ∧ m.busObject 8 = some 2 := by
  constructor
  · exact ⟨_, rfl, tables_agree.1 [.newObject 100 true true [7], .newObject 100 true true [8],
      .registerObject 0,
      .registerObject 1, .unregisterObject 0] _ rfl rfl, by decide, by decide⟩
  · exact ⟨_, rfl, tables_agree.2 [.start, .packet (fun _ => true) (.conresp .accepted
      [plainObject, { plainObject with handle := 8 }])] _ rfl rfl, by decide, by decide⟩

end Obus
