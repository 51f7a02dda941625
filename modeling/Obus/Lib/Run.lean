import Mathlib.Tactic

/-!
# Runs of a state machine

A state machine is a partial step function: a step that is not possible has no result.  `runs`
performs a list of inputs, and `MeetsAll C` says that each of them meets the condition `C` in the
state in which it is performed.

`runs_invariant` is the rule for safety: what every step that meets the condition keeps holds at the
end of every run all of whose steps meet it.
-/

variable {σ α : Type*}

/-- Perform a list of inputs. -/
def runs (step : σ → α → Option σ) : List α → σ → Option σ
  | [], s => some s
  | a :: as, s => (step s a).bind (runs step as)

/-- Every input meets the condition in the state in which it is performed. -/
def MeetsAll (step : σ → α → Option σ) (C : σ → α → Prop) : List α → σ → Prop
  | [], _ => True
  | a :: as, s => C s a ∧ ∀ s', step s a = some s' → MeetsAll step C as s'

/-- Whether every input meets a decidable condition can be decided by performing them. -/
instance MeetsAll.decidable {step : σ → α → Option σ}
    {C : σ → α → Prop} [∀ s a, Decidable (C s a)] :
    ∀ (as : List α) (s : σ), Decidable (MeetsAll step C as s)
  | [], _ => .isTrue trivial
  | a :: as, s =>
    match h : step s a with
    | none =>
      decidable_of_iff (C s a) ⟨fun hC => ⟨hC, fun _ hs => nomatch h.symm.trans hs⟩, And.left⟩
    | some t =>
      have : Decidable (MeetsAll step C as t) := MeetsAll.decidable as t
      decidable_of_iff (C s a ∧ MeetsAll step C as t)
        ⟨fun hC => ⟨hC.1, fun _ hs => Option.some.inj (h.symm.trans hs) ▸ hC.2⟩,
          fun hC => ⟨hC.1, hC.2 t h⟩⟩

lemma runs_cons {step : σ → α → Option σ} {a : α} {as : List α} {s s' : σ} :
    runs step (a :: as) s = some s' ↔ ∃ t, step s a = some t ∧ runs step as t = some s' :=
  Option.bind_eq_some_iff

lemma runs_append {step : σ → α → Option σ} {as bs : List α} {s s' : σ} :
    runs step (as ++ bs) s = some s' ↔ ∃ t, runs step as s = some t ∧ runs step bs t = some s' := by
  induction as generalizing s with
  | nil => simp [runs]
  | cons a as ih =>
    rw [List.cons_append, runs_cons]
    simp only [runs_cons, ih]
    constructor
    · rintro ⟨t, ht, u, hu, hrest⟩
      exact ⟨u, ⟨t, ht, hu⟩, hrest⟩
    · rintro ⟨u, ⟨t, ht, hu⟩, hrest⟩
      exact ⟨t, ht, u, hu, hrest⟩

/-- What holds initially and is kept by every step that meets the condition, as a statement about
the inputs so far and the state, holds at the end of a run. -/
lemma runs_history {step : σ → α → Option σ} {C : σ → α → Prop} {I : List α → σ → Prop}
    (hstep : ∀ past s a s', I past s → C s a → step s a = some s' → I (past ++ [a]) s')
    (past : List α) {as : List α} {s s' : σ} (hs : I past s) (hC : MeetsAll step C as s)
    (hrun : runs step as s = some s') : I (past ++ as) s' := by
  induction as generalizing past s with
  | nil =>
    cases hrun
    rwa [List.append_nil]
  | cons a as ih =>
    obtain ⟨t, ht, hrest⟩ := runs_cons.mp hrun
    have h := ih (past ++ [a]) (hstep past s a t hs hC.1 ht) (hC.2 t ht) hrest
    rwa [List.append_assoc] at h

/-- What every step that meets the condition keeps holds at the end of a run. -/
lemma runs_invariant {step : σ → α → Option σ} {C : σ → α → Prop} {I : σ → Prop}
    (hstep : ∀ s a s', I s → C s a → step s a = some s' → I s') {as : List α} {s s' : σ} (hs : I s)
    (hC : MeetsAll step C as s) (hrun : runs step as s = some s') : I s' :=
  runs_history (I := fun _ s => I s) (fun _ => hstep) [] hs hC hrun

/-- A condition that every input meets in every state is met throughout. -/
lemma meetsAll_of_forall {step : σ → α → Option σ} {C : σ → α → Prop} {as : List α}
    (h : ∀ a ∈ as, ∀ s, C s a) (s : σ) : MeetsAll step C as s := by
  induction as generalizing s with
  | nil => trivial
  | cons a as ih =>
    exact ⟨h a List.mem_cons_self s,
      fun s' _ => ih (fun b hb => h b (List.mem_cons_of_mem a hb)) s'⟩

/-- A condition that follows, in every state that the other condition lets a run reach, from that
condition. -/
lemma MeetsAll.imp {step : σ → α → Option σ} {C C' : σ → α → Prop} {I : σ → Prop}
    (hstep : ∀ s a s', I s → C s a → step s a = some s' → I s') (himp : ∀ s a, I s → C s a → C' s a)
    {as : List α} {s : σ} (hs : I s) (h : MeetsAll step C as s) : MeetsAll step C' as s := by
  induction as generalizing s with
  | nil => trivial
  | cons a as ih =>
    refine ⟨himp s a hs h.1, fun s' hs' => ?_⟩
    exact ih (hstep s a s' hs h.1 hs') (h.2 s' hs')

/-- A property holds in every state that a run reaches, the first one included. -/
def Always (step : σ → α → Option σ) (P : σ → Prop) (as : List α) (s : σ) : Prop :=
  ∀ past, past <+: as → ∀ t, runs step past s = some t → P t

/-- Where every step that meets the condition keeps an invariant, which has the property, and every
other step leads to a state without the property, a run has it in all of its states exactly if it
meets the condition throughout. -/
lemma always_iff_meetsAll {step : σ → α → Option σ} {C : σ → α → Prop} {I P : σ → Prop}
    (hP : ∀ s, I s → P s) (hstep : ∀ s a s', I s → C s a → step s a = some s' → I s')
    (hbad : ∀ s a s', I s → ¬C s a → step s a = some s' → ¬P s') {as : List α} {s s' : σ} (hs : I s)
    (hrun : runs step as s = some s') : Always step P as s ↔ MeetsAll step C as s := by
  constructor
  · intro halways
    induction as generalizing s with
    | nil => trivial
    | cons a as ih =>
      obtain ⟨t, ht, hrest⟩ := runs_cons.mp hrun
      have hfirst : P t := by
        refine halways [a] (List.prefix_append [a] as) t ?_
        rw [runs_cons]
        exact ⟨t, ht, rfl⟩
      have hC : C s a := by_contra fun hC => hbad s a t hs hC ht hfirst
      refine ⟨hC, fun u hu => ?_⟩
      obtain rfl : t = u := Option.some.inj (ht.symm.trans hu)
      refine ih (hstep s a t hs hC ht) hrest fun past hpast v hv => ?_
      exact halways (a :: past) (List.cons_prefix_cons.mpr ⟨rfl, hpast⟩) v
        (runs_cons.mpr ⟨t, ht, hv⟩)
  · intro hC past hpast t ht
    obtain ⟨rest, rfl⟩ := hpast
    have hpastC : MeetsAll step C past s := by
      clear hrun ht
      induction past generalizing s with
      | nil => trivial
      | cons a past ih => exact ⟨hC.1, fun u hu => ih (hstep s a u hs hC.1 hu) (hC.2 u hu)⟩
    exact hP t (runs_invariant hstep hs hpastC ht)
