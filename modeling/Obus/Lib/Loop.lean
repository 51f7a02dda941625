import Mathlib.Tactic

/-!
# Loops as iterated steps

A loop is a step function that either goes on with a new state or ends with a result.  `loop` runs
it with a bound on the number of iterations, so that a loop which never ends is the one that every
bound cuts short.

* `loop_invariant`: what every iteration keeps holds of the result of a loop that ends.
* `loop_of_measure`: an invariant and a measure that every further iteration decreases give a result
  within the measure, together with what the last iteration establishes.
* `loop_eq_none`: a set of states that no iteration leaves and in which none ends is never left.
-/

/-- What an iteration of a loop does. -/
inductive Next (σ ρ : Type) where
  /-- Go on with a state. -/
  | again (s : σ)
  /-- End with a result. -/
  | done (r : ρ)

variable {σ ρ : Type}

/-- Run at most `n` iterations. -/
def loop (step : σ → Next σ ρ) : ℕ → σ → Option ρ
  | 0, _ => none
  | n + 1, s =>
    match step s with
    | .again s' => loop step n s'
    | .done r => some r

lemma loop_succ_again {step : σ → Next σ ρ} {s s' : σ} (h : step s = .again s') (n : ℕ) :
    loop step (n + 1) s = loop step n s' := by
  rw [loop, h]

lemma loop_succ_done {step : σ → Next σ ρ} {s : σ} {r : ρ} (h : step s = .done r) (n : ℕ) :
    loop step (n + 1) s = some r := by
  rw [loop, h]

/-- What every iteration keeps, the last one turns into what holds of the result. -/
lemma loop_invariant {step : σ → Next σ ρ} {I : σ → Prop} {Q : ρ → Prop}
    (hagain : ∀ s s', I s → step s = .again s' → I s') (hdone : ∀ s r, I s → step s = .done r → Q r)
    {n : ℕ} {s : σ} {r : ρ} (hs : I s) (h : loop step n s = some r) : Q r := by
  induction n generalizing s with
  | zero => cases h
  | succ n ih =>
    cases hstep : step s with
    | again s' =>
      rw [loop_succ_again hstep] at h
      exact ih (hagain s s' hs hstep) h
    | done r' =>
      rw [loop_succ_done hstep] at h
      cases h
      exact hdone s r hs hstep

/-- An invariant with a measure that decreases gives a result. -/
lemma loop_of_measure {step : σ → Next σ ρ} {I : σ → Prop} {m : σ → ℕ} {Q : ρ → Prop}
    (hagain : ∀ s s', I s → step s = .again s' → I s' ∧ m s' < m s)
    (hdone : ∀ s r, I s → step s = .done r → Q r) {s : σ} (hs : I s) {n : ℕ} (hn : m s < n) :
    ∃ r, loop step n s = some r ∧ Q r := by
  induction n generalizing s with
  | zero => omega
  | succ n ih =>
    cases hstep : step s with
    | again s' =>
      obtain ⟨hI, hm⟩ := hagain s s' hs hstep
      rw [loop_succ_again hstep]
      exact ih hI (by omega)
    | done r => exact ⟨r, loop_succ_done hstep n, hdone s r hs hstep⟩

/-- A set of states in which every iteration goes on and stays never gives a result. -/
lemma loop_eq_none {step : σ → Next σ ρ} {I : σ → Prop}
    (hstep : ∀ s, I s → ∃ s', step s = .again s' ∧ I s') {s : σ} (hs : I s) (n : ℕ) :
    loop step n s = none := by
  induction n generalizing s with
  | zero => rfl
  | succ n ih =>
    obtain ⟨s', hs', hI⟩ := hstep s hs
    rw [loop_succ_again hs', ih hI]

/-- Two loops over a list, one after the other, are one loop if their bodies commute. -/
lemma foldl_foldl_of_comm {σ ρ : Type*} {f g : σ → ρ → σ}
    (hcomm : ∀ s a b, g (f s a) b = f (g s b) a) (l : List ρ) (s : σ) :
    l.foldl g (l.foldl f s) = l.foldl (fun s a => g (f s a) a) s := by
  have hpast : ∀ (l : List ρ) (s : σ) (b : ρ), g (l.foldl f s) b = l.foldl f (g s b) := by
    intro l
    induction l with
    | nil => exact fun _ _ => rfl
    | cons a l ih =>
      intro s b
      rw [List.foldl_cons, ih, hcomm, List.foldl_cons]
  induction l generalizing s with
  | nil => rfl
  | cons a l ih => rw [List.foldl_cons, List.foldl_cons, List.foldl_cons, hpast, ih]
