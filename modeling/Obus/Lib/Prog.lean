import Mathlib.Tactic

/-!
# Programs over an interface of fallible operations

A `Prog Op Out ε α` is a program that reaches its state only through the operations `Op`: the
operation `o` answers with an `Out o` or fails with an error, and the program may look at the
failure and go on.  A handler gives every operation its effect on a state; `run` executes a program
with a handler.

Because a program is a tree, whatever every operation satisfies is proved once, by induction on the
tree, for all programs:

* `run_invariant`: an invariant kept by every operation is kept by every program;
* `run_eq_of_safe`: two handlers that answer alike wherever a guard holds run a program alike, as
  long as the program only meets guarded operations (`Safe`).
-/

/-- A program over the operations `Op` with results in `α`. -/
inductive Prog (Op : Type) (Out : Op → Type) (ε α : Type) : Type where
  /-- Return a value. -/
  | ret (a : α)
  /-- Stop with an error. -/
  | fail (e : ε)
  /-- Perform an operation and continue on its answer. -/
  | op (o : Op) (k : Except ε (Out o) → Prog Op Out ε α)

namespace Prog

variable {Op : Type} {Out : Op → Type} {ε α β σ τ : Type}

/-- Sequential composition: an error skips the continuation. -/
protected def bind : Prog Op Out ε α → (α → Prog Op Out ε β) → Prog Op Out ε β
  | .ret a, f => f a
  | .fail e, _ => .fail e
  | .op o k, f => .op o fun r => (k r).bind f

instance : Monad (Prog Op Out ε) where
  pure := .ret
  bind := Prog.bind

/-- Perform one operation and pass its failure on. -/
def perform (o : Op) : Prog Op Out ε (Out o) :=
  .op o fun
    | .ok a => .ret a
    | .error e => .fail e

/-- Turn the failure of a program into a value. -/
def attempt : Prog Op Out ε α → Prog Op Out ε (Except ε α)
  | .ret a => .ret (.ok a)
  | .fail e => .ret (.error e)
  | .op o k => .op o fun r => (k r).attempt

/-- Apply `f` to an accumulator `n` times. -/
def iter (f : α → Prog Op Out ε α) : ℕ → α → Prog Op Out ε α
  | 0, a => .ret a
  | n + 1, a => (f a).bind (iter f n)

/-- Perform `f` on every element of a list, in order. -/
def each (f : β → Prog Op Out ε Unit) : List β → Prog Op Out ε Unit
  | [] => .ret ()
  | b :: bs => (f b).bind fun _ => each f bs

/-- Run a program with a handler; the state reached before an error is kept. -/
def run (h : (o : Op) → σ → Except ε (Out o) × σ) : Prog Op Out ε α → σ → Except ε α × σ
  | .ret a, s => (.ok a, s)
  | .fail e, s => (.error e, s)
  | .op o k, s => (k (h o s).1).run h (h o s).2

section Run

variable (h : (o : Op) → σ → Except ε (Out o) × σ)

@[simp] lemma run_pure (a : α) (s : σ) : (Pure.pure a : Prog Op Out ε α).run h s = (.ok a, s) := rfl

@[simp] lemma run_ret (a : α) (s : σ) : (Prog.ret a : Prog Op Out ε α).run h s = (.ok a, s) :=
  rfl

@[simp] lemma run_fail (e : ε) (s : σ) : (Prog.fail e : Prog Op Out ε α).run h s = (.error e, s) :=
  rfl

@[simp] lemma run_perform (o : Op) (s : σ) :
    (perform o : Prog Op Out ε (Out o)).run h s = h o s := by
  unfold perform run
  rcases h o s with ⟨_ | _, _⟩ <;> rfl

/-- A composition runs its first part and then, unless that failed, its second. -/
lemma run_bind (p : Prog Op Out ε α) (f : α → Prog Op Out ε β) (s : σ) :
    (p >>= f).run h s =
      match p.run h s with
      | (.ok a, s') => (f a).run h s'
      | (.error e, s') => (.error e, s') := by
  change (p.bind f).run h s = _
  induction p generalizing s with
  | ret a => rfl
  | fail e => rfl
  | op o k ih => exact ih _ _

/-- The first part of a composition succeeds. -/
lemma run_bind_ok {p : Prog Op Out ε α} {f : α → Prog Op Out ε β} {s s' : σ} {a : α}
    (hp : p.run h s = (.ok a, s')) : (p >>= f).run h s = (f a).run h s' := by
  rw [run_bind, hp]

/-- The first part of a composition fails. -/
lemma run_bind_error {p : Prog Op Out ε α} {f : α → Prog Op Out ε β} {s s' : σ} {e : ε}
    (hp : p.run h s = (.error e, s')) : (p >>= f).run h s = (.error e, s') := by
  rw [run_bind, hp]

/-- An attempted program ends in the same state and never fails. -/
@[simp] lemma run_attempt (p : Prog Op Out ε α) (s : σ) :
    p.attempt.run h s = (.ok (p.run h s).1, (p.run h s).2) := by
  induction p generalizing s with
  | ret a => rfl
  | fail e => rfl
  | op o k ih => exact ih _ _

/-- One more round of an iteration comes after all the others. -/
lemma run_iter_succ (f : α → Prog Op Out ε α) (n : ℕ) (a : α) (s : σ) :
    (iter f (n + 1) a).run h s = (iter f n a >>= f).run h s := by
  induction n generalizing a s with
  | zero =>
    change (f a >>= Prog.ret).run h s = (Prog.ret a >>= f).run h s
    rw [run_bind, run_bind_ok h (run_ret h a s)]
    rcases (f a).run h s with ⟨_ | _, _⟩ <;> rfl
  | succ n ih =>
    change (f a >>= iter f (n + 1)).run h s = ((f a >>= iter f n) >>= f).run h s
    rw [run_bind h _ f, run_bind, run_bind]
    rcases (f a).run h s with ⟨_ | b, t⟩
    · rfl
    · exact (ih b t).trans (run_bind h _ f t)

/-- An invariant that every operation keeps is kept by every program. -/
lemma run_invariant {I : σ → Prop} (hI : ∀ o s, I s → I (h o s).2) (p : Prog Op Out ε α) {s : σ}
    (hs : I s) : I (p.run h s).2 := by
  induction p generalizing s with
  | ret a => exact hs
  | fail e => exact hs
  | op o k ih => exact ih _ (hI o s hs)

end Run

section Safe

variable (guard : Op → σ → Prop) (h : (o : Op) → σ → Except ε (Out o) × σ)

/-- Every operation that the program performs from the state `s` meets the guard. -/
def Safe : Prog Op Out ε α → σ → Prop
  | .ret _, _ => True
  | .fail _, _ => True
  | .op o k, s => guard o s ∧ (k (h o s).1).Safe (h o s).2

instance Safe.decidable [∀ o s, Decidable (guard o s)] :
    (p : Prog Op Out ε α) → (s : σ) → Decidable (p.Safe guard h s)
  | .ret _, _ => isTrue trivial
  | .fail _, _ => isTrue trivial
  | .op o k, s =>
    have := Safe.decidable (k (h o s).1) (h o s).2
    inferInstanceAs (Decidable (guard o s ∧ (k (h o s).1).Safe guard h (h o s).2))

@[simp] lemma safe_pure (a : α) (s : σ) : (Pure.pure a : Prog Op Out ε α).Safe guard h s := trivial

@[simp] lemma safe_perform (o : Op) (s : σ) :
    (perform o : Prog Op Out ε (Out o)).Safe guard h s ↔ guard o s := by
  unfold perform Safe
  rcases h o s with ⟨_ | _, _⟩ <;> simp [Safe]

/-- A composition is safe when its first part is and, should that succeed, its second part is. -/
lemma safe_bind (p : Prog Op Out ε α) (f : α → Prog Op Out ε β) (s : σ) :
    (p >>= f).Safe guard h s ↔
      p.Safe guard h s ∧ ∀ a s', p.run h s = (.ok a, s') → (f a).Safe guard h s' := by
  change (p.bind f).Safe guard h s ↔ _
  induction p generalizing s with
  | ret a => simp [Prog.bind, Safe, run]
  | fail e => simp [Prog.bind, Safe, run]
  | op o k ih =>
    simp only [Prog.bind, Safe, run]
    rw [ih]
    exact and_assoc.symm

@[simp] lemma safe_attempt (p : Prog Op Out ε α) (s : σ) :
    p.attempt.Safe guard h s ↔ p.Safe guard h s := by
  induction p generalizing s with
  | ret a => exact Iff.rfl
  | fail e => exact Iff.rfl
  | op o k ih => exact and_congr_right fun _ => ih _ _

/-- Weakening the guard keeps a program safe. -/
lemma Safe.mono {guard guard' : Op → σ → Prop} (hg : ∀ o s, guard o s → guard' o s)
    {p : Prog Op Out ε α} {s : σ} (hp : p.Safe guard h s) : p.Safe guard' h s := by
  induction p generalizing s with
  | ret a => trivial
  | fail e => trivial
  | op o k ih => exact ⟨hg o s hp.1, ih _ hp.2⟩

/-- Two handlers that answer alike on related states wherever the guard holds run a safe program
alike, and end in related states. -/
lemma run_eq_of_safe {h' : (o : Op) → τ → Except ε (Out o) × τ} {R : σ → τ → Prop}
    (hR : ∀ o s t, guard o s → R s t → (h o s).1 = (h' o t).1 ∧ R (h o s).2 (h' o t).2)
    (p : Prog Op Out ε α) {s : σ} {t : τ} (hst : R s t) (hp : p.Safe guard h s) :
    (p.run h s).1 = (p.run h' t).1 ∧ R (p.run h s).2 (p.run h' t).2 := by
  induction p generalizing s t with
  | ret a => exact ⟨rfl, hst⟩
  | fail e => exact ⟨rfl, hst⟩
  | op o k ih =>
    obtain ⟨hout, hnext⟩ := hR o s t hp.1 hst
    simp only [run]
    rw [← hout]
    exact ih _ hnext hp.2

end Safe

end Prog
