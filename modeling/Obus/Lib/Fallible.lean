import Mathlib.Tactic

/-!
# State programs that may fail

A program of type `Fallible σ ε α` changes a state in `σ` and gives a value in `α`, or it fails with
an error in `ε` and the state is lost.  `Leads p s a s'` says that `p` leads from `s` to `s'` with
the value `a`; there is one rule for each way to build a program.
-/

/-- A program that changes a state, and may fail. -/
abbrev Fallible (σ ε α : Type) := StateT σ (Except ε) α

namespace Fallible

variable {σ ε α β : Type}

/-- A program leads to a state, with a value. -/
def Leads (p : Fallible σ ε α) (s : σ) (a : α) (s' : σ) : Prop := p s = .ok (a, s')

/-- Fail with an error. -/
def fail (e : ε) : Fallible σ ε α := fun _ => .error e

/-- Iterate a program on a value, `n` times. -/
def iter (f : α → Fallible σ ε α) : ℕ → α → Fallible σ ε α
  | 0, a => pure a
  | n + 1, a => f a >>= iter f n

/-- Perform a program for every entry of a list. -/
def each (f : β → Fallible σ ε Unit) : List β → Fallible σ ε Unit
  | [] => pure ()
  | b :: bs => f b >>= fun _ => each f bs

/-! ## Where a program leads -/

section Leads

variable {p : Fallible σ ε α} {f : α → Fallible σ ε β} {s s' : σ} {a : α} {b : β}

lemma bind_of_ok (h : p s = .ok (a, s')) : (p >>= f) s = f a s' := by
  change (p s >>= fun r => f r.1 r.2) = f a s'
  rw [h]
  rfl

lemma bind_of_error {e : ε} (h : p s = .error e) : (p >>= f) s = .error e := by
  change (p s >>= fun r => f r.1 r.2) = .error e
  rw [h]
  rfl

lemma pure_apply : (pure a : Fallible σ ε α) s = .ok (a, s) := rfl

lemma leads_pure {a' : α} : Leads (pure a : Fallible σ ε α) s a' s' ↔ a = a' ∧ s = s' := by
  rw [Leads, pure_apply, Except.ok.injEq, Prod.mk.injEq]

/-- Nothing follows a failure. -/
lemma not_leads_fail {e : ε} : ¬Leads (fail e : Fallible σ ε α) s a s' := by
  intro h
  cases h

lemma leads_bind : Leads (p >>= f) s b s' ↔ ∃ a t, Leads p s a t ∧ Leads (f a) t b s' := by
  constructor
  · intro h
    cases hp : p s with
    | error e =>
      rw [Leads, bind_of_error hp] at h
      cases h
    | ok r =>
      rw [Leads, bind_of_ok hp] at h
      exact ⟨r.1, r.2, hp, h⟩
  · rintro ⟨a, t, hp, hf⟩
    rw [Leads, bind_of_ok hp]
    exact hf

lemma Leads.bind {t : σ} (hp : Leads p s a t) (hf : Leads (f a) t b s') : Leads (p >>= f) s b s' :=
  leads_bind.mpr ⟨a, t, hp, hf⟩

lemma leads_map {g : α → β} : Leads (g <$> p) s b s' ↔ ∃ a, Leads p s a s' ∧ b = g a := by
  have hmap : g <$> p = p >>= fun a => pure (g a) := (bind_pure_comp g p).symm
  rw [hmap, leads_bind]
  constructor
  · rintro ⟨a, t, hp, hpure⟩
    obtain ⟨rfl, rfl⟩ := leads_pure.mp hpure
    exact ⟨a, hp, rfl⟩
  · rintro ⟨a, hp, rfl⟩
    exact ⟨a, s', hp, leads_pure.mpr ⟨rfl, rfl⟩⟩

/-- A program leads to at most one place. -/
lemma Leads.unique {a' : α} {t : σ} (h : Leads p s a s') (h' : Leads p s a' t) :
    a = a' ∧ s' = t := by
  have heq : (Except.ok (a, s') : Except ε (α × σ)) = .ok (a', t) := h.symm.trans h'
  cases heq
  exact ⟨rfl, rfl⟩

lemma each_singleton {f : β → Fallible σ ε Unit} (b : β) : each f [b] = f b := bind_pure_unit

lemma each_append {f : β → Fallible σ ε Unit} (l l' : List β) :
    each f (l ++ l') = each f l >>= fun _ => each f l' := by
  induction l with
  | nil => rw [List.nil_append, each, pure_bind]
  | cons b l ih => rw [List.cons_append, each, each, ih, bind_assoc]

lemma each_map {f : α → Fallible σ ε Unit} {g : β → Fallible σ ε Unit} {h : α → β} {l : List α}
    (heq : ∀ a ∈ l, f a = g (h a)) : each f l = each g (l.map h) := by
  induction l with
  | nil => rfl
  | cons a l ih =>
    rw [each, heq a List.mem_cons_self, ih fun b hb => heq b (List.mem_cons_of_mem a hb),
      List.map_cons, each]

/-- Where the programs for all entries lead somewhere, each of them does. -/
lemma exists_leads_of_each {f : β → Fallible σ ε Unit} {l : List β} {u : Unit}
    (h : Leads (each f l) s u s') {b : β} (hb : b ∈ l) : ∃ t t', Leads (f b) t () t' := by
  induction l generalizing s with
  | nil => exact absurd hb List.not_mem_nil
  | cons c l ih =>
    obtain ⟨_, t, hfirst, hrest⟩ := leads_bind.mp h
    rcases List.mem_cons.mp hb with rfl | hb
    · exact ⟨s, t, hfirst⟩
    · exact ih hrest hb

/-- What every iteration keeps holds behind the last one. -/
lemma iter_invariant {f : α → Fallible σ ε α} {I : α → Prop}
    (hstep : ∀ a s a' s', I a → Leads (f a) s a' s' → I a')
    {n : ℕ} {a' : α} (ha : I a) (h : Leads (iter f n a) s a' s') : I a' := by
  induction n generalizing a s with
  | zero =>
    obtain ⟨rfl, -⟩ := leads_pure.mp h
    exact ha
  | succ n ih =>
    obtain ⟨b, t, hf, hrest⟩ := leads_bind.mp h
    exact ih (hstep a s b t ha hf) hrest

end Leads

end Fallible
