import Mathlib.Tactic

/-!
# Singly linked chains

Cells that each have a pointer to the next one, read through a partial map: a cell that was freed
cannot be read.  `Chain read next p l` says that the cells on the way from the pointer `p` to the
end are those of the list `l`.

`find` follows a chain to the first cell that satisfies a test, and returns that cell with the one
before it.  On a chain it ends, without reading a freed cell, within a number of steps that the
length of the chain bounds (`Chain.find_some`, `Chain.find_none`).  `release` frees a chain cell by
cell (`Chain.release_eq`).
-/

variable {ν α : Type*}

/-- The cells on the way from a pointer to the end of a chain. -/
def Chain (read : ν → Option α) (next : α → Option ν) : Option ν → List ν → Prop
  | p, [] => p = none
  | p, a :: l => p = some a ∧ ∃ e, read a = some e ∧ Chain read next (next e) l

namespace Chain

variable {read read' : ν → Option α} {next : α → Option ν} {p : Option ν} {a b : ν} {e : α}
  {l xs ys : List ν}

/-- Follow a chain to the first cell that satisfies a test; without a result a freed cell was read,
or the bound on the number of steps was too small. -/
def find (read : ν → Option α) (next : α → Option ν) (test : α → Bool) :
    ℕ → Option ν → Option ν → Option (Option ν × Option (ν × α))
  | 0, _, _ => none
  | _ + 1, prev, none => some (prev, none)
  | n + 1, prev, some a =>
    match read a with
    | none => none
    | some e => if test e then some (prev, some (a, e)) else find read next test n (some a) (next e)

/-- Free the cells of a chain, each after its pointer was read; the cells that were freed, in order.
-/
def release [DecidableEq ν] (next : α → Option ν) :
    ℕ → (ν → Option α) → Option ν → Option (List ν × (ν → Option α))
  | 0, _, _ => none
  | _ + 1, read, none => some ([], read)
  | n + 1, read, some a =>
    match read a with
    | none => none
    | some e =>
      match release next n (Function.update read a none) (next e) with
      | none => none
      | some (l, read) => some (a :: l, read)

lemma read_of_mem (h : Chain read next p l) (ha : a ∈ l) : ∃ e, read a = some e := by
  induction l generalizing p with
  | nil => cases ha
  | cons b l ih =>
    obtain ⟨-, e, he, hrest⟩ := h
    rcases List.mem_cons.mp ha with rfl | ha
    · exact ⟨e, he⟩
    · exact ih hrest ha

/-- A chain only depends on its cells. -/
lemma congr (h : Chain read next p l) (hread : ∀ a ∈ l, read' a = read a) :
    Chain read' next p l := by
  induction l generalizing p with
  | nil => exact h
  | cons b l ih =>
    obtain ⟨hp, e, he, hrest⟩ := h
    exact ⟨hp, e, (hread b List.mem_cons_self).trans he, ih hrest fun a ha =>
      hread a (List.mem_cons_of_mem b ha)⟩

/-- The cells before a cell, and those behind it. -/
lemma append_cons (h : Chain read next p (xs ++ a :: ys)) (ha : read a = some e) :
    Chain read next (next e) ys := by
  induction xs generalizing p with
  | nil =>
    obtain ⟨-, e', he', hrest⟩ := h
    rwa [← Option.some.inj (he'.symm.trans ha)]
  | cons b xs ih =>
    obtain ⟨-, e', -, hrest⟩ := h
    exact ih hrest

/-- Taking the first cell out of a chain. -/
lemma tail (h : Chain read next p (a :: l)) (ha : read a = some e) :
    Chain read next (next e) l := by
  have h' : Chain read next p ([] ++ a :: l) := h
  exact h'.append_cons ha

section Update

variable [DecidableEq ν]

/-- Taking out the cell behind another one, by storing its pointer there. -/
lemma unlink (h : Chain read next p (xs ++ b :: a :: ys)) (hnodup : (xs ++ b :: a :: ys).Nodup)
    {eb eb' ea : α} (hb : read b = some eb) (ha : read a = some ea) (hnext : next eb' = next ea) :
    Chain (Function.update read b (some eb')) next p (xs ++ b :: ys) := by
  induction xs generalizing p with
  | nil =>
    obtain ⟨hp, e, he, hrest⟩ := h
    have hbys : b ∉ ys := fun hmem => (List.nodup_cons.mp hnodup).1 (List.mem_cons_of_mem a hmem)
    refine ⟨hp, eb', Function.update_self .., ?_⟩
    rw [hnext]
    refine (hrest.tail ha).congr fun x hx => Function.update_of_ne ?_ ..
    rintro rfl
    exact hbys hx
  | cons c xs ih =>
    obtain ⟨hp, e, he, hrest⟩ := h
    obtain ⟨hc, hnodup⟩ := List.nodup_cons.mp hnodup
    have hcb : c ≠ b := by
      rintro rfl
      exact hc (List.mem_append_right xs List.mem_cons_self)
    exact ⟨hp, e, (Function.update_of_ne hcb ..).trans he, ih hrest hnodup⟩

end Update

variable {test : α → Bool}

/-- The cell before the end of a list, if it is not empty, and another one otherwise. -/
def lastOr (prev : Option ν) (xs : List ν) : Option ν := xs.getLast?.or prev

lemma lastOr_cons (prev : Option ν) (a : ν) (xs : List ν) :
    lastOr prev (a :: xs) = lastOr (some a) xs := by
  unfold lastOr
  cases xs with
  | nil => rfl
  | cons b xs =>
    rw [List.getLast?_cons_cons]
    obtain ⟨z, hz⟩ : ∃ z, (b :: xs).getLast? = some z :=
      ⟨_, List.getLast?_eq_some_getLast (List.cons_ne_nil b xs)⟩
    rw [hz]
    rfl

/-- On a chain without a cell that satisfies the test, the end is found. -/
lemma find_none (h : Chain read next p l)
    (hl : ∀ a ∈ l, ∀ e, read a = some e → test e = false) {n : ℕ}
    (hn : l.length < n) (prev : Option ν) :
    find read next test n prev p = some (lastOr prev l, none) := by
  induction l generalizing p n prev with
  | nil =>
    obtain ⟨n, rfl⟩ : ∃ k, n = k + 1 := ⟨n - 1, by simp only [List.length_nil] at hn; omega⟩
    rw [h]
    rfl
  | cons a l ih =>
    obtain ⟨n, rfl⟩ : ∃ k, n = k + 1 := ⟨n - 1, by omega⟩
    obtain ⟨rfl, e, he, hrest⟩ := h
    have hskip : test e = false := hl a List.mem_cons_self e he
    rw [lastOr_cons, ← ih hrest (fun b hb => hl b (List.mem_cons_of_mem a hb))
      (by simpa only [List.length_cons, Nat.add_lt_add_iff_right] using hn) (some a)]
    simp only [find, he, hskip]
    rfl

/-- On a chain, the first cell that satisfies the test is found, with the one before it. -/
lemma find_some (h : Chain read next p (xs ++ a :: ys))
    (hxs : ∀ b ∈ xs, ∀ e, read b = some e → test e = false)
    (ha : read a = some e) (htest : test e = true) {n : ℕ} (hn : xs.length < n) (prev : Option ν) :
    find read next test n prev p = some (lastOr prev xs, some (a, e)) := by
  induction xs generalizing p n prev with
  | nil =>
    obtain ⟨n, rfl⟩ : ∃ k, n = k + 1 := ⟨n - 1, by simp only [List.length_nil] at hn; omega⟩
    obtain ⟨rfl, -⟩ := h
    simp only [find, ha, htest]
    rfl
  | cons b xs ih =>
    obtain ⟨n, rfl⟩ : ∃ k, n = k + 1 := ⟨n - 1, by omega⟩
    obtain ⟨rfl, e', he', hrest⟩ := h
    have hskip : test e' = false := hxs b List.mem_cons_self e' he'
    rw [lastOr_cons, ← ih hrest (fun c hc => hxs c (List.mem_cons_of_mem b hc))
      (by simpa only [List.length_cons, Nat.add_lt_add_iff_right] using hn) (some b)]
    simp only [find, he', hskip]
    rfl

/-- The cells of a chain are freed, each once, and no others. -/
lemma release_eq [DecidableEq ν] (h : Chain read next p l) (hl : l.Nodup) {n : ℕ}
    (hn : l.length < n) :
    ∃ read', release next n read p = some (l, read') ∧ ∀ a ∉ l, read' a = read a := by
  induction l generalizing read p n with
  | nil =>
    obtain ⟨n, rfl⟩ : ∃ k, n = k + 1 := ⟨n - 1, by simp only [List.length_nil] at hn; omega⟩
    rw [h]
    exact ⟨read, rfl, fun _ _ => rfl⟩
  | cons a l ih =>
    obtain ⟨n, rfl⟩ : ∃ k, n = k + 1 := ⟨n - 1, by omega⟩
    obtain ⟨rfl, e, he, hrest⟩ := h
    obtain ⟨ha, hl⟩ := List.nodup_cons.mp hl
    have hkept : ∀ b ∈ l, Function.update read a none b = read b := by
      intro b hb
      refine Function.update_of_ne ?_ ..
      rintro rfl
      exact ha hb
    obtain ⟨read', hrun, hread'⟩ := ih (hrest.congr hkept) hl
      (by simpa only [List.length_cons, Nat.add_lt_add_iff_right] using hn)
    refine ⟨read', by simp only [release, he, hrun], fun b hb => ?_⟩
    rw [List.mem_cons, not_or] at hb
    rw [hread' b hb.2, Function.update_of_ne hb.1]

end Chain
