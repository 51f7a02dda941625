import Mathlib.Tactic

/-!
# Cutting a stream into frames

A framer looks at the front of a stream: it asks for more, passes over some symbols, or sees the
head of a frame.  What it says stays true when the stream goes on.  `Finds` is its search for the
next head, `Cuts` what it makes of a stream that has arrived so far: the frames that it has cut off,
and the rest that it holds.  A frame without symbols would be cut off again and again, and then
there is no such rest (`not_cuts_of_empty_frame`).

`Cuts.append` and `Cuts.split` say that it does not matter in which pieces the stream arrives.
`cuts_nil_iff` and `cuts_cons_iff` reduce what is cut to what is found.
-/

variable {α γ : Type*}

/-- What stands at the front of a stream. -/
inductive Probe (γ : Type*) where
  | more
  | skip (n : ℕ)
  /-- A frame of `size` symbols, which is cut off once there are `need`. -/
  | head (info : γ) (size need : ℕ)

/-- A framer. -/
structure Framer (α γ : Type*) where
  probe : List α → Probe γ
  /-- The number of symbols that it never asks for more than. -/
  width : ℕ
  stable : ∀ s t, probe s ≠ .more → probe (s ++ t) = probe s
  lt_of_more : ∀ s, probe s = .more → s.length < width
  of_skip : ∀ s n, probe s = .skip n → 0 < n ∧ n ≤ s.length
  of_head : ∀ s info size need, probe s = .head info size need → width ≤ need ∧ size ≤ need

/-- The first head that is found in a stream, and where. -/
inductive Finds (F : Framer α γ) : List α → ℕ → γ → ℕ → ℕ → Prop where
  | here {s : List α} {info : γ} {size need : ℕ} (h : F.probe s = .head info size need) :
    Finds F s 0 info size need
  | later {s : List α} {n i : ℕ} {info : γ} {size need : ℕ} (h : F.probe s = .skip n)
      (hrest : Finds F (s.drop n) i info size need) : Finds F s (n + i) info size need

/-- The frames that are cut off a stream, and the rest. -/
inductive Cuts (F : Framer α γ) : List α → List (γ × List α) → List α → Prop where
  | more {s : List α} (h : F.probe s = .more) : Cuts F s [] s
  | wait {s : List α} {info : γ} {size need : ℕ} (h : F.probe s = .head info size need)
    (hlt : s.length < need) :
      Cuts F s [] s
  | skip {s r : List α} {n : ℕ} {frames : List (γ × List α)} (h : F.probe s = .skip n)
      (hrest : Cuts F (s.drop n) frames r) : Cuts F s frames r
  | frame {s r : List α} {info : γ} {size need : ℕ} {frames : List (γ × List α)}
      (h : F.probe s = .head info size need) (hle : need ≤ s.length)
      (hrest : Cuts F (s.drop size) frames r) : Cuts F s ((info, s.take size) :: frames) r

variable {F : Framer α γ}

/-! ## Heads -/

lemma Finds.unique {s : List α} {i j : ℕ} {info info' : γ} {size size' need need' : ℕ}
    (h : Finds F s i info size need)
    (h' : Finds F s j info' size' need') : i = j ∧ info = info' ∧ size = size' ∧ need = need' := by
  induction h generalizing j with
  | here h =>
    cases h' with
    | here h' =>
      rw [h] at h'
      cases h'
      exact ⟨rfl, rfl, rfl, rfl⟩
    | later h' _ =>
      rw [h] at h'
      cases h'
  | later h _ ih =>
    cases h' with
    | here h' =>
      rw [h] at h'
      cases h'
    | later h' hrest' =>
      rw [h] at h'
      cases h'
      obtain ⟨rfl, rest⟩ := ih hrest'
      exact ⟨rfl, rest⟩

/-- Where a head is found it stands. -/
lemma Finds.probe {s : List α} {i : ℕ} {info : γ} {size need : ℕ} (h : Finds F s i info size need) :
    F.probe (s.drop i) = .head info size need := by
  induction h with
  | here h => exact h
  | later _ _ ih => rwa [← List.drop_drop]

/-- A head is still found when the stream goes on. -/
lemma Finds.append {s : List α} {i : ℕ} {info : γ} {size need : ℕ} (h : Finds F s i info size need)
    (t : List α) : Finds F (s ++ t) i info size need := by
  induction h with
  | here h => exact .here ((F.stable _ t (by simp [h])).trans h)
  | later h _ ih =>
    refine .later ((F.stable _ t (by simp [h])).trans h) ?_
    rwa [List.drop_append_of_le_length (F.of_skip _ _ h).2]

/-- A head is found in as much of the stream as its frame needs. -/
lemma Finds.of_append {s t : List α} {i : ℕ} {info : γ} {size need : ℕ}
    (h : Finds F (s ++ t) i info size need)
    (hle : i + need ≤ s.length) : Finds F s i info size need := by
  generalize hst : s ++ t = u at h
  induction h generalizing s with
  | @here u info size need h =>
    subst hst
    have hwidth := (F.of_head _ _ _ _ h).1
    have hmore : F.probe s ≠ .more := fun hmore => by
      have hlt := F.lt_of_more s hmore
      omega
    exact .here ((F.stable s t hmore).symm.trans h)
  | @later u n i info size need h hrest ih =>
    subst hst
    have hwidth := (F.of_head _ _ _ _ hrest.probe).1
    have hmore : F.probe s ≠ .more := fun hmore => by
      have hlt := F.lt_of_more s hmore
      omega
    have hskip : F.probe s = .skip n := (F.stable s t hmore).symm.trans h
    refine .later hskip (ih ?_ ?_)
    · rw [List.length_drop]
      omega
    · rw [List.drop_append_of_le_length (F.of_skip _ _ hskip).2]

/-! ## Frames -/

lemma Cuts.unique {s r r' : List α} {frames frames' : List (γ × List α)} (h : Cuts F s frames r)
    (h' : Cuts F s frames' r') : frames = frames' ∧ r = r' := by
  induction h generalizing frames' with
  | more h =>
    cases h' with
    | more | wait => exact ⟨rfl, rfl⟩
    | skip h' | frame h' => cases h.symm.trans h'
  | wait h hlt =>
    cases h' with
    | more | wait => exact ⟨rfl, rfl⟩
    | skip h' => cases h.symm.trans h'
    | frame h' hle =>
      cases h.symm.trans h'
      omega
  | skip h _ ih =>
    cases h' with
    | more h' | wait h' | frame h' => cases h.symm.trans h'
    | skip h' hrest' =>
      cases h.symm.trans h'
      exact ih hrest'
  | frame h hle _ ih =>
    cases h' with
    | more h' | skip h' => cases h.symm.trans h'
    | wait h' hlt =>
      cases h.symm.trans h'
      omega
    | frame h' _ hrest' =>
      cases h.symm.trans h'
      obtain ⟨rfl, rfl⟩ := ih hrest'
      exact ⟨rfl, rfl⟩

/-- Nothing is cut off the rest. -/
lemma Cuts.rest {s r : List α} {frames : List (γ × List α)} (h : Cuts F s frames r) :
    Cuts F r [] r := by
  induction h with
  | more h => exact .more h
  | wait h hlt => exact .wait h hlt
  | skip _ _ ih | frame _ _ _ ih => exact ih

lemma Cuts.length_le {s r : List α} {frames : List (γ × List α)} (h : Cuts F s frames r) :
    r.length ≤ s.length := by
  induction h with
  | more | wait => exact le_rfl
  | skip _ _ ih | frame _ _ _ ih =>
    rw [List.length_drop] at ih
    omega

/-- When the stream goes on, so does the cutting, from the rest. -/
lemma Cuts.append {s t r r' : List α} {frames frames' : List (γ × List α)} (h : Cuts F s frames r)
    (h' : Cuts F (r ++ t) frames' r') : Cuts F (s ++ t) (frames ++ frames') r' := by
  induction h with
  | more | wait => exact h'
  | skip h _ ih =>
    refine .skip ((F.stable _ t (by simp [h])).trans h) ?_
    rw [List.drop_append_of_le_length (F.of_skip _ _ h).2]
    exact ih h'
  | @frame s r info size need frames h hle _ ih =>
    have hsize : size ≤ s.length := (F.of_head _ _ _ _ h).2.trans hle
    rw [List.cons_append, ← @List.take_append_of_le_length _ s t _ hsize]
    refine .frame ((F.stable _ t (by simp [h])).trans h) ?_ ?_
    · rw [List.length_append]
      omega
    · rw [List.drop_append_of_le_length hsize]
      exact ih h'

/-- The cutting of a stream goes through each of its beginnings. -/
lemma Cuts.split {s t r : List α} {frames : List (γ × List α)} (h : Cuts F (s ++ t) frames r) :
    ∃ before u after, Cuts F s before u ∧ Cuts F (u ++ t) after r ∧ frames = before ++ after := by
  generalize hst : s ++ t = v at h
  induction h generalizing s with
  | more h =>
    subst hst
    by_cases hmore : F.probe s = .more
    · exact ⟨[], s, [], .more hmore, .more h, rfl⟩
    · rw [F.stable s t hmore] at h
      exact absurd h hmore
  | @wait v info size need h hlt =>
    subst hst
    by_cases hmore : F.probe s = .more
    · exact ⟨[], s, [], .more hmore, .wait h hlt, rfl⟩
    · refine ⟨[], s, [], .wait ((F.stable s t hmore).symm.trans h) ?_, .wait h hlt, rfl⟩
      rw [List.length_append] at hlt
      omega
  | @skip v r n frames h hrest ih =>
    subst hst
    by_cases hmore : F.probe s = .more
    · exact ⟨[], s, frames, .more hmore, .skip h hrest, rfl⟩
    · have hskip : F.probe s = .skip n := (F.stable s t hmore).symm.trans h
      obtain ⟨before, u, after, hbefore, hafter, rfl⟩ :=
        ih (s := s.drop n) (by rw [List.drop_append_of_le_length (F.of_skip _ _ hskip).2])
      exact ⟨before, u, after, .skip hskip hbefore, hafter, rfl⟩
  | @frame v r info size need frames h hle hrest ih =>
    subst hst
    by_cases hmore : F.probe s = .more
    · exact ⟨[], s, _, .more hmore, .frame h hle hrest, rfl⟩
    have hhead : F.probe s = .head info size need := (F.stable s t hmore).symm.trans h
    by_cases hshort : s.length < need
    · exact ⟨[], s, _, .wait hhead hshort, .frame h hle hrest, rfl⟩
    · have hsize : size ≤ s.length := (F.of_head _ _ _ _ hhead).2.trans (Nat.not_lt.mp hshort)
      obtain ⟨before, u, after, hbefore, hafter, rfl⟩ :=
        ih (s := s.drop size) (by rw [List.drop_append_of_le_length hsize])
      refine ⟨_, u, after, .frame hhead (Nat.not_lt.mp hshort) hbefore, hafter, ?_⟩
      rw [List.take_append_of_le_length hsize, List.cons_append]

/-- Either a head is found, or nothing is cut off. -/
lemma finds_or_cuts_nil (F : Framer α γ) (s : List α) :
    (∃ i info size need, Finds F s i info size need) ∨ ∃ r, Cuts F s [] r := by
  induction hlen : s.length using Nat.strong_induction_on generalizing s with
  | _ n ih =>
    subst hlen
    cases hprobe : F.probe s with
    | more => exact Or.inr ⟨s, .more hprobe⟩
    | head info size need => exact Or.inl ⟨0, info, size, need, .here hprobe⟩
    | skip n =>
      obtain ⟨hpos, hle⟩ := F.of_skip s n hprobe
      have hlt : (s.drop n).length < s.length := by
        rw [List.length_drop]
        omega
      obtain ⟨i, info, size, need, hfinds⟩ | ⟨r, hcuts⟩ := ih _ hlt (s.drop n) rfl
      · exact Or.inl ⟨n + i, info, size, need, .later hprobe hfinds⟩
      · exact Or.inr ⟨r, .skip hprobe hcuts⟩

/-- Before the first head nothing is cut off. -/
lemma Finds.cuts_nil {s : List α} {i : ℕ} {info : γ} {size need : ℕ}
    (h : Finds F s i info size need) (hlt : s.length < i + need) : Cuts F s [] (s.drop i) := by
  induction h with
  | here h => exact .wait h (by omega)
  | @later s n i info size need h _ ih =>
    have hskip := (F.of_skip s n h).2
    rw [← List.drop_drop]
    refine .skip h (ih ?_)
    rw [List.length_drop]
    omega

/-- A frame is cut off once there are as many symbols as it needs. -/
lemma Finds.cuts_cons {s r : List α} {i : ℕ} {info : γ} {size need : ℕ} {frames : List (γ × List α)}
    (h : Finds F s i info size need) (hle : i + need ≤ s.length)
    (hrest : Cuts F (s.drop (i + size)) frames r) :
    Cuts F s ((info, (s.drop i).take size) :: frames) r := by
  induction h with
  | here h => exact .frame h (by omega) (by simpa using hrest)
  | @later s n i info size need h _ ih =>
    rw [← List.drop_drop]
    refine .skip h (ih ?_ ?_)
    · rw [List.length_drop]
      have hskip := (F.of_skip s n h).2
      omega
    · rwa [List.drop_drop, ← Nat.add_assoc]

/-- Nothing is cut off exactly if no frame is found that is there. -/
lemma cuts_nil_iff {s : List α} :
    (∃ r, Cuts F s [] r) ↔ ∀ i info size need, Finds F s i info size need →
    s.length < i + need := by
  constructor
  · rintro ⟨r, h⟩
    generalize hframes : ([] : List (γ × List α)) = frames at h
    induction h with
    | more h =>
      intro i info size need hfinds
      cases hfinds with
      | here h' | later h' => cases h.symm.trans h'
    | wait h hlt =>
      intro i info size need hfinds
      cases hfinds with
      | here h' =>
        cases h.symm.trans h'
        omega
      | later h' => cases h.symm.trans h'
    | @skip s r n frames h _ ih =>
      intro i info size need hfinds
      cases hfinds with
      | here h' => cases h.symm.trans h'
      | @later _ n' i _ _ _ h' hrest =>
        cases h.symm.trans h'
        have hlt := ih hframes _ _ _ _ hrest
        rw [List.length_drop] at hlt
        omega
    | frame => cases hframes
  · intro hall
    obtain ⟨i, info, size, need, hfinds⟩ | hnil := finds_or_cuts_nil F s
    · exact ⟨_, hfinds.cuts_nil (hall i info size need hfinds)⟩
    · exact hnil

/-- The first frame is the one that is found first. -/
lemma cuts_cons_iff {s r : List α} {f : γ × List α} {frames : List (γ × List α)} :
    Cuts F s (f :: frames) r ↔ ∃ i info size need, Finds F s i info size need ∧
    i + need ≤ s.length ∧
      f = (info, (s.drop i).take size) ∧ Cuts F (s.drop (i + size)) frames r := by
  constructor
  · intro h
    generalize hall : f :: frames = all at h
    induction h with
    | more | wait => cases hall
    | @skip s r n all h _ ih =>
      obtain ⟨i, info, size, need, hfinds, hle, hf, hrest⟩ := ih hall
      refine ⟨n + i, info, size, need, .later h hfinds, ?_, ?_, ?_⟩
      · have hskip := (F.of_skip s n h).2
        rw [List.length_drop] at hle
        omega
      · rw [hf, List.drop_drop]
      · rwa [Nat.add_assoc, ← List.drop_drop]
    | @frame s r info size need _ h hle hrest _ =>
      cases hall
      refine ⟨0, info, size, need, .here h, by omega, rfl, ?_⟩
      rwa [Nat.zero_add]
  · rintro ⟨i, info, size, need, hfinds, hle, rfl, hrest⟩
    exact hfinds.cuts_cons hle hrest

/-- Where the first frame that is there has no symbols, the cutting does not end. -/
lemma not_cuts_of_empty_frame {s r : List α} {i : ℕ} {info : γ} {need : ℕ}
    {frames : List (γ × List α)}
    (h : Finds F s i info 0 need) (hle : i + need ≤ s.length) : ¬Cuts F s frames r := by
  have hhead : Finds F (s.drop i) 0 info 0 need := .here h.probe
  have hle' : 0 + need ≤ (s.drop i).length := by
    rw [List.length_drop]
    omega
  have hnil : ∀ t : List α, Finds F t 0 info 0 need → 0 + need ≤ t.length →
      ∀ frames r, ¬Cuts F t frames r := by
    intro t ht htle frames
    induction frames with
    | nil =>
      intro r hcuts
      have hlt := cuts_nil_iff.mp ⟨r, hcuts⟩ _ _ _ _ ht
      omega
    | cons f frames ih =>
      intro r hcuts
      obtain ⟨j, info', size', need', hfinds, -, -, hrest⟩ := cuts_cons_iff.mp hcuts
      obtain ⟨rfl, -, rfl, -⟩ := ht.unique hfinds
      exact ih r hrest
  intro hcuts
  cases frames with
  | nil =>
    have hlt := cuts_nil_iff.mp ⟨r, hcuts⟩ _ _ _ _ h
    omega
  | cons f frames =>
    obtain ⟨j, info', size', need', hfinds, -, -, hrest⟩ := cuts_cons_iff.mp hcuts
    obtain ⟨rfl, -, rfl, -⟩ := h.unique hfinds
    exact hnil (s.drop i) hhead hle' frames r hrest
