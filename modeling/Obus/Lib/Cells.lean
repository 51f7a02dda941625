import Mathlib.Tactic

/-!
# A heap of cells

Cells are allocated, read and freed.  A location is never given out twice, so that a pointer to a
freed cell stays recognisable; using one is recorded as a fault and has no other effect.  An
allocation may fail, as a parameter says.

What an operation does to a heap is said by the cells that it frees (`CellHeap.Frees`): they are
dead afterwards, every other cell is as before, and a fault that was recorded stays.  The relation
composes, so that the effect of a program is the list of the cells that its operations free.
-/

/-- Memory that is used although it must not be. -/
inductive CellFault where
  /-- A cell that was freed is read. -/
  | usedFreed
  /-- A cell that was freed is freed again. -/
  | freedTwice
  /-- An array is accessed beyond its end. -/
  | outside
  deriving DecidableEq, Repr

/-- A heap of cells with contents in `α`. -/
structure CellHeap (α : Type) where
  /-- The cells that were allocated; one that was freed has no content. -/
  cells : List (Option α) := []
  /-- How many allocations were tried. -/
  ticks : ℕ := 0
  fault : Option CellFault := none
  deriving DecidableEq

namespace CellHeap

variable {α : Type}

/-- The content of a cell, if it is live. -/
def read? (h : CellHeap α) (l : ℕ) : Option α := h.cells[l]?.join

/-- Record a fault. -/
def crash (f : CellFault) (h : CellHeap α) : CellHeap α := { h with fault := some f }

/-- Try an allocation that needs no cell. -/
def tick (mem : ℕ → Bool) (h : CellHeap α) : Bool × CellHeap α :=
  (mem h.ticks, { h with ticks := h.ticks + 1 })

/-- Allocate a cell. -/
def alloc (mem : ℕ → Bool) (a : α) (h : CellHeap α) : Option ℕ × CellHeap α :=
  if mem h.ticks then (some h.cells.length,
    { h with cells := h.cells ++ [some a], ticks := h.ticks + 1 })
  else (none, { h with ticks := h.ticks + 1 })

/-- Free a cell. -/
def free (l : ℕ) (h : CellHeap α) : CellHeap α :=
  match h.read? l with
  | none => h.crash .freedTwice
  | some _ => { h with cells := h.cells.set l none }

/-- A cell that was allocated and not freed. -/
def Live (h : CellHeap α) (l : ℕ) : Prop := (h.read? l).isSome = true

variable {h h' h'' : CellHeap α} {l : ℕ} {ls ms : List ℕ}

lemma Live.lt (hlive : h.Live l) : l < h.cells.length := by
  unfold Live read? at hlive
  by_contra hge
  rw [List.getElem?_eq_none (not_lt.mp hge)] at hlive
  exact Bool.false_ne_true hlive

lemma Live.ne_none (hlive : h.Live l) : h.read? l ≠ none := by
  rw [Live] at hlive
  intro hnone
  rw [hnone] at hlive
  exact Bool.false_ne_true hlive

lemma live_of_ne_none (hne : h.read? l ≠ none) : h.Live l := Option.isSome_iff_ne_none.mpr hne

/-! ## The cells that are freed -/

/-- What happened to a heap: some cells were freed, every other cell is as before. -/
structure Frees (h h' : CellHeap α) (ls : List ℕ) : Prop where
  grows : h.cells.length ≤ h'.cells.length
  dead : ∀ l ∈ ls, l < h.cells.length → h'.read? l = none
  kept : ∀ l < h.cells.length, l ∉ ls → h'.read? l = h.read? l
  faulted : h.fault ≠ none → h'.fault ≠ none

namespace Frees

lemma refl (h : CellHeap α) : h.Frees h [] :=
  ⟨le_rfl, fun _ hl => absurd hl List.not_mem_nil, fun _ _ _ => rfl, id⟩

lemma trans (hf : h.Frees h' ls) (hf' : h'.Frees h'' ms) : h.Frees h'' (ls ++ ms) := by
  refine ⟨hf.grows.trans hf'.grows, fun l hl hlt => ?_, fun l hlt hl => ?_,
    hf'.faulted ∘ hf.faulted⟩
  · have hlt' : l < h'.cells.length := hlt.trans_le hf.grows
    by_cases hms : l ∈ ms
    · exact hf'.dead l hms hlt'
    · have hls : l ∈ ls := (List.mem_append.mp hl).resolve_right hms
      rw [hf'.kept l hlt' hms, hf.dead l hls hlt]
  · rw [List.mem_append, not_or] at hl
    rw [hf'.kept l (hlt.trans_le hf.grows) hl.2, hf.kept l hlt hl.1]

/-- A freed cell stays dead. -/
lemma stays_dead (hf : h.Frees h' ls) (hlt : l < h.cells.length) (hdead : h.read? l = none) :
    h'.read? l = none := by
  by_cases hl : l ∈ ls
  · exact hf.dead l hl hlt
  · rw [hf.kept l hlt hl, hdead]

/-- A live cell that is not freed stays live. -/
lemma stays_live (hf : h.Frees h' ls) (hlive : h.Live l) (hl : l ∉ ls) : h'.Live l := by
  rw [Live, hf.kept l hlive.lt hl]
  exact hlive

/-- The cells that were freed are a matter of membership. -/
lemma congr (hf : h.Frees h' ls) (heq : ∀ l, l ∈ ms ↔ l ∈ ls) : h.Frees h' ms :=
  ⟨hf.grows, fun l hl => hf.dead l ((heq l).mp hl), fun l hlt hl => hf.kept l hlt fun h =>
    hl ((heq l).mpr h),
    hf.faulted⟩

end Frees

/-! ## The operations -/

lemma frees_crash (f : CellFault) (h : CellHeap α) : h.Frees (h.crash f) [] :=
  ⟨le_rfl, fun _ hl => absurd hl List.not_mem_nil, fun _ _ _ => rfl, fun _ => Option.some_ne_none f⟩

@[simp] lemma crash_fault (f : CellFault) (h : CellHeap α) : (h.crash f).fault = some f := rfl

lemma frees_tick (mem : ℕ → Bool) (h : CellHeap α) : h.Frees (h.tick mem).2 [] :=
  ⟨le_rfl, fun _ hl => absurd hl List.not_mem_nil, fun _ _ _ => rfl, id⟩

@[simp] lemma tick_fault (mem : ℕ → Bool) (h : CellHeap α) : (h.tick mem).2.fault = h.fault := rfl

lemma frees_free (l : ℕ) (h : CellHeap α) : h.Frees (h.free l) [l] := by
  unfold free
  split
  · next hnone =>
    refine ⟨le_rfl, fun l' hl' _ => ?_, fun _ _ _ => rfl, fun _ => Option.some_ne_none _⟩
    rw [List.mem_singleton.mp hl']
    exact hnone
  · refine ⟨(List.length_set ..).ge, fun l' hl' hlt => ?_, fun l' _ hl' => ?_, id⟩
    · rw [List.mem_singleton.mp hl'] at hlt ⊢
      rw [read?, List.getElem?_set_self hlt]
      rfl
    · rw [List.mem_singleton] at hl'
      rw [read?, List.getElem?_set_ne (Ne.symm hl')]
      rfl

lemma free_fault (hlive : h.Live l) : (h.free l).fault = h.fault := by
  unfold free
  split
  · next hnone => exact absurd hnone hlive.ne_none
  · rfl

/-- An allocation gives a fresh cell with the content, or fails; nothing else changes. -/
lemma alloc_cases (mem : ℕ → Bool) (a : α) (h : CellHeap α) :
    (mem h.ticks = true ∧ (h.alloc mem a).1 = some h.cells.length ∧
        (h.alloc mem a).2.read? h.cells.length = some a) ∨
      (mem h.ticks = false ∧ (h.alloc mem a).1 = none) := by
  unfold alloc
  cases hmem : mem h.ticks with
  | true =>
    refine Or.inl ⟨rfl, rfl, ?_⟩
    simp [read?]
  | false => exact Or.inr ⟨rfl, rfl⟩

lemma frees_alloc (mem : ℕ → Bool) (a : α) (h : CellHeap α) : h.Frees (h.alloc mem a).2 [] := by
  unfold alloc
  split
  · refine ⟨by simp, fun _ hl => absurd hl List.not_mem_nil, fun l hlt _ => ?_, id⟩
    rw [read?, List.getElem?_append_left hlt]
    rfl
  · exact ⟨le_rfl, fun _ hl => absurd hl List.not_mem_nil, fun _ _ _ => rfl, id⟩

@[simp] lemma alloc_fault (mem : ℕ → Bool) (a : α) (h : CellHeap α) :
    (h.alloc mem a).2.fault = h.fault := by
  unfold alloc
  split <;> rfl

/-- What an allocation leaves alone, whether it succeeds or not. -/
lemma alloc_eq {mem : ℕ → Bool} {a : α} {o : Option ℕ} (halloc : h.alloc mem a = (o, h')) :
    h.Frees h' [] ∧ h'.fault = h.fault := by
  have hfrees := frees_alloc mem a h
  have hfault := alloc_fault mem a h
  rw [halloc] at hfrees hfault
  exact ⟨hfrees, hfault⟩

/-! ## Ownership -/

/-- An owner of the cells `old` becomes the owner of the cells `new`: they are live, and each of
them was one of the old ones or is fresh; of the others some were freed. -/
structure Moves (h h' : CellHeap α) (old new freed : List ℕ) : Prop where
  frees : h.Frees h' freed
  freed_mem : ∀ l ∈ freed, l ∈ old ∧ l ∉ new
  nodup : new.Nodup
  live : ∀ l ∈ new, h'.Live l
  source : ∀ l ∈ new, l ∈ old ∨ h.cells.length ≤ l

/-- Fresh cells of one step and of the next. -/
lemma Moves.append (hm : h.Moves h' [] ls []) (hm' : h'.Moves h'' [] ms []) :
    h.Moves h'' [] (ls ++ ms) [] := by
  have hfresh : ∀ l ∈ ms, h'.cells.length ≤ l :=
    fun l hl => (hm'.source l hl).resolve_left List.not_mem_nil
  refine ⟨hm.frees.trans hm'.frees, fun _ hl => absurd hl List.not_mem_nil, ?_, fun l hl => ?_,
    fun l hl => ?_⟩
  · refine List.nodup_append'.mpr ⟨hm.nodup, hm'.nodup, fun l hl hl' => ?_⟩
    exact absurd (hm.live l hl).lt (not_lt.mpr (hfresh l hl'))
  · rcases List.mem_append.mp hl with hl | hl
    · exact hm'.frees.stays_live (hm.live l hl) List.not_mem_nil
    · exact hm'.live l hl
  · rcases List.mem_append.mp hl with hl | hl
    · exact hm.source l hl
    · exact Or.inr (hm.frees.grows.trans (hfresh l hl))

/-- An owner may give cells up without freeing them. -/
lemma Moves.leak (hm : h.Moves h' [] ls []) (ms : List ℕ) : h.Moves h' ms ls [] :=
  ⟨hm.frees, fun _ hl => absurd hl List.not_mem_nil, hm.nodup, hm.live,
    fun l hl => Or.inr ((hm.source l hl).resolve_left List.not_mem_nil)⟩

/-- Where no cell is freed, an owner keeps its cells. -/
lemma Frees.keeps (hf : h.Frees h' []) (hnodup : ls.Nodup) (hlive : ∀ l ∈ ls, h.Live l) :
    h.Moves h' ls ls [] :=
  ⟨hf, fun _ hl => absurd hl List.not_mem_nil, hnodup, fun l hl => hf.stays_live
    (hlive l hl) List.not_mem_nil,
    fun _ hl => Or.inl hl⟩

/-- What happens when an owner frees all its cells. -/
lemma Frees.all (hf : h.Frees h' ls) : h.Moves h' ls [] ls :=
  ⟨hf, fun _ hl => ⟨hl, List.not_mem_nil⟩, List.nodup_nil, fun _ hl => absurd hl List.not_mem_nil,
    fun _ hl => absurd hl List.not_mem_nil⟩

/-- A cell that was allocated is a fresh one. -/
lemma moves_alloc {mem : ℕ → Bool} {a : α} (halloc : h.alloc mem a = (some l, h')) :
    h.Moves h' [] [l] [] := by
  have hfrees := frees_alloc mem a h
  rcases alloc_cases mem a h with ⟨-, hsome, hcontent⟩ | ⟨-, hnone⟩
  · rw [halloc] at hfrees hsome hcontent
    obtain rfl : l = h.cells.length := Option.some.inj hsome
    refine ⟨hfrees, fun _ hl => absurd hl List.not_mem_nil, List.nodup_singleton _, fun l' hl' =>
      ?_, fun l' hl' => ?_⟩
    · rw [List.mem_singleton.mp hl']
      exact live_of_ne_none (by rw [hcontent]; exact Option.some_ne_none a)
    · exact Or.inr (List.mem_singleton.mp hl').ge
  · rw [halloc] at hnone
    cases hnone

/-- Every owner has its cells, each of which is live and has no other owner. -/
structure Owned {ι : Type} (h : CellHeap α) (cells : ι → List ℕ) : Prop where
  nodup : ∀ i, (cells i).Nodup
  live : ∀ i, ∀ l ∈ cells i, h.Live l
  apart : ∀ i j, i ≠ j → ∀ l ∈ cells i, l ∉ cells j

/-- What one owner does with its cells leaves the others alone. -/
lemma Owned.moves {ι : Type} {cells cells' : ι → List ℕ} (ho : h.Owned cells) {k : ι}
    {freed : List ℕ}
    (hm : h.Moves h' (cells k) (cells' k) freed) (hother : ∀ i, i ≠ k → cells' i = cells i) :
    h'.Owned cells' := by
  have hsource : ∀ i, i ≠ k → ∀ l ∈ cells i, l ∉ cells' k := by
    intro i hik l hl hnew
    rcases hm.source l hnew with hold | hfresh
    · exact ho.apart i k hik l hl hold
    · exact absurd (ho.live i l hl).lt (not_lt.mpr hfresh)
  refine ⟨fun i => ?_, fun i l hl => ?_, fun i j hij l hl hl' => ?_⟩
  · by_cases hik : i = k
    · rw [hik]
      exact hm.nodup
    · rw [hother i hik]
      exact ho.nodup i
  · by_cases hik : i = k
    · rw [hik] at hl
      exact hm.live l hl
    · rw [hother i hik] at hl
      exact hm.frees.stays_live (ho.live i l hl) fun hfreed =>
        ho.apart i k hik l hl (hm.freed_mem l hfreed).1
  · by_cases hik : i = k
    · have hjk : j ≠ k := fun h => hij (hik.trans h.symm)
      rw [hik] at hl
      rw [hother j hjk] at hl'
      exact hsource j hjk l hl' hl
    · rw [hother i hik] at hl
      by_cases hjk : j = k
      · rw [hjk] at hl'
        exact hsource i hik l hl hl'
      · rw [hother j hjk] at hl'
        exact ho.apart i j hij l hl hl'

/-- Owners may give cells up without freeing them. -/
lemma Owned.mono {ι : Type} {cells cells' : ι → List ℕ} (ho : h.Owned cells)
    (hsub : ∀ i, (cells' i).Sublist (cells i)) : h.Owned cells' :=
  ⟨fun i => (ho.nodup i).sublist (hsub i), fun i l hl => ho.live i l ((hsub i).subset hl),
    fun i j hij l hl hl' => ho.apart i j hij l ((hsub i).subset hl) ((hsub j).subset hl')⟩

end CellHeap
