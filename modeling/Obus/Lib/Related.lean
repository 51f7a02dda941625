import Mathlib.Data.List.Forall2

/-!
# Lists that are related entry by entry

What an entry of one of two related lists gives in the other, and operations on all entries of a
list (`mapM`) as relations between the entries and their results.
-/

variable {α β ε : Type} {R : α → β → Prop} {l : List α} {l' : List β}

/-- The entries that are related are those of the lists. -/
lemma List.Forall₂.with_mem (h : List.Forall₂ R l l') :
    List.Forall₂ (fun a b => a ∈ l ∧ b ∈ l' ∧ R a b) l l' := by
  refine List.forall₂_iff_zip.mpr ⟨h.length_eq, fun hab => ?_⟩
  exact ⟨(List.of_mem_zip hab).1, (List.of_mem_zip hab).2, List.forall₂_zip h hab⟩

lemma List.Forall₂.exists_right (h : List.Forall₂ R l l') {a : α} (ha : a ∈ l) :
    ∃ b ∈ l', R a b := by
  obtain ⟨i, hi, rfl⟩ := List.mem_iff_getElem.mp ha
  have hi' : i < l'.length := h.length_eq ▸ hi
  exact ⟨l'[i], List.getElem_mem hi', h.get hi hi'⟩

lemma List.Forall₂.exists_left (h : List.Forall₂ R l l') {b : β} (hb : b ∈ l') :
    ∃ a ∈ l, R a b := by
  obtain ⟨i, hi, rfl⟩ := List.mem_iff_getElem.mp hb
  have hi' : i < l.length := h.length_eq ▸ hi
  exact ⟨l[i], List.getElem_mem hi', h.get hi' hi⟩

/-- Operations that all succeed. -/
lemma List.mapM_eq_ok {f : α → Except ε β} {g : α → β} (h : ∀ a ∈ l, f a = .ok (g a)) :
    l.mapM f = .ok (l.map g) := by
  induction l with
  | nil => rfl
  | cons a l ih =>
    rw [List.mapM_cons, h a List.mem_cons_self, ih fun b hb => h b (List.mem_cons_of_mem a hb),
      List.map_cons]
    rfl

/-- Operations that all have a result, in order. -/
lemma List.mapM_eq_some_iff {f : α → Option β} :
    l.mapM f = some l' ↔ List.Forall₂ (fun a b => f a = some b) l l' := by
  induction l generalizing l' with
  | nil =>
    rw [List.forall₂_nil_left_iff]
    exact ⟨fun h => (Option.some.inj h).symm, fun h => congrArg some h.symm⟩
  | cons a l ih =>
    rw [List.mapM_cons, List.forall₂_cons_left_iff]
    constructor
    · intro h
      obtain ⟨b, hb, hrest⟩ := Option.bind_eq_some_iff.mp h
      obtain ⟨bs, hbs, hcons⟩ := Option.bind_eq_some_iff.mp hrest
      exact ⟨b, bs, hb, ih.mp hbs, (Option.some.inj hcons).symm⟩
    · rintro ⟨b, bs, hb, hbs, rfl⟩
      rw [hb, ih.mpr hbs]
      rfl