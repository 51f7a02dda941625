import Mathlib.Tactic

/-!
# Buffers of characters

A buffer of C is the list of its bytes.  A store outside of it gives nothing, and so does the length
of a string that has no end in it.  The lemmas are about a buffer that starts with a text, has some
room behind it, and goes on with bytes that are out of bounds: a store behind the text takes the
room (`storeAll_append`), a truncated text fits in it (`snprintf_append`), and the length of the
text is found where it ends (`strlen_append`).
-/

/-- Store bytes one behind the other. -/
def storeAll : List UInt8 → ℕ → List UInt8 → Option (List UInt8)
  | buf, _, [] => some buf
  | buf, i, c :: cs => if i < buf.length then storeAll (buf.set i c) (i + 1) cs else none

/-- `strlen`: the place of the first null byte. -/
def strlen (buf : List UInt8) : Option ℕ := buf.findIdx? fun c => c = 0

/-- `snprintf`, of a text: as much of it as there is room for, and a null byte. -/
def snprintf (buf : List UInt8) (i size : ℕ) (text : List UInt8) : Option (List UInt8) :=
  if size = 0 then some buf else storeAll buf i (text.take (size - 1) ++ [0])

section Buffers

variable {s r z cs text : List UInt8} {c : UInt8}

lemma storeAll_append (h : cs.length ≤ r.length) :
    storeAll (s ++ (r ++ z)) s.length cs = some (s ++ cs ++ (r.drop cs.length ++ z)) := by
  induction cs generalizing s r with
  | nil => rw [storeAll, List.append_nil, List.length_nil, List.drop_zero]
  | cons c cs ih =>
    cases r with
    | nil => exact absurd h (by simp)
    | cons a r =>
      have hlt : s.length < (s ++ (a :: r ++ z)).length := by
        rw [List.length_append, List.cons_append, List.length_cons]
        omega
      have hset : (s ++ (a :: r ++ z)).set s.length c = (s ++ [c]) ++ (r ++ z) := by
        rw [List.set_append_right s.length c le_rfl, Nat.sub_self]
        simp
      have hrest := ih (s := s ++ [c]) (r := r) (Nat.le_of_succ_le_succ h)
      rw [List.length_append, List.length_singleton] at hrest
      rw [storeAll, if_pos hlt, hset, hrest]
      simp

lemma strlen_append (h : 0 ∉ s) : strlen (s ++ 0 :: z) = some s.length := by
  induction s with
  | nil => rfl
  | cons a s ih =>
    have ha : a ≠ 0 := fun h0 => h (h0 ▸ List.mem_cons_self)
    have hrest := ih fun hmem => h (List.mem_cons_of_mem a hmem)
    rw [strlen] at hrest ⊢
    rw [List.cons_append, List.findIdx?_cons, hrest]
    simp [ha]

/-- A text is truncated to the room, without the place for the null byte. -/
lemma snprintf_append (h : 0 < r.length) : snprintf (s ++ (r ++ z)) s.length r.length text =
    some (s ++ text.take (r.length - 1) ++ 0 ::
      (r.drop ((text.take (r.length - 1)).length + 1) ++ z)) := by
  have hroom : (text.take (r.length - 1) ++ [0]).length ≤ r.length := by
    rw [List.length_append, List.length_take, List.length_singleton]
    omega
  rw [snprintf, if_neg h.ne', storeAll_append hroom, List.length_append, List.length_singleton]
  simp

end Buffers
