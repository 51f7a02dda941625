import Mathlib.Data.Nat.Bitwise
import Mathlib.Tactic

/-!
# Bits packed in words

A set of numbers is kept in a list of 32-bit words, one bit for each number.  Testing a bit after
another one was set or cleared is the matter of their numbers alone, across the borders of the
words.
-/

/-- The mask of a bit in its word. -/
def bitMask (i : ℕ) : UInt32 := (1 : UInt32) <<< UInt32.ofNat (i % 32)

/-- Whether a bit is set. -/
def bitTest (ws : List UInt32) (i : ℕ) : Bool := ws.getD (i / 32) 0 &&& bitMask i != 0

/-- Set a bit. -/
def bitSet (ws : List UInt32) (i : ℕ) : List UInt32 := ws.modify (i / 32) fun w => w ||| bitMask i

/-- Clear a bit. -/
def bitClear (ws : List UInt32) (i : ℕ) : List UInt32 :=
  ws.modify (i / 32) fun w => w &&& ~~~bitMask i

@[simp] lemma length_bitSet (ws : List UInt32) (i : ℕ) : (bitSet ws i).length = ws.length :=
  List.length_modify ..

@[simp] lemma length_bitClear (ws : List UInt32) (i : ℕ) : (bitClear ws i).length = ws.length :=
  List.length_modify ..

lemma bitMask_toNat (i : ℕ) : (bitMask i).toNat = 2 ^ (i % 32) := by
  have hlt : i % 32 < 32 := Nat.mod_lt i (by norm_num)
  have hpow : 2 ^ (i % 32) < 2 ^ 32 := Nat.pow_lt_pow_right (by norm_num) hlt
  have hshift : (UInt32.ofNat (i % 32)).toNat % 32 = i % 32 := by
    rw [UInt32.toNat_ofNat', Nat.mod_eq_of_lt (hlt.trans (by norm_num)), Nat.mod_eq_of_lt hlt]
  rw [bitMask, UInt32.toNat_shiftLeft, hshift, UInt32.toNat_one, Nat.shiftLeft_eq, Nat.one_mul,
    Nat.mod_eq_of_lt hpow]

/-- A word has a bit in common with the mask of a number exactly if it has this bit. -/
lemma and_bitMask_ne_zero (w : UInt32) (i : ℕ) :
    (w &&& bitMask i != 0) = w.toNat.testBit (i % 32) := by
  have hnat : (w &&& bitMask i).toNat = (w.toNat.testBit (i % 32)).toNat * 2 ^ (i % 32) := by
    rw [UInt32.toNat_and, bitMask_toNat, Nat.and_two_pow]
  have hpos : 2 ^ (i % 32) ≠ 0 := (Nat.two_pow_pos _).ne'
  have hzero : (w &&& bitMask i = 0) ↔ w.toNat.testBit (i % 32) = false := by
    rw [← UInt32.toNat_inj, hnat, UInt32.toNat_zero, Nat.mul_eq_zero, or_iff_left hpos]
    cases w.toNat.testBit (i % 32) <;> simp
  by_cases h : w &&& bitMask i = 0
  · rw [hzero.mp h, h]
    rfl
  · have hset : w.toNat.testBit (i % 32) = true := by
      rw [← Bool.not_eq_false]
      exact mt hzero.mpr h
    rw [hset, bne_iff_ne]
    exact h

/-- A bit of a list of words is the bit of its word. -/
lemma bitTest_eq (ws : List UInt32) (i : ℕ) :
    bitTest ws i = (ws.getD (i / 32) 0).toNat.testBit (i % 32) :=
  and_bitMask_ne_zero _ i

lemma getD_modify (ws : List UInt32) (f : UInt32 → UInt32) (j k : ℕ) (hk : k < ws.length) :
    (ws.modify j f).getD k 0 = if j = k then f (ws.getD k 0) else ws.getD k 0 := by
  rw [List.getD_eq_getElem?_getD, List.getElem?_modify, List.getD_eq_getElem?_getD,
    List.getElem?_eq_getElem hk]
  split <;> rfl

lemma bitTest_outside {ws : List UInt32} {i : ℕ} (h : ws.length ≤ i / 32) :
    bitTest ws i = false := by
  rw [bitTest_eq, List.getD_eq_getElem?_getD, List.getElem?_eq_none h]
  exact Nat.zero_testBit _

/-- Two numbers are equal if their words and their bits are. -/
lemma eq_iff_word_bit (i k : ℕ) : k = i ↔ i / 32 = k / 32 ∧ i % 32 = k % 32 := by
  constructor
  · rintro rfl
    exact ⟨rfl, rfl⟩
  · rintro ⟨hword, hbit⟩
    omega

/-- A bit after another one was set. -/
lemma bitTest_bitSet {ws : List UInt32} {i : ℕ} (hi : i < 32 * ws.length) (k : ℕ) :
    bitTest (bitSet ws i) k = (decide (k = i) || bitTest ws k) := by
  rcases Nat.lt_or_ge (k / 32) ws.length with hk | hk
  · rw [bitTest_eq, bitTest_eq, bitSet, getD_modify ws _ _ _ hk]
    by_cases hword : i / 32 = k / 32
    · rw [if_pos hword, UInt32.toNat_or, Nat.testBit_or, bitMask_toNat, Nat.testBit_two_pow,
        Bool.or_comm]
      simp [eq_iff_word_bit i k, hword]
    · rw [if_neg hword]
      simp [eq_iff_word_bit i k, hword]
  · have hne : k ≠ i := by omega
    rw [bitTest_outside (by rwa [length_bitSet]), bitTest_outside hk]
    simp [hne]
