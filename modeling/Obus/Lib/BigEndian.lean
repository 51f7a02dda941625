import Mathlib.Tactic

/-!
# Big-endian words

The bytes of a number, most significant first, and back.  `ofBigEndian_bigEndian` is the round trip
on every width; the lists of a given width are exactly the encodings of that width.
-/

/-- The `k` least significant bytes of `n`, most significant first. -/
def bigEndian : ℕ → ℕ → List UInt8
  | 0, _ => []
  | k + 1, n => bigEndian k (n / 256) ++ [UInt8.ofNat n]

/-- The number that a list of bytes denotes, most significant first. -/
def ofBigEndian (bs : List UInt8) : ℕ :=
  bs.foldl (fun n b => 256 * n + b.toNat) 0

@[simp] lemma bigEndian_length (k n : ℕ) : (bigEndian k n).length = k := by
  induction k generalizing n with
  | zero => rfl
  | succ k ih => simp [bigEndian, ih]

lemma ofBigEndian_append_singleton (bs : List UInt8) (b : UInt8) :
    ofBigEndian (bs ++ [b]) = 256 * ofBigEndian bs + b.toNat := by
  simp [ofBigEndian]

/-- Reading back the `k` bytes of `n` gives `n` modulo `256 ^ k`. -/
lemma ofBigEndian_bigEndian (k n : ℕ) : ofBigEndian (bigEndian k n) = n % 256 ^ k := by
  induction k generalizing n with
  | zero => simp [bigEndian, ofBigEndian, Nat.mod_one]
  | succ k ih =>
    have hdigit : (UInt8.ofNat n).toNat = n % 256 := by simp
    rw [bigEndian, ofBigEndian_append_singleton, ih, hdigit, pow_succ, mul_comm (256 ^ k) 256,
      Nat.mod_mul, Nat.add_comm]

/-- Reading back a number that fits in `k` bytes. -/
lemma ofBigEndian_bigEndian_of_lt {k n : ℕ} (hn : n < 256 ^ k) :
    ofBigEndian (bigEndian k n) = n := by
  rw [ofBigEndian_bigEndian, Nat.mod_eq_of_lt hn]

/-- A list of `k` bytes denotes a number below `256 ^ k`. -/
lemma ofBigEndian_lt (bs : List UInt8) : ofBigEndian bs < 256 ^ bs.length := by
  induction bs using List.reverseRecOn with
  | nil => simp [ofBigEndian]
  | append_singleton bs b ih =>
    have hb : b.toNat < 256 := b.toNat_lt
    rw [ofBigEndian_append_singleton, List.length_append, List.length_singleton, pow_succ]
    omega

/-- Only the number modulo `256 ^ k` matters to its `k` bytes. -/
lemma bigEndian_mod (k n : ℕ) : bigEndian k (n % 256 ^ k) = bigEndian k n := by
  induction k generalizing n with
  | zero => rfl
  | succ k ih =>
    have hhigh : n % 256 ^ (k + 1) / 256 = n / 256 % 256 ^ k := by
      rw [pow_succ, mul_comm, Nat.mod_mul_right_div_self]
    have hlow : UInt8.ofNat (n % 256 ^ (k + 1)) = UInt8.ofNat n := by
      have hdvd : 256 ∣ 256 ^ (k + 1) := Dvd.intro_left (256 ^ k) rfl
      apply UInt8.toNat_inj.mp
      simp [Nat.mod_mod_of_dvd n hdvd]
    rw [bigEndian, bigEndian, hhigh, ih, hlow]

/-- The four bytes of a number are those of its truncation to 32 bits. -/
lemma bigEndian_ofNat32 (n : ℕ) : bigEndian 4 (UInt32.ofNat n).toNat = bigEndian 4 n := by
  rw [UInt32.toNat_ofNat']
  exact bigEndian_mod 4 n
