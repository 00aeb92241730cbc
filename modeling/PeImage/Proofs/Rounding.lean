/-
Rounding up without bound, and what the arithmetic of 32 bits keeps of it.

* `roundUp`: the least multiple of a unit that is not smaller, as a natural number;
* `le_roundUp`, `roundUp_lt`, `dvd_roundUp`, `roundUp_le`: the four facts that determine it;
* `toNat_alignUp_eq`: rounding a word up gives the unbounded result modulo `2 ^ 32`, and
  `roundUp_le_size`: that result is at most `2 ^ 32`, so the only loss is that `2 ^ 32` itself comes
  out as zero; `alignUp_eq_self_iff`: it leaves the multiples as they are;
* `toNat_pagesFor_mul`: the pages that hold a size, in bytes.
-/
import PeImage.Alignment.Rounding

namespace PeImage

/-- `n` rounded up to a multiple of `a`, in unbounded arithmetic. -/
def roundUp (n a : ℕ) : ℕ := (n + (a - 1)) / a * a

/-! ### The least multiple -/

lemma le_roundUp {a : ℕ} (ha : 0 < a) (n : ℕ) : n ≤ roundUp n a := by
  have h := Nat.div_add_mod (n + (a - 1)) a
  have hr := Nat.mod_lt (n + (a - 1)) ha
  rw [roundUp, Nat.mul_comm]
  omega

lemma roundUp_lt {a : ℕ} (ha : 0 < a) (n : ℕ) : roundUp n a < n + a := by
  have h := Nat.div_mul_le_self (n + (a - 1)) a
  rw [roundUp]
  omega

lemma dvd_roundUp (n a : ℕ) : a ∣ roundUp n a := Dvd.intro_left _ rfl

/-- No multiple lies between a number and its rounded form. -/
lemma roundUp_le {n m a : ℕ} (ha : 0 < a) (h : n ≤ m) (hd : a ∣ m) : roundUp n a ≤ m := by
  obtain ⟨q, rfl⟩ := hd
  have hlt : n + (a - 1) < a * (q + 1) := by
    rw [Nat.mul_add]
    omega
  have hq : (n + (a - 1)) / a ≤ q := Nat.lt_succ_iff.mp (Nat.div_lt_of_lt_mul hlt)
  calc roundUp n a = (n + (a - 1)) / a * a := rfl
    _ ≤ q * a := Nat.mul_le_mul_right a hq
    _ = a * q := Nat.mul_comm q a

lemma roundUp_mono {n m a : ℕ} (ha : 0 < a) (h : n ≤ m) : roundUp n a ≤ roundUp m a :=
  roundUp_le ha (h.trans (le_roundUp ha m)) (dvd_roundUp m a)

/-- A multiple is its own rounded form. -/
lemma roundUp_of_dvd {n a : ℕ} (ha : 0 < a) (hd : a ∣ n) : roundUp n a = n :=
  le_antisymm (roundUp_le ha le_rfl hd) (le_roundUp ha n)

lemma roundUp_pos {n a : ℕ} (ha : 0 < a) (hn : 0 < n) : 0 < roundUp n a :=
  hn.trans_le (le_roundUp ha n)

/-- Only what exceeds a multiple is rounded. -/
lemma roundUp_add_of_dvd {m a : ℕ} (ha : 0 < a) (hd : a ∣ m) (n : ℕ) :
    roundUp (m + n) a = m + roundUp n a := by
  obtain ⟨q, rfl⟩ := hd
  rw [roundUp, roundUp, Nat.add_assoc, Nat.mul_add_div ha, Nat.add_mul, Nat.mul_comm q]

/-- Rounding to a finer unit first changes nothing. -/
lemma roundUp_roundUp {n d a : ℕ} (hd : 0 < d) (ha : 0 < a) (h : d ∣ a) :
    roundUp (roundUp n d) a = roundUp n a := by
  have hfine : roundUp n d ≤ roundUp n a :=
    roundUp_le hd (le_roundUp ha n) (h.trans (dvd_roundUp n a))
  apply le_antisymm
  · exact roundUp_le ha hfine (dvd_roundUp n a)
  · exact roundUp_mono ha (le_roundUp hd n)

/-- The units that a number fills, the last one perhaps in part, are those that begin in front of
it. -/
lemma lt_roundUp_div_iff {n a p : ℕ} (ha : 0 < a) : p < roundUp n a / a ↔ p * a < n := by
  rw [roundUp, Nat.mul_div_cancel _ ha, Nat.lt_iff_add_one_le, Nat.le_div_iff_mul_le ha,
    Nat.add_mul, Nat.one_mul]
  omega

lemma roundUp_div_mul (n a : ℕ) : roundUp n a / a * a = roundUp n a :=
  Nat.div_mul_cancel (dvd_roundUp n a)

/-! ### Words -/

/-- Powers of two below `2 ^ 32` divide it. -/
lemma dvd_size_of_isPowerOfTwo {a : UInt32} (ha : a.toNat.isPowerOfTwo) :
    a.toNat ∣ UInt32.size := by
  obtain ⟨k, hk⟩ := ha
  have hlt : 2 ^ k < 2 ^ 32 := hk ▸ a.toNat_lt
  rw [hk]
  exact Nat.pow_dvd_pow 2 (Nat.le_of_lt ((Nat.pow_lt_pow_iff_right Nat.one_lt_two).mp hlt))

/-- Of two powers of two, the smaller one divides the larger one. -/
lemma dvd_of_isPowerOfTwo {a b : ℕ} (ha : a.isPowerOfTwo) (hb : b.isPowerOfTwo) (h : a ≤ b) :
    a ∣ b := by
  obtain ⟨k, rfl⟩ := ha
  obtain ⟨l, rfl⟩ := hb
  exact Nat.pow_dvd_pow 2 ((Nat.pow_le_pow_iff_right Nat.one_lt_two).mp h)

/-- One less than a power of two, without a wrap. -/
lemma toNat_sub_one_of_isPowerOfTwo {a : UInt32} (ha : a.toNat.isPowerOfTwo) :
    (a - 1).toNat = a.toNat - 1 := by
  obtain ⟨k, hk⟩ := ha
  rw [toNat_pred hk, hk]

/-- A word rounded up is at most `2 ^ 32`. -/
lemma roundUp_le_size {a : UInt32} (ha : a.toNat.isPowerOfTwo) (v : UInt32) :
    roundUp v.toNat a.toNat ≤ UInt32.size :=
  roundUp_le (Nat.pos_of_isPowerOfTwo ha) (Nat.le_of_lt v.toNat_lt) (dvd_size_of_isPowerOfTwo ha)

/-- Rounding a word up is rounding without bound, modulo `2 ^ 32`. -/
lemma toNat_alignUp_eq {a : UInt32} (ha : a.toNat.isPowerOfTwo) (v : UInt32) :
    (alignUp v a).toNat = roundUp v.toNat a.toNat % UInt32.size := by
  obtain ⟨m, hm⟩ := dvd_size_of_isPowerOfTwo ha
  obtain ⟨k, hk⟩ := ha
  rw [toNat_alignUp hk, roundUp, ← hk, show (2 : ℕ) ^ 32 = a.toNat * m from hm, hm,
    Nat.mod_mul_right_div_self, Nat.mul_comm a.toNat m, Nat.mul_mod_mul_right]

/-- Where the rounded form fits into a word, nothing is lost. -/
lemma toNat_alignUp_of_lt {a v : UInt32} (ha : a.toNat.isPowerOfTwo)
    (h : roundUp v.toNat a.toNat < UInt32.size) :
    (alignUp v a).toNat = roundUp v.toNat a.toNat := by
  rw [toNat_alignUp_eq ha, Nat.mod_eq_of_lt h]

/-- Where it does not, zero comes out. -/
lemma alignUp_eq_zero {a v : UInt32} (ha : a.toNat.isPowerOfTwo)
    (h : UInt32.size ≤ roundUp v.toNat a.toNat) : alignUp v a = 0 := by
  refine UInt32.toNat_inj.mp ?_
  rw [toNat_alignUp_eq ha, le_antisymm (roundUp_le_size ha v) h, Nat.mod_self]
  rfl

/-- In both cases a multiple comes out. -/
lemma dvd_toNat_alignUp {a : UInt32} (ha : a.toNat.isPowerOfTwo) (v : UInt32) :
    a.toNat ∣ (alignUp v a).toNat := by
  rw [toNat_alignUp_eq ha]
  exact (Nat.dvd_mod_iff (dvd_size_of_isPowerOfTwo ha)).mpr (dvd_roundUp _ _)

/-- The multiples are the words that rounding leaves as they are. -/
lemma alignUp_eq_self_iff {a v : UInt32} (ha : a.toNat.isPowerOfTwo) :
    alignUp v a = v ↔ a.toNat ∣ v.toNat := by
  constructor
  · intro h
    rw [← h]
    exact dvd_toNat_alignUp ha v
  · intro h
    have hround := roundUp_of_dvd (Nat.pos_of_isPowerOfTwo ha) h
    refine UInt32.toNat_inj.mp ?_
    rw [toNat_alignUp_of_lt ha (by rw [hround]; exact v.toNat_lt), hround]

/-! ### Pages -/

lemma pageSize_pos : 0 < pageSize := by decide

lemma isPowerOfTwo_pageSize : pageSize.isPowerOfTwo := ⟨12, rfl⟩

lemma isPowerOfTwo_pageSize32 : pageSize32.toNat.isPowerOfTwo := isPowerOfTwo_pageSize

/-- The pages that hold a size, in bytes. -/
lemma toNat_pagesFor_mul (size : UInt32) :
    (pagesFor size).toNat * pageSize = roundUp size.toNat pageSize := by
  rw [toNat_pagesFor, roundUp]

/-- The test for an alignment means what it says. -/
lemma isPowerOfTwo_of_test {v : UInt32} (hz : (v == 0) = false)
    (h : (!isPowerOfTwoOrZero v) = false) : v.toNat.isPowerOfTwo := by
  rw [Bool.not_eq_false', isPowerOfTwoOrZero_iff] at h
  exact h.resolve_left (by simpa using hz)

end PeImage
