import Mathlib.Data.BitVec

/-! # Rounding up

Rounding on natural numbers, and the mask with which words are rounded to a power of two. -/

namespace DDFramework

/-- The least multiple of `m` that is not below `n`. -/
def roundUp (n m : ℕ) : ℕ := (n + m - 1) / m * m

theorem toNat_twoPow_sub_one {w k : ℕ} (hk : k < w) :
    (BitVec.twoPow w k - 1).toNat = 2 ^ k - 1 := by
  have hone : (1 : BitVec w).toNat = 1 := BitVec.toNat_one (Nat.zero_lt_of_lt hk)
  have htwo : (BitVec.twoPow w k).toNat = 2 ^ k := BitVec.toNat_twoPow_of_lt hk
  rw [BitVec.toNat_sub_of_le, hone, htwo]
  rw [BitVec.le_def, hone, htwo]
  exact Nat.two_pow_pos k

/-- The complement of the mask clears the low bits. -/
theorem toNat_and_not_mask {w : ℕ} (x : BitVec w) {k : ℕ} (hk : k < w) :
    (x &&& ~~~(BitVec.twoPow w k - 1)).toNat = x.toNat / 2 ^ k * 2 ^ k := by
  have hmask := toNat_twoPow_sub_one hk
  have hshift : x &&& ~~~(BitVec.twoPow w k - 1) = (x >>> k) <<< k := by
    apply BitVec.eq_of_getLsbD_eq
    intro i hi
    have hbit : (BitVec.twoPow w k - 1).getLsbD i = decide (i < k) := by
      rw [BitVec.getLsbD, hmask, Nat.testBit_two_pow_sub_one]
    simp only [BitVec.getLsbD_and, BitVec.getLsbD_not, hbit, BitVec.getLsbD_shiftLeft,
      BitVec.getLsbD_ushiftRight, hi, decide_true, Bool.true_and]
    by_cases hlt : i < k
    · simp [hlt]
    · have hge : k + (i - k) = i := Nat.add_sub_of_le (Nat.le_of_not_lt hlt)
      simp [hlt, hge]
  rw [hshift, BitVec.toNat_shiftLeft, BitVec.toNat_ushiftRight, Nat.shiftRight_eq_div_pow,
    Nat.shiftLeft_eq]
  apply Nat.mod_eq_of_lt
  exact Nat.lt_of_le_of_lt (Nat.div_mul_le_self _ _) x.isLt

theorem le_roundUp (n : ℕ) {m : ℕ} (hm : 0 < m) : n ≤ roundUp n m := by
  have hdiv := Nat.div_add_mod (n + m - 1) m
  have hlt := Nat.mod_lt (n + m - 1) hm
  rw [Nat.mul_comm] at hdiv
  rw [roundUp]
  omega

/-- A multiple is rounded up to itself. -/
theorem roundUp_of_dvd {n m : ℕ} (hm : 0 < m) (h : m ∣ n) : roundUp n m = n := by
  obtain ⟨q, rfl⟩ := h
  have hquotient : (m * q + m - 1) / m = q := by
    rw [Nat.add_sub_assoc hm, Nat.mul_add_div hm, Nat.div_eq_of_lt (Nat.sub_lt hm Nat.one_pos),
      Nat.add_zero]
  rw [roundUp, hquotient, Nat.mul_comm]

/-- The mask rounds a word up, modulo its width. -/
theorem toNat_add_and_not_mask {w : ℕ} {x : BitVec w} {n k : ℕ} (hk : k < w)
    (hx : x.toNat = n % 2 ^ w) :
    ((x + (BitVec.twoPow w k - 1)) &&& ~~~(BitVec.twoPow w k - 1)).toNat =
      roundUp n (2 ^ k) % 2 ^ w := by
  have hpos : 0 < 2 ^ k := Nat.two_pow_pos k
  have hwidth : 2 ^ w = 2 ^ k * 2 ^ (w - k) := by
    rw [← Nat.pow_add, Nat.add_sub_of_le hk.le]
  rw [toNat_and_not_mask _ hk, BitVec.toNat_add, toNat_twoPow_sub_one hk, hx, Nat.mod_add_mod,
    ← Nat.add_sub_assoc hpos, roundUp, hwidth, Nat.mod_mul_right_div_self,
    Nat.mul_comm (2 ^ k) (2 ^ (w - k)), Nat.mul_mod_mul_right]

end DDFramework
