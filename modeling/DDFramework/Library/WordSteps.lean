import DDFramework.Library.Alignment
import Mathlib.Data.Int.GCD
import Mathlib.Data.Nat.Prime.Basic

/-! # Stepping through the words

A word that is increased by a step, modulo its width, comes to every word that is a multiple of
the same power of two. Clearing the bits below the step leaves such a word, also where the step
is no power of two. -/

namespace DDFramework

/-- The multiples of a number run through the multiples of its greatest common divisor with the
modulus. -/
theorem exists_mul_mod_eq {step target modulus : ℕ} (h : Nat.gcd step modulus ∣ target)
    (ht : target < modulus) : ∃ k, k * step % modulus = target := by
  obtain ⟨q, rfl⟩ := h
  have hpos : 0 < modulus := Nat.zero_lt_of_lt ht
  rcases Nat.eq_or_lt_of_le (Nat.gcd_le_right step hpos) with heq | hlt
  · have hzero : q = 0 := by
      by_contra hne
      have hle := Nat.le_mul_of_pos_right (Nat.gcd step modulus) (Nat.pos_of_ne_zero hne)
      omega
    exact ⟨0, by rw [hzero, Nat.mul_zero, Nat.zero_mul, Nat.zero_mod]⟩
  · obtain ⟨m, -, hm⟩ := Nat.exists_mul_mod_eq_gcd hlt
    refine ⟨m * q, ?_⟩
    calc m * q * step % modulus = step * m % modulus * q % modulus := by
          rw [Nat.mod_mul_mod, Nat.mul_right_comm, Nat.mul_comm m]
      _ = Nat.gcd step modulus * q := by rw [hm, Nat.mod_eq_of_lt ht]

/-- The mask below a multiple of a power of two has all the bits below it. -/
theorem toNat_sub_one_mod {w k : ℕ} {d : BitVec w} (hk : k ≤ w) (h : 2 ^ k ∣ d.toNat) :
    (d - 1).toNat % 2 ^ k = 2 ^ k - 1 := by
  rcases Nat.eq_zero_or_pos k with rfl | hk'
  · rw [Nat.pow_zero, Nat.mod_one]
  obtain ⟨q, hq⟩ := h
  obtain ⟨m, hm⟩ : ∃ m, 2 ^ (w - k) = m + 1 := Nat.exists_eq_succ_of_ne_zero (by simp)
  have hwidth : 2 ^ w = 2 ^ k * m + 2 ^ k := by
    rw [← Nat.mul_succ, Nat.succ_eq_add_one, ← hm, ← Nat.pow_add, Nat.add_sub_of_le hk]
  have hpos : 0 < 2 ^ k := Nat.two_pow_pos k
  have hone : (1 : BitVec w).toNat = 1 := BitVec.toNat_one (by omega)
  have hsum : 2 ^ w - (1 : BitVec w).toNat + d.toNat = 2 ^ k * (m + q) + (2 ^ k - 1) := by
    rw [hone, hq, Nat.mul_add, hwidth]
    omega
  rw [BitVec.toNat_sub, hsum, Nat.mod_mod_of_dvd _ (Nat.pow_dvd_pow 2 hk), Nat.mul_add_mod,
    Nat.mod_eq_of_lt (Nat.sub_lt hpos Nat.one_pos)]

/-- Clearing the bits of the mask leaves a multiple. -/
theorem dvd_toNat_and_not_sub_one {w k : ℕ} (x : BitVec w) {d : BitVec w} (hk : k ≤ w)
    (h : 2 ^ k ∣ d.toNat) : 2 ^ k ∣ (x &&& ~~~(d - 1)).toNat := by
  refine Nat.dvd_of_mod_eq_zero (Nat.eq_of_testBit_eq fun i => ?_)
  rw [Nat.testBit_mod_two_pow, Nat.zero_testBit]
  by_cases hi : i < k
  · have hmask : (d - 1).getLsbD i = true := by
      have hbit := congrArg (·.testBit i) (toNat_sub_one_mod hk h)
      rw [← BitVec.testBit_toNat]
      simpa only [Nat.testBit_mod_two_pow, Nat.testBit_two_pow_sub_one, hi, decide_true,
        Bool.true_and] using hbit
    have hbit : (x &&& ~~~(d - 1)).getLsbD i = false := by
      rw [BitVec.getLsbD_and, BitVec.getLsbD_not, hmask, Bool.not_true, Bool.and_false,
        Bool.and_false]
    rw [BitVec.testBit_toNat, hbit, Bool.and_false]
  · simp [hi]

/-- The steps from zero come to the word without the bits of the mask. -/
theorem exists_steps {w : ℕ} (x d : BitVec w) :
    ∃ k, k * d.toNat % 2 ^ w = (x &&& ~~~(d - 1)).toNat := by
  obtain ⟨k, hk, hgcd⟩ := (Nat.dvd_prime_pow Nat.prime_two).mp (Nat.gcd_dvd_right d.toNat (2 ^ w))
  refine exists_mul_mod_eq ?_ (x &&& ~~~(d - 1)).isLt
  rw [hgcd]
  exact dvd_toNat_and_not_sub_one x hk (hgcd ▸ Nat.gcd_dvd_left d.toNat (2 ^ w))

end DDFramework
