import Mathlib.Algebra.Order.Group.Abs
import Mathlib.Algebra.Order.Ring.Int
import Mathlib.Data.BitVec

/-! # Signed 64 bit words

Operations on words agree with the operations on integers as long as the result fits. -/

namespace DDFramework

/-- The values of a signed 64 bit word. -/
def FitsWord (x : ℤ) : Prop := -9223372036854775808 ≤ x ∧ x ≤ 9223372036854775807

variable {a b : BitVec 64}

theorem fitsWord_toInt (a : BitVec 64) : FitsWord a.toInt := by
  have hle := BitVec.le_toInt a
  have hlt := BitVec.toInt_lt (x := a)
  exact ⟨hle, Int.lt_add_one_iff.mp hlt⟩

theorem FitsWord.of_nonneg {x : ℤ} (hnonneg : 0 ≤ x) (hle : x ≤ 9223372036854775807) : FitsWord x :=
  ⟨le_trans (by decide) hnonneg, hle⟩

theorem FitsWord.of_abs_le {x : ℤ} (h : |x| ≤ 9223372036854775807) : FitsWord x :=
  ⟨(neg_le_neg (by decide)).trans (abs_le.mp h).1, (abs_le.mp h).2⟩

theorem FitsWord.bmod_eq {x : ℤ} (h : FitsWord x) : x.bmod (2 ^ 64) = x :=
  Int.bmod_eq_of_le h.1 (Int.lt_add_one_iff.mpr h.2)

theorem toInt_add_of_fits (h : FitsWord (a.toInt + b.toInt)) :
    (a + b).toInt = a.toInt + b.toInt := by
  rw [BitVec.toInt_add, h.bmod_eq]

theorem toInt_sub_of_fits (h : FitsWord (a.toInt - b.toInt)) :
    (a - b).toInt = a.toInt - b.toInt := by
  rw [BitVec.toInt_sub, h.bmod_eq]

theorem toInt_mul_of_fits (h : FitsWord (a.toInt * b.toInt)) :
    (a * b).toInt = a.toInt * b.toInt := by
  rw [BitVec.toInt_mul, h.bmod_eq]

theorem toInt_neg_of_fits (h : FitsWord (-a.toInt)) : (-a).toInt = -a.toInt := by
  rw [BitVec.toInt_neg, h.bmod_eq]

theorem toInt_sdiv_of_fits (h : FitsWord (a.toInt.tdiv b.toInt)) :
    (a.sdiv b).toInt = a.toInt.tdiv b.toInt := by
  rw [BitVec.toInt_sdiv, h.bmod_eq]

/-- The remainder of nonnegative words. -/
theorem toInt_srem_of_nonneg (ha : 0 ≤ a.toInt) : (a.srem b).toInt = a.toInt % b.toInt := by
  rw [BitVec.toInt_srem, Int.tmod_eq_emod_of_nonneg ha]

theorem toInt_sdiv_of_nonneg (ha : 0 ≤ a.toInt) (hb : 0 ≤ b.toInt) :
    (a.sdiv b).toInt = a.toInt / b.toInt := by
  have hfits : FitsWord (a.toInt / b.toInt) := by
    refine .of_nonneg (Int.ediv_nonneg ha hb) ?_
    exact (Int.ediv_le_self _ ha).trans (fitsWord_toInt a).2
  rw [BitVec.toInt_sdiv, Int.tdiv_eq_ediv_of_nonneg ha, hfits.bmod_eq]

/-- The unsigned value of a nonnegative word. -/
theorem toNat_of_nonneg (ha : 0 ≤ a.toInt) : (a.toNat : ℤ) = a.toInt := by
  rw [BitVec.toInt_eq_toNat_cond] at ha ⊢
  split
  · rfl
  · next h =>
    rw [if_neg h] at ha
    have hlt := a.isLt
    omega

end DDFramework
