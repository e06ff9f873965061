import DDFramework.Model.HandleTable
import Mathlib.Tactic.NormNum

/-! Arithmetic of the handle encoding and of the two readings of `m_counters`. -/

namespace DDFramework.HandleTable

theorem toNat_and_mask (handle : BitVec 32) :
    (handle &&& 0x7fff).toNat = handle.toNat % 2 ^ 15 := by
  rw [BitVec.toNat_and]
  exact Nat.and_two_pow_sub_one_eq_mod handle.toNat 15

theorem toNat_shift (handle : BitVec 32) :
    (handle >>> counterBitOffset).toNat = handle.toNat / 2 ^ 15 := by
  rw [BitVec.toNat_ushiftRight, Nat.shiftRight_eq_div_pow]
  rfl

theorem toNat_encodeHandle (index counter : BitVec 16) (h : index.toNat < 2 ^ 15) :
    (encodeHandle index counter).toNat = counter.toNat * 2 ^ 15 + index.toNat := by
  have hi := index.isLt
  have hc := counter.isLt
  have hlow : (index.setWidth 32 &&& (0x7fff : BitVec 32)).toNat = index.toNat := by
    rw [toNat_and_mask, BitVec.toNat_setWidth]
    omega
  have hhigh : (counter.setWidth 32 <<< counterBitOffset).toNat = counter.toNat * 2 ^ 15 := by
    rw [BitVec.toNat_shiftLeft, BitVec.toNat_setWidth, Nat.shiftLeft_eq]
    simp only [counterBitOffset]
    omega
  rw [encodeHandle, BitVec.toNat_or, hlow, hhigh, Nat.or_comm, ← Nat.shiftLeft_eq,
    Nat.shiftLeft_add_eq_or_of_lt h]

/-- Handles with the same index and generation are equal. -/
theorem encodeHandle_eq_iff (handle : BitVec 32) (index counter : BitVec 16)
    (h : index.toNat < 2 ^ 15) :
    handle = encodeHandle index counter ↔
      (handle &&& 0x7fff).toNat = index.toNat ∧
        (handle >>> counterBitOffset).toNat = counter.toNat := by
  rw [← BitVec.toNat_inj, toNat_encodeHandle index counter h, toNat_and_mask, toNat_shift]
  omega

theorem toNat_signExtend (counter : BitVec 16) (h : counter.toNat < 2 ^ 15) :
    (counter.signExtend 32).toNat = counter.toNat := by
  have hmsb : counter.msb = false := by
    rw [BitVec.msb_eq_false_iff_two_mul_lt]
    omega
  rw [BitVec.signExtend_eq_setWidth_of_msb_false hmsb, BitVec.toNat_setWidth]
  omega

/-- The generations go round in a circle of 32767. -/
theorem toNat_nextCounterValue {counter : BitVec 16}
    (h : 1 ≤ counter.toNat ∧ counter.toNat ≤ 0x7fff) :
    (nextCounterValue counter).toNat = counter.toNat % 32767 + 1 := by
  have hadd : (counter + 1).toNat = counter.toNat + 1 :=
    BitVec.toNat_add_of_lt (by change _ + 1 < 2 ^ 16; omega)
  unfold nextCounterValue
  split
  · rename_i hlt
    rw [BitVec.toInt_eq_toNat_cond, hadd] at hlt
    rw [hadd]
    split at hlt <;> omega
  · rename_i hlt
    rw [BitVec.toInt_eq_toNat_cond, hadd] at hlt
    change 1 = counter.toNat % 32767 + 1
    split at hlt <;> omega

/-- The next generation stays in the range 1 to `0x7fff`. -/
theorem nextCounterValue_range (counter : BitVec 16)
    (h : 1 ≤ counter.toNat ∧ counter.toNat < 2 ^ 15) :
    1 ≤ (nextCounterValue counter).toNat ∧ (nextCounterValue counter).toNat < 2 ^ 15 := by
  have hnext := toNat_nextCounterValue ⟨h.1, Nat.le_of_lt_succ h.2⟩
  omega

/-! ### Free-list links -/

/-- The value that ends the free list. -/
def endOfList : BitVec 32 := BitVec.ofInt 32 (-1)

def indexValue (i : Fin maxHandles) : BitVec 32 := BitVec.ofNat 32 i

theorem toNat_indexValue (i : Fin maxHandles) : (indexValue i).toNat = i := by
  have := i.isLt
  simp only [maxHandles] at this
  simp only [indexValue, BitVec.toNat_ofNat]
  omega

/-- The narrowing to `s16` in `FreeHandle` loses nothing of an index. -/
theorem signExtend_setWidth_indexValue (i : Fin maxHandles) :
    ((indexValue i).setWidth 16).signExtend 32 = indexValue i := by
  have := i.isLt
  simp only [maxHandles] at this
  have hw : ((indexValue i).setWidth 16).toNat = i := by
    rw [BitVec.toNat_setWidth, toNat_indexValue]
    omega
  rw [← BitVec.toNat_inj, toNat_signExtend _ (by omega), hw, toNat_indexValue]

theorem signExtend_setWidth_endOfList :
    (endOfList.setWidth 16).signExtend 32 = endOfList := by decide

/-- The link that `Initialize` stores in a slot. -/
theorem signExtend_ofInt_pred (n : ℕ) (h : n ≤ maxHandles) :
    (BitVec.ofInt 16 ((n : ℤ) - 1)).signExtend 32 = BitVec.ofInt 32 ((n : ℤ) - 1) := by
  simp only [maxHandles] at h
  rw [← BitVec.toInt_inj, BitVec.toInt_signExtend_of_le (by decide), BitVec.toInt_ofInt,
    BitVec.toInt_ofInt, Int.bmod_eq_of_le (by norm_num; omega) (by norm_num; omega),
    Int.bmod_eq_of_le (by norm_num; omega) (by norm_num; omega)]

end DDFramework.HandleTable
