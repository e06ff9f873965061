import DDFramework.Model.CriticalSection

/-! # The waiters bit of a lock word

`m_handle` is the handle of the owner, with bit 30 set once somebody waits. A handle
that the handle table accepts has this bit clear. -/

namespace DDFramework

theorem getLsbD_hasChildWaitersBit {i : ℕ} (h : i < 32) :
    hasChildWaitersBit.getLsbD i = decide (i = 30) := by
  revert i
  decide

theorem hasWaiters_eq (value : BitVec 32) : hasWaiters value = value.getLsbD 30 := by
  unfold hasWaiters
  rw [Bool.eq_iff_iff, beq_iff_eq]
  constructor
  · intro h
    have hbit := congrArg (fun v : BitVec 32 => v.getLsbD 0) h
    simpa using hbit
  · intro h
    apply BitVec.eq_of_getLsbD_eq
    intro i hi
    by_cases hzero : i = 0
    · simpa [hzero] using h
    · simp [hzero]

theorem getLsbD_withoutWaiters (value : BitVec 32) {i : ℕ} (h : i < 32) :
    (withoutWaiters value).getLsbD i = (value.getLsbD i && decide (i ≠ 30)) := by
  rw [withoutWaiters, BitVec.getLsbD_and, BitVec.getLsbD_not, getLsbD_hasChildWaitersBit h]
  simp [h]

@[simp] theorem withoutWaiters_zero : withoutWaiters 0 = 0 := by decide

@[simp] theorem withoutWaiters_or (value : BitVec 32) :
    withoutWaiters (value ||| hasChildWaitersBit) = withoutWaiters value := by
  apply BitVec.eq_of_getLsbD_eq
  intro i hi
  rw [getLsbD_withoutWaiters _ hi, getLsbD_withoutWaiters _ hi, BitVec.getLsbD_or,
    getLsbD_hasChildWaitersBit hi]
  by_cases h : i = 30 <;> simp [h]

@[simp] theorem hasWaiters_or (value : BitVec 32) :
    hasWaiters (value ||| hasChildWaitersBit) = true := by
  rw [hasWaiters_eq, BitVec.getLsbD_or, getLsbD_hasChildWaitersBit (by decide)]
  simp

theorem withoutWaiters_of_not_hasWaiters {value : BitVec 32} (h : hasWaiters value = false) :
    withoutWaiters value = value := by
  rw [hasWaiters_eq] at h
  apply BitVec.eq_of_getLsbD_eq
  intro i hi
  rw [getLsbD_withoutWaiters _ hi]
  by_cases hbit : i = 30
  · rw [hbit, h]
    rfl
  · simp [hbit]

theorem withoutWaiters_or_bit {value : BitVec 32} (h : hasWaiters value = true) :
    withoutWaiters value ||| hasChildWaitersBit = value := by
  rw [hasWaiters_eq] at h
  apply BitVec.eq_of_getLsbD_eq
  intro i hi
  rw [BitVec.getLsbD_or, getLsbD_withoutWaiters _ hi, getLsbD_hasChildWaitersBit hi]
  by_cases hbit : i = 30
  · rw [hbit, h]
    rfl
  · simp [hbit]

theorem withoutWaiters_idem (value : BitVec 32) :
    withoutWaiters (withoutWaiters value) = withoutWaiters value := by
  rw [withoutWaiters, withoutWaiters, BitVec.and_assoc, BitVec.and_self]

theorem withoutWaiters_or_eq (value : BitVec 32) :
    withoutWaiters value ||| hasChildWaitersBit = value ||| hasChildWaitersBit := by
  have h := withoutWaiters_or_bit (hasWaiters_or value)
  rwa [withoutWaiters_or] at h

theorem or_bit_or_bit (value : BitVec 32) :
    value ||| hasChildWaitersBit ||| hasChildWaitersBit = value ||| hasChildWaitersBit := by
  rw [BitVec.or_assoc, BitVec.or_self]

theorem or_bit_ne_zero (value : BitVec 32) : value ||| hasChildWaitersBit ≠ 0 := by
  intro h
  have hbit := hasWaiters_or value
  rw [h] at hbit
  exact absurd hbit (by decide)

/-- The table rejects zero and every value with the waiters bit. -/
theorem HandleTable.accepted_handle {α : Type*} {t : HandleTable α} {handle : BitVec 32} {object : α}
    (h : t.getObjectByHandle handle = .ok (some object)) :
    handle ≠ 0 ∧ hasWaiters handle = false := by
  unfold HandleTable.getObjectByHandle at h
  split at h
  · cases h
  · rename_i hreject
    simp only [not_or, not_not] at hreject
    refine ⟨hreject.2.1, ?_⟩
    have hbit := congrArg (fun v : BitVec 32 => v.getLsbD 0) hreject.1
    rw [hasWaiters_eq]
    simpa using hbit

end DDFramework
