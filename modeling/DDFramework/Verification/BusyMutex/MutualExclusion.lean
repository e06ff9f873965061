import DDFramework.Model.BusyMutex
import Mathlib.Data.Fintype.Card
import Mathlib.Data.Fintype.Fin

/-! # Mutual exclusion of `BusyMutex`

The counters differ by the number of threads that are not outside, modulo `2 ^ 16`. With
fewer threads than that, equal counters mean that everybody is outside. -/

namespace DDFramework.BusyMutex

/-! ### The two halves of the counter -/

@[simp] theorem releaseCount_addLock (counter : BitVec 32) :
    releaseCount (addLock counter) = releaseCount counter := by
  rw [releaseCount, addLock, BitVec.setWidth_add _ _ (by decide)]
  exact BitVec.add_zero _

theorem toNat_lockCount (counter : BitVec 32) :
    (lockCount counter).toNat = counter.toNat / 65536 % 65536 := by
  rw [lockCount, BitVec.extractLsb'_toNat, Nat.shiftRight_eq_div_pow]

theorem toNat_addLock (counter : BitVec 32) :
    (addLock counter).toNat = (counter.toNat + 65536) % (65536 * 65536) := by
  rw [addLock, BitVec.toNat_add, BitVec.toNat_ofNat, Nat.mod_eq_of_lt (by decide : 65536 < 2 ^ 32)]

@[simp] theorem lockCount_addLock (counter : BitVec 32) :
    lockCount (addLock counter) = lockCount counter + 1#16 := by
  apply BitVec.eq_of_toNat_eq
  rw [toNat_lockCount, toNat_addLock, Nat.mod_mul_right_div_self, Nat.add_div_right _ (by decide),
    Nat.mod_mod, BitVec.toNat_add, toNat_lockCount, BitVec.toNat_ofNat, Nat.add_mod_mod,
    Nat.mod_add_mod]

@[simp] theorem releaseCount_addRelease (counter : BitVec 32) :
    releaseCount (addRelease counter) = releaseCount counter + 1#16 := by
  rw [releaseCount, addRelease]
  exact BitVec.setWidth_append_eq_right

@[simp] theorem lockCount_addRelease (counter : BitVec 32) :
    lockCount (addRelease counter) = lockCount counter := by
  rw [lockCount, addRelease]
  exact BitVec.extractLsb'_append_eq_left

theorem mustWait_iff {wait : BitVec 32} : mustWait wait ↔ releaseCount wait ≠ lockCount wait := by
  have hmask : ∀ n : ℕ, n &&& 65535 = n % 65536 := fun n => Nat.and_two_pow_sub_one_eq_mod n 16
  simp only [mustWait, bne_iff_ne, ne_eq, ← BitVec.toNat_inj, releaseCount, lockCount,
    BitVec.toNat_and, BitVec.toNat_setWidth, BitVec.extractLsb'_toNat, BitVec.toNat_ushiftRight,
    BitVec.toNat_ofNat, Nat.shiftRight_eq_div_pow, hmask]

@[simp] theorem testLoop_ne_outside (wait : BitVec 32) : testLoop wait ≠ .outside := by
  rw [testLoop]
  split <;> decide

namespace System

variable {ι : Type*} {s s' : System ι} {i j : ι}

/-- The steps of the threads and where they can be taken. -/
theorem next_cases [DecidableEq ι] {a : Action ι} (h : s.next a = some s') :
    (∃ i, a = .fetchAdd i ∧ s.phase i = .outside ∧ s' = s.fetchAdd i) ∨
    (∃ i, a = .poll i ∧ s.phase i = .waiting ∧ s' = s.poll i) ∨
    (∃ i, a = .leave i ∧ s.phase i = .inside ∧ s' = s.leave i) := by
  cases a with
  | fetchAdd i =>
      simp only [next, Option.ite_none_right_eq_some, Option.some.injEq] at h
      exact .inl ⟨i, rfl, h.1, h.2.symm⟩
  | poll i =>
      simp only [next, Option.ite_none_right_eq_some, Option.some.injEq] at h
      exact .inr (.inl ⟨i, rfl, h.1, h.2.symm⟩)
  | leave i =>
      simp only [next, Option.ite_none_right_eq_some, Option.some.injEq] at h
      exact .inr (.inr ⟨i, rfl, h.1, h.2.symm⟩)

variable [Fintype ι]

/-- The threads that wait or are inside. -/
def busy (s : System ι) : Finset ι := {i | s.phase i ≠ .outside}

@[simp] theorem mem_busy : i ∈ s.busy ↔ s.phase i ≠ .outside := by simp [busy]

/-- The lock count is ahead of the release count by the number of busy threads. -/
structure Counted (s : System ι) : Prop where
  ahead : lockCount s.counter = releaseCount s.counter + BitVec.ofNat 16 s.busy.card
  exclusive : ∀ i j, s.phase i = .inside → s.phase j = .inside → i = j

theorem start_counted : Counted (start : System ι) := by
  have hbusy : (start : System ι).busy = ∅ := by
    ext i
    simp [start]
  refine ⟨?_, fun i _ hi => by simp [start] at hi⟩
  rw [hbusy, Finset.card_empty]
  simp [start, lockCount, releaseCount]

/-- With fewer than `2 ^ 16` threads the loop goes on exactly while somebody is busy. -/
theorem Counted.mustWait_iff_busy (h : Counted s) (hcard : Fintype.card ι < 65536) :
    mustWait s.counter ↔ s.busy.Nonempty := by
  have hle : s.busy.card < 65536 := (Finset.card_le_univ s.busy).trans_lt hcard
  rw [mustWait_iff, h.ahead, ← Finset.card_pos, ne_eq, ← BitVec.toNat_inj, BitVec.toNat_add,
    BitVec.toNat_ofNat]
  have hlt := (releaseCount s.counter).isLt
  omega

variable [DecidableEq ι]

theorem busy_fetchAdd : (s.fetchAdd i).busy = insert i s.busy := by
  ext j
  by_cases h : j = i
  · simp [h, fetchAdd]
  · simp [h, fetchAdd]

theorem busy_poll (hi : s.phase i = .waiting) : (s.poll i).busy = s.busy := by
  ext j
  by_cases h : j = i
  · simp [h, poll, hi]
  · simp [h, poll]

theorem busy_leave : (s.leave i).busy = s.busy.erase i := by
  ext j
  by_cases h : j = i
  · simp [h, leave]
  · simp [h, leave]

theorem Counted.fetchAdd (h : Counted s) (hcard : Fintype.card ι < 65536)
    (hi : s.phase i = .outside) : Counted (s.fetchAdd i) := by
  constructor
  · rw [busy_fetchAdd, Finset.card_insert_of_notMem (by simp [hi])]
    simp only [System.fetchAdd, lockCount_addLock, releaseCount_addLock, h.ahead, BitVec.ofNat_add]
    rw [BitVec.add_assoc]
  · -- the thread passes at once only when all the others are outside
    have hothers : testLoop s.counter = .inside → ∀ j, s.phase j = .outside := by
      intro htest j
      by_contra hj
      have hwait := (h.mustWait_iff_busy hcard).mpr ⟨j, mem_busy.mpr hj⟩
      simp [testLoop, hwait] at htest
    intro a b ha hb
    simp only [System.fetchAdd, Function.update_apply] at ha hb
    split at ha
    · next hai =>
      split at hb
      · next hbi => rw [hai, hbi]
      · rw [hothers ha b] at hb
        cases hb
    · split at hb
      · rw [hothers hb a] at ha
        cases ha
      · exact h.exclusive a b ha hb

theorem phase_poll (h : Counted s) (hcard : Fintype.card ι < 65536) (hi : s.phase i = .waiting) :
    (s.poll i).phase = s.phase := by
  have hwait := (h.mustWait_iff_busy hcard).mpr ⟨i, by simp [hi]⟩
  simp [poll, testLoop, hwait, ← hi]

theorem Counted.poll (h : Counted s) (hcard : Fintype.card ι < 65536)
    (hi : s.phase i = .waiting) : Counted (s.poll i) := by
  constructor
  · rw [busy_poll hi]
    simpa [System.poll] using h.ahead
  · rw [phase_poll h hcard hi]
    exact h.exclusive

theorem Counted.leave (h : Counted s) (hi : s.phase i = .inside) : Counted (s.leave i) := by
  constructor
  · have hmem : i ∈ s.busy := by simp [hi]
    have hcard := Finset.card_erase_add_one hmem
    rw [busy_leave]
    simp only [System.leave, lockCount_addRelease, releaseCount_addRelease, h.ahead, ← hcard,
      BitVec.ofNat_add]
    rw [BitVec.add_assoc, BitVec.add_comm 1#16]
  · intro a b ha hb
    have hkeep : ∀ j, (s.leave i).phase j = .inside → s.phase j = .inside := by
      intro j hj
      by_cases hji : j = i
      · exact hji ▸ hi
      · simpa [System.leave, hji] using hj
    exact h.exclusive a b (hkeep a ha) (hkeep b hb)

theorem Counted.next {a : Action ι} (h : Counted s) (hcard : Fintype.card ι < 65536)
    (hnext : s.next a = some s') : Counted s' := by
  rcases next_cases hnext with ⟨i, rfl, hi, rfl⟩ | ⟨i, rfl, hi, rfl⟩ | ⟨i, rfl, hi, rfl⟩
  · exact h.fetchAdd hcard hi
  · exact h.poll hcard hi
  · exact h.leave hi

theorem reachable_counted {allowed : System ι → Action ι → Prop} (hcard : Fintype.card ι < 65536)
    (h : Machine.Reachable next allowed start s) : Counted s :=
  h.invariant start_counted (fun hs _ htaken => hs.next hcard htaken)

/-- In every state of every run at most one thread is between `Enter` and `Leave`. -/
theorem enter_exclusive (hcard : Fintype.card ι < 65536) (h : Machine.Reaches next start s)
    (hi : s.phase i = .inside) (hj : s.phase j = .inside) : i = j :=
  (reachable_counted hcard h).exclusive i j hi hj

theorem enter_exclusive_contended : ∃ s : System (Fin 3), Machine.Reaches next start s ∧
    s.phase 1 = .inside ∧ s.phase 2 = .waiting ∧ ∀ j, s.phase j = .inside → j = 1 := by
  let as : List (Action (Fin 3)) :=
    [.fetchAdd 0, .leave 0, .fetchAdd 1, .fetchAdd 2, .poll 2]
  have hrun : (Machine.run next start as).any
      (fun s => s.phase 1 = .inside ∧ s.phase 2 = .waiting) = true := by decide
  obtain ⟨s, hs, hphase⟩ := (Option.any_eq_true _ _).mp hrun
  have hreach := Machine.Reaches.of_run hs
  simp only [decide_eq_true_eq] at hphase
  exact ⟨s, hreach, hphase.1, hphase.2,
    fun j hj => enter_exclusive (by decide) hreach hj hphase.1⟩

end System

end DDFramework.BusyMutex
