import DDFramework.Model.SchedulerMain
import DDFramework.Verification.TimeSpan.Conversion

/-! # A sleep does not end early

The wakeup tick is at least the start tick and the rounded up length of the sleep. Rounding up
on the way in is adjoint to rounding down on the way out. -/

namespace DDFramework

variable {frequency systemTick timeoutNs time : BitVec 64}

/-- A fiber is schedulable only after its timeout. -/
theorem timeout_lt_of_isSchedulable {fuel core : ℕ} {s s' : UserScheduler} {f : FiberId}
    (h : s.isSchedulable fuel f core time = .ok (true, s')) : (s.fibers f).timeout < time := by
  by_contra hle
  simp only [UserScheduler.isSchedulable, hle, and_false, if_false] at h
  split at h
  · cases h
  · split at h
    · cases h
    · cases h

theorem not_maxTime_lt (htime : 0 ≤ time.toInt) : ¬ TimeSpan.maxTime < time := by
  have hnat := toNat_of_nonneg htime
  have hfits := (fitsWord_toInt time).2
  have hmax : TimeSpan.maxTime.toNat = 9223372036854775807 := by decide
  rw [BitVec.lt_def, hmax]
  omega

/-- The sum of two ticks and the slack does not wrap once the guard has passed. -/
theorem toNat_add_slack {timeoutTick : BitVec 64} (htick : 0 < timeoutTick.toInt)
    (hstart : 0 ≤ systemTick.toInt) (hguard : 1 < (timeoutTick + systemTick + 1#64).toInt) :
    ((timeoutTick + systemTick + 2#64).toNat : ℤ) = timeoutTick.toInt + systemTick.toInt + 2 := by
  have htick_nat := toNat_of_nonneg htick.le
  have hstart_nat := toNat_of_nonneg hstart
  have hguard_nat := toNat_of_nonneg (zero_le_one.trans hguard.le)
  have htick_le := (fitsWord_toInt timeoutTick).2
  have hstart_le := (fitsWord_toInt systemTick).2
  have hguard_le := (fitsWord_toInt (timeoutTick + systemTick + 1#64)).2
  have hadd : (timeoutTick + systemTick).toNat = timeoutTick.toNat + systemTick.toNat := by
    rw [BitVec.toNat_add]
    exact Nat.mod_eq_of_lt (by omega)
  have hone : (timeoutTick + systemTick + 1#64).toNat =
      timeoutTick.toNat + systemTick.toNat + 1 := by
    rw [BitVec.toNat_add, hadd]
    exact Nat.mod_eq_of_lt (by simp only [BitVec.toNat_ofNat]; omega)
  have htwo : (timeoutTick + systemTick + 2#64).toNat =
      timeoutTick.toNat + systemTick.toNat + 2 := by
    rw [BitVec.toNat_add, hadd]
    exact Nat.mod_eq_of_lt (by simp only [BitVec.toNat_ofNat]; omega)
  omega

/-- Until the largest tick the wakeup is after the end of the sleep. -/
theorem rescaleUp_add_lt_of_wakeup_lt (hpos : 0 < frequency.toInt)
    (hle : frequency.toInt ≤ 1000000000) (htimeout : 0 < timeoutNs.toInt)
    (hstart : 0 ≤ systemTick.toInt) (htime : 0 ≤ time.toInt)
    (hwakeup : getAbsoluteTimeToWakeup frequency systemTick timeoutNs < time) :
    rescaleUp 1000000000 frequency.toInt timeoutNs.toInt + systemTick.toInt < time.toInt := by
  rw [← TimeSpan.toInt_getTick hpos hle htimeout]
  rw [getAbsoluteTimeToWakeup] at hwakeup
  dsimp only at hwakeup
  generalize TimeSpan.getTick frequency timeoutNs = timeoutTick at hwakeup ⊢
  split at hwakeup
  · exact absurd hwakeup (not_maxTime_lt htime)
  · next htick =>
    split at hwakeup
    · exact absurd hwakeup (not_maxTime_lt htime)
    · next hguard =>
      rw [BitVec.sle_iff_toInt_le, not_le] at htick hguard
      have hslack := toNat_add_slack htick hstart hguard
      have hnat := toNat_of_nonneg htime
      rw [BitVec.lt_def] at hwakeup
      omega

theorem getAbsoluteTimeToWakeup_ne_zero (hstart : 0 ≤ systemTick.toInt) :
    getAbsoluteTimeToWakeup frequency systemTick timeoutNs ≠ 0 := by
  rw [getAbsoluteTimeToWakeup]
  dsimp only
  generalize TimeSpan.getTick frequency timeoutNs = timeoutTick
  split
  · decide
  · next htick =>
    split
    · decide
    · next hguard =>
      rw [BitVec.sle_iff_toInt_le, not_le] at htick hguard
      have hslack := toNat_add_slack htick hstart hguard
      intro hzero
      have hnat : (timeoutTick + systemTick + 2#64).toNat = 0 := by
        rw [hzero]
        rfl
      have htick' : 0 < timeoutTick.toInt := htick
      omega

/-- A fiber that sleeps for `timeoutSpan` from the tick `systemTick` on is schedulable at no
later tick at which less time than that has passed. -/
theorem sleep_not_early {timeoutSpan : BitVec 64} (hpos : 0 < frequency.toInt)
    (hle : frequency.toInt ≤ 1000000000) (hstart : 0 ≤ systemTick.toInt)
    (hlater : systemTick.toInt ≤ time.toInt) {fuel core : ℕ} {s s' s'' : UserScheduler}
    {f : FiberId} (htimeout : (s'.fibers f).timeout =
      ((s.sleep f frequency systemTick timeoutSpan).fibers f).timeout)
    (hschedulable : s'.isSchedulable fuel f core time = .ok (true, s'')) :
    timeoutSpan.toInt ≤ (TimeSpan.fromTick frequency (time - systemTick)).toInt := by
  have hwakeup := timeout_lt_of_isSchedulable hschedulable
  rw [htimeout, UserScheduler.sleep, UserScheduler.sleepThreadImpl,
    if_pos (getAbsoluteTimeToWakeup_ne_zero hstart)] at hwakeup
  simp only [UserScheduler.modifyFiber_fibers, Function.update_self] at hwakeup
  have helapsed : (time - systemTick).toInt = time.toInt - systemTick.toInt := by
    refine toInt_sub_of_fits (.of_nonneg (sub_nonneg.mpr hlater) ?_)
    exact (sub_le_self _ hstart).trans (fitsWord_toInt time).2
  have helapsed_nonneg : 0 ≤ (time - systemTick).toInt := by
    rw [helapsed]
    exact sub_nonneg.mpr hlater
  by_cases hspan : 0 < timeoutSpan.toInt
  · have hend := rescaleUp_add_lt_of_wakeup_lt hpos hle hspan hstart (hstart.trans hlater) hwakeup
    have hup : rescaleUp 1000000000 frequency.toInt timeoutSpan.toInt ≤
        (time - systemTick).toInt := by
      rw [helapsed]
      exact (lt_sub_iff_add_lt.mpr hend).le
    rcases TimeSpan.toInt_fromTick hpos hle helapsed_nonneg with hmax | hdown
    · rw [hmax]
      exact (fitsWord_toInt timeoutSpan).2
    · rw [hdown]
      exact (rescaleUp_le_iff_le_rescaleDown (by decide) hpos).mp hup
  · -- a sleep of no time ends, if at all, after its start
    exact (not_lt.mp hspan).trans (TimeSpan.fromTick_nonneg hpos hle helapsed_nonneg)

/-- Two milliseconds from the tick 100 on, at ten ticks a microsecond. -/
theorem sleep_not_early_two_milliseconds :
    let s := (UserScheduler.staticInstance (fun _ => 0)).modifyFiber 0
      fun r => { r with coreMask := 1 }
    let s' := s.sleep 0 10000000#64 100#64 2000000#64
    s'.isSchedulable 1 0 0 20103#64 = .ok (true, s') ∧
      (2000000#64).toInt ≤ (TimeSpan.fromTick 10000000#64 (20103#64 - 100#64)).toInt := by
  intro s s'
  have hwakeup : getAbsoluteTimeToWakeup 10000000#64 100#64 2000000#64 = 20102#64 := by decide
  have hfiber : s'.fibers 0 = { UserScheduler.zeroFiber with coreMask := 1, timeout := 20102#64 } := by
    simp [s', s, UserScheduler.sleep, UserScheduler.sleepThreadImpl, hwakeup,
      UserScheduler.staticInstance]
  have hschedulable : s'.isSchedulable 1 0 0 20103#64 = .ok (true, s') := by
    simp only [UserScheduler.isSchedulable, hfiber]
    rw [if_neg (by decide), if_neg (by decide), if_neg (by decide), if_pos (by decide)]
  exact ⟨hschedulable, sleep_not_early (by decide) (by decide) (by decide) (by decide) rfl
    hschedulable⟩

end DDFramework
