import DDFramework.Verification.TimeSpan.RoundTrip

/-! # Deadlines

When a time-out ends, and how long a core with nothing runnable rests until then. The sign that
`GetTick` loses makes a finite wait of a negative time-out; the time left on a target is zero as
soon as the clock runs. -/

namespace DDFramework

open TimeSpan

variable {frequency systemTick timeoutNs : BitVec 64}

/-! ### `GetAbsoluteTimeToWakeup` -/

section Wakeup

theorem getAbsoluteTimeToWakeup_of_nonpos (htick : (getTick frequency timeoutNs).toInt ≤ 0) :
    getAbsoluteTimeToWakeup frequency systemTick timeoutNs = maxTime := by
  rw [getAbsoluteTimeToWakeup]
  dsimp only
  rw [if_pos (BitVec.sle_iff_toInt_le.mpr htick)]

/-- The sum before the guard. -/
theorem getAbsoluteTimeToWakeup_of_pos (htick : 0 < (getTick frequency timeoutNs).toInt) :
    getAbsoluteTimeToWakeup frequency systemTick timeoutNs =
      if (getTick frequency timeoutNs + systemTick + 1#64).sle 1#64 then maxTime
      else getTick frequency timeoutNs + systemTick + 2#64 := by
  rw [getAbsoluteTimeToWakeup]
  dsimp only
  rw [if_neg]
  rw [BitVec.sle_iff_toInt_le, not_le]
  exact htick

variable {ticks : BitVec 64}

theorem toInt_add_of_overflow (hticks : 0 ≤ ticks.toInt) (hnow : 0 ≤ systemTick.toInt)
    (hover : 9223372036854775807 < ticks.toInt + systemTick.toInt) :
    (ticks + systemTick).toInt = ticks.toInt + systemTick.toInt - 18446744073709551616 := by
  have hticks_le := (fitsWord_toInt ticks).2
  have hnow_le := (fitsWord_toInt systemTick).2
  rw [BitVec.toInt_add, Int.bmod_def]
  omega

/-- The two ticks fit on top of the sum. -/
theorem wakeup_of_room (hticks : 0 < ticks.toInt) (hnow : 0 ≤ systemTick.toInt)
    (hroom : ticks.toInt + systemTick.toInt ≤ 9223372036854775805) :
    ¬ (ticks + systemTick + 1#64).sle 1#64 = true ∧
    (ticks + systemTick + 2#64).toInt = ticks.toInt + systemTick.toInt + 2 := by
  have hsum : (ticks + systemTick).toInt = ticks.toInt + systemTick.toInt :=
    toInt_add_of_fits (.of_nonneg (by omega) (by omega))
  have hone : (1#64).toInt = 1 := by decide
  have htwo : (2#64).toInt = 2 := by decide
  have hnext : (ticks + systemTick + 1#64).toInt = ticks.toInt + systemTick.toInt + 1 := by
    rw [toInt_add_of_fits (by rw [hsum, hone]; exact .of_nonneg (by omega) (by omega)), hsum, hone]
  constructor
  · rw [BitVec.sle_iff_toInt_le, hnext, hone]
    omega
  · rw [toInt_add_of_fits (by rw [hsum, htwo]; exact .of_nonneg (by omega) (by omega)), hsum, htwo]

/-- One tick below the room for two, the guard passes and the two ticks wrap around. -/
theorem wakeup_of_last (hsum : ticks.toInt + systemTick.toInt = 9223372036854775806) :
    ¬ (ticks + systemTick + 1#64).sle 1#64 = true ∧ ticks + systemTick + 2#64 = minTime := by
  have hword : ticks + systemTick = 0x7ffffffffffffffe#64 := by
    apply BitVec.eq_of_toInt_eq
    rw [toInt_add_of_fits (by rw [hsum]; exact .of_nonneg (by decide) (by decide)), hsum]
    decide
  rw [hword]
  decide

/-- From there on the guard sees a sum that is not positive. -/
theorem wakeup_of_overflow (hticks : 0 ≤ ticks.toInt) (hnow : 0 ≤ systemTick.toInt)
    (hover : 9223372036854775807 ≤ ticks.toInt + systemTick.toInt) :
    (ticks + systemTick + 1#64).sle 1#64 = true := by
  rcases hover.eq_or_lt with heq | hlt
  · have hword : ticks + systemTick = maxTime := by
      apply BitVec.eq_of_toInt_eq
      rw [toInt_add_of_fits (by rw [← heq]; exact .of_nonneg (by decide) (by decide)), ← heq]
      decide
    rw [hword]
    decide
  · have hsum := toInt_add_of_overflow hticks hnow hlt
    have hticks_le := (fitsWord_toInt ticks).2
    have hnow_le := (fitsWord_toInt systemTick).2
    have hone : (1#64).toInt = 1 := by decide
    rw [BitVec.sle_iff_toInt_le,
      toInt_add_of_fits (by rw [hsum, hone]; exact ⟨by omega, by omega⟩), hsum, hone]
    omega

/-- The ticks of a time-out without its sign, rounded up. -/
def timeoutTicks (frequency timeoutNs : BitVec 64) : ℤ :=
  ⌈(|timeoutNs.toInt| * frequency.toInt / 1000000000 : ℚ)⌉

theorem toInt_getTick_eq_timeoutTicks (hpos : 0 < frequency.toInt)
    (hle : frequency.toInt ≤ 1000000000) (hmin : timeoutNs ≠ minTime) :
    (getTick frequency timeoutNs).toInt = timeoutTicks frequency timeoutNs := by
  rcases Int.le_total 0 timeoutNs.toInt with hnonneg | hnonpos
  · rw [toInt_getTick_eq_ceil hpos hle hnonneg, timeoutTicks, abs_of_nonneg hnonneg]
  · have hneg := toInt_neg_of_ne_minTime hmin
    have hsame : getTick frequency timeoutNs = getTick frequency (-timeoutNs) := by
      rcases hnonpos.lt_or_eq with hlt | hzero
      · exact getTick_of_neg hlt hmin
      · rw [BitVec.eq_of_toInt_eq (hzero.trans (by decide : (0 : ℤ) = (0#64).toInt))]
        rfl
    have hnonneg : 0 ≤ (-timeoutNs).toInt := hneg ▸ neg_nonneg.mpr hnonpos
    rw [hsame, toInt_getTick_eq_ceil hpos hle hnonneg, timeoutTicks, hneg, abs_of_nonpos hnonpos]

theorem timeoutTicks_pos (hpos : 0 < frequency.toInt) (htimeout : timeoutNs.toInt ≠ 0) :
    0 < timeoutTicks frequency timeoutNs := by
  have hposRat : (0 : ℚ) < frequency.toInt := by exact_mod_cast hpos
  have habs : (0 : ℚ) < |timeoutNs.toInt| := by exact_mod_cast abs_pos.mpr htimeout
  exact Int.ceil_pos.mpr (div_pos (mul_pos habs hposRat) (by norm_num))

/-- The deadline of a positive number of ticks. -/
theorem toInt_getAbsoluteTimeToWakeup (htick : 0 < (getTick frequency timeoutNs).toInt)
    (hnow : 0 ≤ systemTick.toInt) :
    (getAbsoluteTimeToWakeup frequency systemTick timeoutNs).toInt =
      if systemTick.toInt + (getTick frequency timeoutNs).toInt = 9223372036854775806 then
        -9223372036854775808
      else
        min 9223372036854775807 (systemTick.toInt + (getTick frequency timeoutNs).toInt + 2) := by
  rw [getAbsoluteTimeToWakeup_of_pos htick]
  generalize getTick frequency timeoutNs = ticks at htick
  rw [add_comm systemTick.toInt]
  rcases lt_trichotomy (ticks.toInt + systemTick.toInt) 9223372036854775806 with
    hroom | hlast | hover
  · obtain ⟨hguard, hsum⟩ := wakeup_of_room htick hnow (Int.le_sub_one_of_lt hroom)
    rw [if_neg hguard, if_neg hroom.ne, hsum, min_eq_right (by omega)]
  · obtain ⟨hguard, hsum⟩ := wakeup_of_last hlast
    rw [if_neg hguard, if_pos hlast, hsum]
    decide
  · rw [if_pos (wakeup_of_overflow htick.le hnow hover), if_neg hover.ne', toInt_maxTime,
      min_eq_left (by omega)]

/-- A time-out that is not positive never ends; another ends two ticks after the rounded up
number of ticks, or at the last tick, and in any case later than now. -/
def WakesInTime (frequency systemTick timeoutNs : BitVec 64) : Prop :=
  if timeoutNs.toInt ≤ 0 then
    getAbsoluteTimeToWakeup frequency systemTick timeoutNs = maxTime
  else
    (getAbsoluteTimeToWakeup frequency systemTick timeoutNs).toInt =
      min maxTime.toInt (systemTick.toInt + (getTick frequency timeoutNs).toInt + 2) ∧
    systemTick.toInt < (getAbsoluteTimeToWakeup frequency systemTick timeoutNs).toInt

instance (frequency systemTick timeoutNs : BitVec 64) :
    Decidable (WakesInTime frequency systemTick timeoutNs) :=
  inferInstanceAs (Decidable (ite _ _ _))

/-- A time-out that is not positive is taken for infinite when it is zero, the smallest one, or so
long that its absolute value lies beyond the last tick; a positive one is right unless the guard
leaves room for one tick only, or no later tick exists. -/
theorem wakesInTime_iff (hpos : 0 < frequency.toInt) (hle : frequency.toInt ≤ 1000000000)
    (hnow : 0 ≤ systemTick.toInt) :
    WakesInTime frequency systemTick timeoutNs ↔
      timeoutNs = minTime ∨ timeoutNs.toInt = 0 ∨
      (timeoutNs.toInt < 0 ∧
        (systemTick.toInt + timeoutTicks frequency timeoutNs = 9223372036854775805 ∨
          9223372036854775807 ≤ systemTick.toInt + timeoutTicks frequency timeoutNs)) ∨
      (0 < timeoutNs.toInt ∧
        systemTick.toInt + timeoutTicks frequency timeoutNs ≠ 9223372036854775806 ∧
        systemTick.toInt < 9223372036854775807) := by
  by_cases hmin : timeoutNs = minTime
  · subst hmin
    have hinfinite : getAbsoluteTimeToWakeup frequency systemTick minTime = maxTime :=
      getAbsoluteTimeToWakeup_of_nonpos (by rw [getTick_minTime]; decide)
    rw [WakesInTime, if_pos (by decide)]
    exact iff_of_true hinfinite (.inl rfl)
  · have hticks := toInt_getTick_eq_timeoutTicks hpos hle hmin
    have hmaxTime : ∀ a : BitVec 64, a = maxTime ↔ a.toInt = 9223372036854775807 := by
      intro a
      rw [← toInt_maxTime, BitVec.toInt_inj]
    by_cases hzero : timeoutNs.toInt = 0
    · have hnone : (getTick frequency timeoutNs).toInt ≤ 0 := by
        rw [BitVec.eq_of_toInt_eq (hzero.trans (by decide : (0 : ℤ) = (0#64).toInt)),
          toInt_getTick_of_nonneg hpos hle (by decide)]
        exact (rescaleUp_zero (f := 1000000000) (by decide)).le
      rw [WakesInTime, if_pos hzero.le]
      exact iff_of_true (getAbsoluteTimeToWakeup_of_nonpos hnone) (.inr (.inl hzero))
    · have hticks_pos := timeoutTicks_pos hpos hzero
      have hdeadline := toInt_getAbsoluteTimeToWakeup (hticks ▸ hticks_pos) hnow
      rw [hticks] at hdeadline
      rw [WakesInTime, hmaxTime, hdeadline, hticks, toInt_maxTime]
      generalize timeoutTicks frequency timeoutNs = ticks at *
      have hnow_le := (fitsWord_toInt systemTick).2
      simp only [hmin, hzero, false_or]
      grind

theorem wakesInTime_one_second : WakesInTime 10000000#64 5#64 1000000000#64 := by
  have hticks : timeoutTicks 10000000#64 1000000000#64 = 10000000 := by
    rw [timeoutTicks, toInt_billion, show (10000000#64).toInt = 10000000 by decide]
    norm_num
  refine (wakesInTime_iff (by decide) (by decide) (by decide)).mpr (.inr (.inr (.inr ?_)))
  rw [hticks]
  decide

/-- The infinite wait of minus one nanosecond ends three ticks from now, and at one time-out
before the last tick the deadline has wrapped around. -/
theorem infinite_wait_ends :
    (getAbsoluteTimeToWakeup 10000000#64 1000#64 (-1#64)).toInt = 1003 ∧
    ¬ WakesInTime 10000000#64 1000#64 (-1#64) ∧
    getAbsoluteTimeToWakeup 10000000#64 0x7ffffffffffffffd#64 100#64 = minTime ∧
    ¬ WakesInTime 10000000#64 0x7ffffffffffffffd#64 100#64 := by
  decide

end Wakeup

/-! ### `GetTimeLeftOnTarget` -/

section TimeLeft

variable {target : BitVec 64}

theorem toInt_sub_of_room (hnow : 0 ≤ systemTick.toInt)
    (hroom : -9223372036854775808 ≤ target.toInt - systemTick.toInt) :
    (target - systemTick).toInt = target.toInt - systemTick.toInt :=
  toInt_sub_of_fits ⟨hroom, (sub_le_self _ hnow).trans (fitsWord_toInt target).2⟩

theorem toInt_sub_of_underflow (hnow : 0 ≤ systemTick.toInt)
    (hunder : target.toInt - systemTick.toInt < -9223372036854775808) :
    (target - systemTick).toInt = target.toInt - systemTick.toInt + 18446744073709551616 := by
  have htarget := (fitsWord_toInt target).1
  have hnow_le := (fitsWord_toInt systemTick).2
  rw [BitVec.toInt_sub, Int.bmod_def]
  omega

/-- Once the clock runs, what is left is below the target itself, and that is taken for a target
in the past. -/
theorem getTimeLeftOnTarget_of_pos (hnow : 0 < systemTick.toInt)
    (hroom : -9223372036854775808 ≤ target.toInt - systemTick.toInt) :
    getTimeLeftOnTarget frequency systemTick target = 0#64 := by
  have hless : (target - systemTick).slt target = true := by
    rw [BitVec.slt_iff_toInt_lt, toInt_sub_of_room hnow.le hroom]
    exact sub_lt_self _ hnow
  rw [getTimeLeftOnTarget]
  split
  · rfl
  · exact if_pos (.inr hless)

/-- A target so far in the past that the subtraction wraps around. -/
theorem getTimeLeftOnTarget_of_underflow (hnow : 0 ≤ systemTick.toInt)
    (hunder : target.toInt - systemTick.toInt < -9223372036854775808) :
    getTimeLeftOnTarget frequency systemTick target = fromTick frequency (target - systemTick) := by
  have hsub := toInt_sub_of_underflow hnow hunder
  have htarget := (fitsWord_toInt target).1
  have hnow_le := (fitsWord_toInt systemTick).2
  have hnonzero : target ≠ 0#64 := by
    rintro rfl
    rw [BitVec.toInt_zero] at hunder
    omega
  have hleft : target - systemTick ≠ 0#64 := by
    intro h
    rw [h, BitVec.toInt_zero] at hsub
    omega
  have hless : ¬ (target - systemTick).slt target = true := by
    rw [BitVec.slt_iff_toInt_lt, hsub]
    omega
  rw [getTimeLeftOnTarget, if_neg hnonzero]
  dsimp only
  rw [if_neg (not_or.mpr ⟨hleft, hless⟩)]

/-- At the first tick the time left is the target's own, also for a target in the past. -/
theorem getTimeLeftOnTarget_zero_tick (htarget : target ≠ 0#64) :
    getTimeLeftOnTarget frequency 0#64 target = fromTick frequency target := by
  rw [getTimeLeftOnTarget, if_neg htarget]
  dsimp only
  rw [BitVec.sub_zero, if_neg]
  rw [BitVec.slt_iff_toInt_lt]
  exact not_or.mpr ⟨htarget, lt_irrefl _⟩

/-- The time from now to a later target, and none to another. -/
def LeavesTime (frequency systemTick target : BitVec 64) : Prop :=
  getTimeLeftOnTarget frequency systemTick target =
    if systemTick.toInt < target.toInt then fromTick frequency (target - systemTick) else 0#64

instance (frequency systemTick target : BitVec 64) :
    Decidable (LeavesTime frequency systemTick target) :=
  inferInstanceAs (Decidable (_ = _))

theorem fromTick_ne_zero (hpos : 0 < frequency.toInt) (hle : frequency.toInt ≤ 1000000000)
    {tick : BitVec 64} (htick : tick.toInt ≠ 0) : fromTick frequency tick ≠ 0#64 := by
  intro hzero
  have htoInt := congrArg BitVec.toInt hzero
  rw [BitVec.toInt_zero] at htoInt
  rcases lt_or_gt_of_ne htick with hneg | hpositive
  · exact (fromTick_neg hpos hle hneg).ne htoInt
  · exact (fromTick_pos hpos hle hpositive).ne' htoInt

theorem leavesTime_zero_tick_iff (hpos : 0 < frequency.toInt)
    (hle : frequency.toInt ≤ 1000000000) :
    LeavesTime frequency 0#64 target ↔ 0 ≤ target.toInt := by
  rw [LeavesTime]
  by_cases hzero : target = 0#64
  · subst hzero
    rw [getTimeLeftOnTarget, if_pos rfl, if_neg (lt_irrefl _)]
    exact iff_of_true rfl (by decide)
  · have hne : target.toInt ≠ 0 := fun h =>
      hzero (BitVec.eq_of_toInt_eq (h.trans (by decide : (0 : ℤ) = (0#64).toInt)))
    rw [getTimeLeftOnTarget_zero_tick hzero, BitVec.sub_zero, BitVec.toInt_zero]
    split
    · next hlater => exact iff_of_true rfl hlater.le
    · next hlater => exact iff_of_false (fromTick_ne_zero hpos hle hne) (by omega)

theorem leavesTime_of_pos_iff (hpos : 0 < frequency.toInt)
    (hle : frequency.toInt ≤ 1000000000) (hnow : 0 < systemTick.toInt) :
    LeavesTime frequency systemTick target ↔ target.toInt ≤ systemTick.toInt ∧
      -9223372036854775808 ≤ target.toInt - systemTick.toInt := by
  have htarget_ge := (fitsWord_toInt target).1
  rw [LeavesTime]
  by_cases hroom : -9223372036854775808 ≤ target.toInt - systemTick.toInt
  · rw [getTimeLeftOnTarget_of_pos hnow hroom]
    split
    · next hlater =>
      have hleft : (target - systemTick).toInt ≠ 0 := by
        rw [toInt_sub_of_room hnow.le hroom]
        omega
      exact iff_of_false (fromTick_ne_zero hpos hle hleft).symm (by omega)
    · next hlater => exact iff_of_true rfl ⟨not_lt.mp hlater, hroom⟩
  · have hleft : (target - systemTick).toInt ≠ 0 := by
      rw [toInt_sub_of_underflow hnow.le (not_le.mp hroom)]
      have hnow_le := (fitsWord_toInt systemTick).2
      omega
    rw [getTimeLeftOnTarget_of_underflow hnow.le (not_le.mp hroom), if_neg (by omega)]
    exact iff_of_false (fromTick_ne_zero hpos hle hleft) (by omega)

/-- The time left is right at the first tick for a target that is not in the past, and later only
for targets in the past that do not wrap around. -/
theorem leavesTime_iff (hpos : 0 < frequency.toInt) (hle : frequency.toInt ≤ 1000000000)
    (hnow : 0 ≤ systemTick.toInt) :
    LeavesTime frequency systemTick target ↔
      (systemTick.toInt = 0 ∧ 0 ≤ target.toInt) ∨
      (0 < systemTick.toInt ∧ target.toInt ≤ systemTick.toInt ∧
        -9223372036854775808 ≤ target.toInt - systemTick.toInt) := by
  rcases hnow.eq_or_lt with hfirst | hruns
  · obtain rfl : systemTick = 0#64 :=
      BitVec.eq_of_toInt_eq (hfirst.symm.trans (by decide : (0 : ℤ) = (0#64).toInt))
    rw [leavesTime_zero_tick_iff hpos hle]
    constructor
    · exact fun htarget => .inl ⟨rfl, htarget⟩
    · rintro (⟨-, htarget⟩ | ⟨hlater, -⟩)
      · exact htarget
      · exact absurd hlater (by decide)
  · rw [leavesTime_of_pos_iff hpos hle hruns]
    constructor
    · exact fun hpast => .inr ⟨hruns, hpast⟩
    · rintro (⟨hfirst, -⟩ | ⟨-, hpast⟩)
      · exact absurd hfirst hruns.ne'
      · exact hpast

theorem leavesTime_past : LeavesTime 10000000#64 9#64 4#64 :=
  (leavesTime_iff (by decide) (by decide) (by decide)).mpr
    (.inr ⟨by decide, by decide, by decide⟩)

/-- A second before its deadline the time left is nothing. -/
theorem no_time_left_a_second_before :
    getTimeLeftOnTarget 10000000#64 1#64 10000001#64 = 0#64 ∧
    fromTick 10000000#64 (10000001#64 - 1#64) = 1000000000#64 ∧
    ¬ LeavesTime 10000000#64 1#64 10000001#64 := by
  decide

end TimeLeft

end DDFramework
