import DDFramework.Verification.TimeSpan.Conversion

/-! # Exact conversion of ticks

Up to the limit that `InitializeTimeStamp` computes, `FromTick` gives the exact time rounded
toward zero, and so do the milliseconds of `GetMillisecondsFromTick`. -/

namespace DDFramework.TimeSpan

variable {frequency tick : BitVec 64}

/-! ### Order -/

/-- The three ranges of `FromTick`. -/
theorem fromTick_cases (frequency tick : BitVec 64) :
    (getMaxTickToTimeSpan frequency).toInt < tick.toInt ∨
    tick.toInt < -(getMaxTickToTimeSpan frequency).toInt ∨
    |tick.toInt| ≤ (getMaxTickToTimeSpan frequency).toInt := by
  rw [abs_le]
  omega

theorem fromTick_mono (hpos : 0 < frequency.toInt) (hle : frequency.toInt ≤ 1000000000)
    {a b : BitVec 64} (hab : a.toInt ≤ b.toInt) :
    (fromTick frequency a).toInt ≤ (fromTick frequency b).toInt := by
  rcases fromTick_cases frequency b with hb | hb | hb
  · rw [fromTick_of_max_lt hb, toInt_maxTime]
    exact (fitsWord_toInt _).2
  · rw [fromTick_of_lt_neg_max hpos hle (hab.trans_lt hb), fromTick_of_lt_neg_max hpos hle hb]
  · rcases fromTick_cases frequency a with ha | ha | ha
    · exact absurd (ha.trans_le hab) (abs_le.mp hb).2.not_gt
    · rw [fromTick_of_lt_neg_max hpos hle ha]
      exact (fitsWord_toInt _).1
    · rw [toInt_fromTick_of_le_max hpos hle ha, toInt_fromTick_of_le_max hpos hle hb]
      exact rescaleToZero_mono hpos (by decide) hab

/-- The time of a tick has the sign of the tick. -/
theorem fromTick_pos (hpos : 0 < frequency.toInt) (hle : frequency.toInt ≤ 1000000000)
    (htick : 0 < tick.toInt) : 0 < (fromTick frequency tick).toInt := by
  rcases fromTick_cases frequency tick with h | h | h
  · rw [fromTick_of_max_lt h]
    decide
  · have hlimit := getMaxTickToTimeSpan_nonneg hpos hle
    exact absurd (h.trans_le (neg_nonpos.mpr hlimit)) htick.not_gt
  · rw [toInt_fromTick_of_le_max hpos hle h]
    exact rescaleToZero_pos hpos hle htick

theorem fromTick_neg (hpos : 0 < frequency.toInt) (hle : frequency.toInt ≤ 1000000000)
    (htick : tick.toInt < 0) : (fromTick frequency tick).toInt < 0 := by
  rcases fromTick_cases frequency tick with h | h | h
  · exact absurd ((getMaxTickToTimeSpan_nonneg hpos hle).trans_lt h) htick.not_gt
  · rw [fromTick_of_lt_neg_max hpos hle h]
    decide
  · have hopposite := rescaleToZero_pos hpos hle (neg_pos.mpr htick)
    rw [rescaleToZero_neg] at hopposite
    rw [toInt_fromTick_of_le_max hpos hle h]
    exact neg_pos.mp hopposite

/-! ### Exactness -/

/-- `FromTick` is exact up to the limit, saturates beyond it and keeps the order. -/
theorem fromTick_exact (hpos : 0 < frequency.toInt) (hle : frequency.toInt ≤ 1000000000) :
    FitsWord (-(getMaxTickToTimeSpan frequency).toInt) ∧
    (∀ tick : BitVec 64, |tick.toInt| ≤ (getMaxTickToTimeSpan frequency).toInt →
      RescaleFits frequency.toInt 1000000000 tick.toInt ∧
      (fromTick frequency tick).toInt = (tick.toInt * 1000000000).tdiv frequency.toInt) ∧
    (∀ tick : BitVec 64, (getMaxTickToTimeSpan frequency).toInt < tick.toInt →
      fromTick frequency tick = maxTime) ∧
    (∀ tick : BitVec 64, tick.toInt < -(getMaxTickToTimeSpan frequency).toInt →
      fromTick frequency tick = minTime) ∧
    ∀ a b : BitVec 64, a.toInt ≤ b.toInt →
      (fromTick frequency a).toInt ≤ (fromTick frequency b).toInt := by
  refine ⟨(toInt_neg_getMaxTickToTimeSpan hpos hle).1, ?_, fun tick h => fromTick_of_max_lt h,
    fun tick h => fromTick_of_lt_neg_max hpos hle h, fun a b h => fromTick_mono hpos hle h⟩
  intro tick htick
  refine ⟨rescaleFits_of_le_max hpos hle (by decide) le_rfl htick, ?_⟩
  rw [toInt_fromTick_of_le_max hpos hle htick, rescaleToZero_eq_tdiv hpos (by decide)]

/-- A performance counter of ten megahertz. -/
theorem fromTick_exact_ten_megahertz :
    (fromTick 10000000#64 (-15#64)).toInt = -1500 ∧ fromTick 10000000#64 maxTime = maxTime := by
  have hpos : 0 < (10000000#64).toInt := by decide
  obtain ⟨_, hexact, habove, _⟩ := fromTick_exact hpos (by decide)
  refine ⟨?_, habove _ (by decide)⟩
  rw [(hexact (-15#64) (by decide)).2]
  decide

/-! ### Milliseconds -/

theorem toInt_getMilliSeconds (timeNs : BitVec 64) :
    FitsWord (timeNs.toInt.tdiv 1000000) ∧
    (getMilliSeconds timeNs).toInt = timeNs.toInt.tdiv 1000000 := by
  have hword : |timeNs.toInt| ≤ 9223372036854775807 * 1000000 := by
    obtain ⟨hlower, hupper⟩ := fitsWord_toInt timeNs
    rw [abs_le]
    omega
  have hfits : FitsWord (timeNs.toInt.tdiv 1000000) := .of_abs_le (abs_tdiv_le (by decide) hword)
  exact ⟨hfits, toInt_sdiv_of_fits hfits⟩

theorem toInt_getMillisecondsFromTick (hpos : 0 < frequency.toInt)
    (hle : frequency.toInt ≤ 1000000000)
    (htick : |tick.toInt| ≤ (getMaxTickToTimeSpan frequency).toInt) :
    (getMillisecondsFromTick frequency tick).toInt =
      rescaleToZero frequency.toInt 1000 tick.toInt := by
  have hfrequency := toInt_getSystemTickFrequency hpos hle
  have hfits : RescaleFits frequency.toInt 1000 tick.toInt :=
    rescaleFits_of_le_max hpos hle (by decide) (by decide) htick
  have hthousand : (1000#64).toInt = 1000 := by decide
  rw [← hfrequency, ← hthousand] at hfits
  rw [getMillisecondsFromTick, hfits.toInt_eq, hfrequency, hthousand]

/-- The milliseconds of a tick are those of its time. -/
theorem getMillisecondsFromTick_eq (hpos : 0 < frequency.toInt)
    (hle : frequency.toInt ≤ 1000000000)
    (htick : |tick.toInt| ≤ (getMaxTickToTimeSpan frequency).toInt) :
    RescaleFits frequency.toInt 1000 tick.toInt ∧
    RescaleFits frequency.toInt 1000000000 tick.toInt ∧
    FitsWord ((fromTick frequency tick).toInt.tdiv 1000000) ∧
    getMillisecondsFromTick frequency tick = getMilliSeconds (fromTick frequency tick) := by
  refine ⟨rescaleFits_of_le_max hpos hle (by decide) (by decide) htick,
    rescaleFits_of_le_max hpos hle (by decide) le_rfl htick, (toInt_getMilliSeconds _).1, ?_⟩
  apply BitVec.eq_of_toInt_eq
  rw [toInt_getMillisecondsFromTick hpos hle htick, (toInt_getMilliSeconds _).2,
    toInt_fromTick_of_le_max hpos hle htick]
  exact (rescaleToZero_tdiv (g := 1000) (k := 1000000) hpos (by decide) (by decide) _).symm

theorem getMillisecondsFromTick_eq_backwards :
    getMillisecondsFromTick 10000000#64 (-25000#64) =
      getMilliSeconds (fromTick 10000000#64 (-25000#64)) :=
  (getMillisecondsFromTick_eq (by decide) (by decide) (by decide)).2.2.2

end DDFramework.TimeSpan
