import DDFramework.Library.WordRescale
import DDFramework.Model.TimeSpan

/-! # Conversions between nanoseconds and ticks

For a frequency up to one tick a nanosecond no intermediate result overflows: `GetTick` rounds
a positive time up, and `FromTick` rounds toward zero until it saturates. -/

namespace DDFramework.TimeSpan

variable {frequency tick timeNs : BitVec 64}

theorem toInt_billion : (1000000000#64).toInt = 1000000000 := by decide

theorem toInt_maxTime : maxTime.toInt = 9223372036854775807 := by decide

theorem toInt_getSystemTickFrequency (hpos : 0 < frequency.toInt)
    (hle : frequency.toInt ≤ 1000000000) :
    (getSystemTickFrequency frequency).toInt = frequency.toInt := by
  rw [getSystemTickFrequency, BitVec.toInt_signExtend_of_le (by decide), BitVec.toInt_setWidth,
    toNat_of_nonneg hpos.le]
  exact Int.bmod_eq_of_le (le_trans (by decide) hpos.le) (lt_of_le_of_lt hle (by decide))

/-! ### `FromTick` -/

/-- The limit is the number of ticks of the whole seconds that fit. -/
theorem toInt_getMaxTickToTimeSpan (hpos : 0 < frequency.toInt)
    (hle : frequency.toInt ≤ 1000000000) :
    ∃ seconds, 0 ≤ seconds ∧ seconds * 1000000000 ≤ 9223372036854775807 ∧
      (getMaxTickToTimeSpan frequency).toInt = seconds * frequency.toInt := by
  have hrem : (maxTime.srem frequency).toInt = 9223372036854775807 % frequency.toInt := by
    rw [toInt_srem_of_nonneg (by decide), toInt_maxTime]
  have hnonneg := Int.emod_nonneg 9223372036854775807 hpos.ne'
  have hrem_le : 9223372036854775807 % frequency.toInt ≤ 9223372036854775807 :=
    ((Int.emod_lt_of_pos _ hpos).le.trans hle).trans (by decide)
  have hwhole : 0 ≤ 9223372036854775807 - 9223372036854775807 % frequency.toInt :=
    sub_nonneg.mpr hrem_le
  have hsub : (maxTime - maxTime.srem frequency).toInt =
      9223372036854775807 - 9223372036854775807 % frequency.toInt := by
    have hfits : FitsWord (maxTime.toInt - (maxTime.srem frequency).toInt) := by
      rw [toInt_maxTime, hrem]
      exact .of_nonneg hwhole (sub_le_self _ hnonneg)
    rw [toInt_sub_of_fits hfits, toInt_maxTime, hrem]
  generalize 9223372036854775807 - 9223372036854775807 % frequency.toInt = whole at hsub hwhole
  have hwhole_le : whole ≤ 9223372036854775807 := hsub ▸ (fitsWord_toInt _).2
  have hdiv : ((maxTime - maxTime.srem frequency).sdiv 1000000000#64).toInt =
      whole / 1000000000 := by
    rw [toInt_sdiv_of_nonneg (by rw [hsub]; exact hwhole) (by decide), hsub, toInt_billion]
  have hseconds : 0 ≤ whole / 1000000000 := Int.ediv_nonneg hwhole (by decide)
  have hfits : whole / 1000000000 * 1000000000 ≤ 9223372036854775807 :=
    (Int.ediv_mul_le whole (by decide)).trans hwhole_le
  refine ⟨whole / 1000000000, hseconds, hfits, ?_⟩
  have hproduct : FitsWord (whole / 1000000000 * frequency.toInt) :=
    .of_nonneg (mul_nonneg hseconds hpos.le)
      ((mul_le_mul_of_nonneg_left hle hseconds).trans hfits)
  rw [getMaxTickToTimeSpan, toInt_mul_of_fits (hdiv ▸ hproduct), hdiv]

theorem getMaxTickToTimeSpan_nonneg (hpos : 0 < frequency.toInt)
    (hle : frequency.toInt ≤ 1000000000) : 0 ≤ (getMaxTickToTimeSpan frequency).toInt := by
  obtain ⟨seconds, hseconds, _, hlimit⟩ := toInt_getMaxTickToTimeSpan hpos hle
  rw [hlimit]
  exact mul_nonneg hseconds hpos.le

theorem toInt_neg_getMaxTickToTimeSpan (hpos : 0 < frequency.toInt)
    (hle : frequency.toInt ≤ 1000000000) :
    FitsWord (-(getMaxTickToTimeSpan frequency).toInt) ∧
    (-getMaxTickToTimeSpan frequency).toInt = -(getMaxTickToTimeSpan frequency).toInt := by
  have hlimit_nonneg := getMaxTickToTimeSpan_nonneg hpos hle
  have hfits : FitsWord (-(getMaxTickToTimeSpan frequency).toInt) :=
    .of_abs_le (by rw [abs_neg, abs_of_nonneg hlimit_nonneg]; exact (fitsWord_toInt _).2)
  exact ⟨hfits, toInt_neg_of_fits hfits⟩

/-- Up to the limit a tick can be converted to any unit no finer than a nanosecond. -/
theorem rescaleFits_of_le_max {unit : ℤ} (hpos : 0 < frequency.toInt)
    (hle : frequency.toInt ≤ 1000000000) (hunit : 0 < unit) (hunit_le : unit ≤ 1000000000)
    (htick : |tick.toInt| ≤ (getMaxTickToTimeSpan frequency).toInt) :
    RescaleFits frequency.toInt unit tick.toInt := by
  obtain ⟨seconds, hseconds, hfits, hlimit⟩ := toInt_getMaxTickToTimeSpan hpos hle
  rw [hlimit] at htick
  have hproduct : frequency.toInt * unit ≤ 9223372036854775807 :=
    (mul_le_mul hle hunit_le hunit.le (by decide)).trans (by decide)
  exact rescaleFits_of_abs_le hpos hunit hproduct
    ((mul_le_mul_of_nonneg_left hunit_le hseconds).trans hfits) htick

theorem toInt_fromTick_of_le_max (hpos : 0 < frequency.toInt)
    (hle : frequency.toInt ≤ 1000000000)
    (htick : |tick.toInt| ≤ (getMaxTickToTimeSpan frequency).toInt) :
    (fromTick frequency tick).toInt = rescaleToZero frequency.toInt 1000000000 tick.toInt := by
  have hfrequency := toInt_getSystemTickFrequency hpos hle
  have hneg := (toInt_neg_getMaxTickToTimeSpan hpos hle).2
  have hbounds := abs_le.mp htick
  have hfits := rescaleFits_of_le_max hpos hle (by decide) le_rfl htick
  rw [← hfrequency, ← toInt_billion] at hfits
  rw [fromTick]
  dsimp only
  rw [if_neg (by rw [BitVec.slt_iff_toInt_lt, not_lt]; exact hbounds.2),
    if_neg (by rw [BitVec.slt_iff_toInt_lt, not_lt, hneg]; exact hbounds.1), hfits.toInt_eq,
    hfrequency, toInt_billion]

theorem fromTick_of_max_lt (htick : (getMaxTickToTimeSpan frequency).toInt < tick.toInt) :
    fromTick frequency tick = maxTime := by
  rw [fromTick]
  dsimp only
  rw [if_pos (BitVec.slt_iff_toInt_lt.mpr htick)]

theorem fromTick_of_lt_neg_max (hpos : 0 < frequency.toInt) (hle : frequency.toInt ≤ 1000000000)
    (htick : tick.toInt < -(getMaxTickToTimeSpan frequency).toInt) :
    fromTick frequency tick = minTime := by
  have hlimit_nonneg := getMaxTickToTimeSpan_nonneg hpos hle
  rw [fromTick]
  dsimp only
  rw [if_neg, if_pos]
  · rw [BitVec.slt_iff_toInt_lt, (toInt_neg_getMaxTickToTimeSpan hpos hle).2]
    exact htick
  · rw [BitVec.slt_iff_toInt_lt, not_lt]
    exact (htick.trans_le (neg_le_self hlimit_nonneg)).le

/-- `FromTick` is the rounded down time or the largest one. -/
theorem toInt_fromTick (hpos : 0 < frequency.toInt) (hle : frequency.toInt ≤ 1000000000)
    (htick : 0 ≤ tick.toInt) :
    (fromTick frequency tick).toInt = 9223372036854775807 ∨
    (fromTick frequency tick).toInt = rescaleDown frequency.toInt 1000000000 tick.toInt := by
  rcases lt_or_ge (getMaxTickToTimeSpan frequency).toInt tick.toInt with habove | hwithin
  · left
    rw [fromTick_of_max_lt habove, toInt_maxTime]
  · right
    rw [toInt_fromTick_of_le_max hpos hle (by rwa [abs_of_nonneg htick]),
      rescaleToZero_of_nonneg hpos (by decide) htick]

theorem fromTick_nonneg (hpos : 0 < frequency.toInt) (hle : frequency.toInt ≤ 1000000000)
    (htick : 0 ≤ tick.toInt) : 0 ≤ (fromTick frequency tick).toInt := by
  rcases toInt_fromTick hpos hle htick with h | h
  · rw [h]
    decide
  · rw [h]
    exact rescaleDown_nonneg hpos (by decide) htick

/-! ### `GetTick` -/

theorem sle_neg_one_iff {a : BitVec 64} : a.sle (-1#64) = true ↔ a.toInt < 0 := by
  rw [BitVec.sle_iff_toInt_le, show (-1#64 : BitVec 64).toInt = -1 by decide]
  omega

/-- Nothing overflows in the conversion of a time that is not negative. -/
theorem rescaleUpFits_time (hpos : 0 < frequency.toInt) (hle : frequency.toInt ≤ 1000000000)
    (htime : 0 ≤ timeNs.toInt) : RescaleUpFits 1000000000 frequency.toInt timeNs.toInt :=
  rescaleUpFits_of_le (by decide) hpos.le hle (by decide) htime (fitsWord_toInt timeNs).2

theorem rescaleUp_time_nonneg (hpos : 0 < frequency.toInt) (htime : 0 ≤ timeNs.toInt) :
    0 ≤ rescaleUp 1000000000 frequency.toInt timeNs.toInt :=
  (seconds_mul_nonneg (by decide) hpos.le htime).trans
    (seconds_mul_le_rescaleUp (by decide) hpos.le _)

theorem toInt_getTick_of_nonneg (hpos : 0 < frequency.toInt)
    (hle : frequency.toInt ≤ 1000000000) (htime : 0 ≤ timeNs.toInt) :
    (getTick frequency timeNs).toInt = rescaleUp 1000000000 frequency.toInt timeNs.toInt := by
  have hfrequency := toInt_getSystemTickFrequency hpos hle
  have hmin : timeNs ≠ minTime := by
    rintro rfl
    exact absurd htime (by decide)
  have hnot : ¬ timeNs.sle (-1#64) = true := fun h => htime.not_gt (sle_neg_one_iff.mp h)
  have hfits := rescaleUpFits_time hpos hle htime
  rw [← hfrequency, ← toInt_billion] at hfits
  have hlast : (999999999#64).toInt = (1000000000#64).toInt - 1 := by decide
  have hresult := hfits.toInt_eq (by decide) hlast (hfrequency ▸ hpos.le) htime
  rw [hfrequency, toInt_billion] at hresult
  rw [getTick, if_neg hmin]
  simp only [if_neg hnot]
  rw [if_neg, hresult]
  rw [sle_neg_one_iff, hresult]
  exact (rescaleUp_time_nonneg hpos htime).not_gt

/-- A positive time is rounded up. -/
theorem toInt_getTick (hpos : 0 < frequency.toInt) (hle : frequency.toInt ≤ 1000000000)
    (htime : 0 < timeNs.toInt) :
    (getTick frequency timeNs).toInt = rescaleUp 1000000000 frequency.toInt timeNs.toInt :=
  toInt_getTick_of_nonneg hpos hle htime.le

end DDFramework.TimeSpan
