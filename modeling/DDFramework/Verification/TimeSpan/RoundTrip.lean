import DDFramework.Verification.TimeSpan.Exactness

/-! # Ticks of a time, and back

`GetTick` rounds up and `FromTick` rounds down, so that ticks survive the way through
nanoseconds. A negative time other than the smallest loses its sign on the way to ticks. -/

namespace DDFramework.TimeSpan

variable {frequency timeNs : BitVec 64}

/-! ### Round trips -/

theorem getTick_fromTick (hpos : 0 < frequency.toInt) (hle : frequency.toInt ≤ 1000000000)
    {tick : BitVec 64} (htick : 0 ≤ tick.toInt)
    (hmax : tick.toInt ≤ (getMaxTickToTimeSpan frequency).toInt) :
    getTick frequency (fromTick frequency tick) = tick := by
  have htime := fromTick_nonneg hpos hle htick
  have hfromTick := toInt_fromTick_of_le_max hpos hle (by rwa [abs_of_nonneg htick])
  rw [rescaleToZero_of_nonneg hpos (by decide) htick] at hfromTick
  apply BitVec.eq_of_toInt_eq
  rw [toInt_getTick_of_nonneg hpos hle htime, hfromTick]
  exact rescaleUp_rescaleDown hpos (by decide) hle

theorem toInt_fromTick_getTick (hpos : 0 < frequency.toInt) (hle : frequency.toInt ≤ 1000000000)
    (htime : 0 ≤ timeNs.toInt)
    (hmax : (getTick frequency timeNs).toInt ≤ (getMaxTickToTimeSpan frequency).toInt) :
    (fromTick frequency (getTick frequency timeNs)).toInt =
      rescaleDown frequency.toInt 1000000000 (rescaleUp 1000000000 frequency.toInt timeNs.toInt) := by
  have hgetTick := toInt_getTick_of_nonneg hpos hle htime
  have hnonneg : 0 ≤ (getTick frequency timeNs).toInt :=
    hgetTick ▸ rescaleUp_time_nonneg hpos htime
  rw [toInt_fromTick_of_le_max hpos hle (by rwa [abs_of_nonneg hnonneg]),
    rescaleToZero_of_nonneg hpos (by decide) hnonneg, hgetTick]

theorem toInt_getTick_eq_ceil (hpos : 0 < frequency.toInt) (hle : frequency.toInt ≤ 1000000000)
    (htime : 0 ≤ timeNs.toInt) :
    (getTick frequency timeNs).toInt = ⌈(timeNs.toInt * frequency.toInt / 1000000000 : ℚ)⌉ := by
  rw [toInt_getTick_of_nonneg hpos hle htime, rescaleUp_eq_ceil (by decide)]
  norm_num

/-- Ticks of a time are its ticks rounded up, a tick is found again, and a time grows by less
than a tick. -/
theorem getTick_roundTrip (hpos : 0 < frequency.toInt) (hle : frequency.toInt ≤ 1000000000) :
    (∀ timeNs : BitVec 64, 0 ≤ timeNs.toInt →
      RescaleUpFits 1000000000 frequency.toInt timeNs.toInt ∧
      (getTick frequency timeNs).toInt = ⌈(timeNs.toInt * frequency.toInt / 1000000000 : ℚ)⌉) ∧
    (∀ tick : BitVec 64, 0 ≤ tick.toInt →
      tick.toInt ≤ (getMaxTickToTimeSpan frequency).toInt →
      getTick frequency (fromTick frequency tick) = tick) ∧
    ∀ timeNs : BitVec 64, 0 ≤ timeNs.toInt →
      (getTick frequency timeNs).toInt ≤ (getMaxTickToTimeSpan frequency).toInt →
      timeNs.toInt ≤ (fromTick frequency (getTick frequency timeNs)).toInt ∧
      ((fromTick frequency (getTick frequency timeNs)).toInt - timeNs.toInt : ℚ) <
        1000000000 / frequency.toInt := by
  refine ⟨?_, fun tick => getTick_fromTick hpos hle, ?_⟩
  · intro timeNs htime
    exact ⟨rescaleUpFits_time hpos hle htime, toInt_getTick_eq_ceil hpos hle htime⟩
  · intro timeNs htime hmax
    rw [toInt_fromTick_getTick hpos hle htime hmax]
    constructor
    · exact (rescaleUp_le_iff_le_rescaleDown (by decide) hpos).mp le_rfl
    · have hposRat : (0 : ℚ) < frequency.toInt := by exact_mod_cast hpos
      have hgrowth := rescaleDown_rescaleUp_lt (n := timeNs.toInt) hpos
        (show (0 : ℤ) < 1000000000 by decide)
      rw [lt_div_iff₀ hposRat, sub_mul, sub_lt_iff_lt_add']
      exact_mod_cast hgrowth

theorem getTick_roundTrip_ten_megahertz :
    getTick 10000000#64 (fromTick 10000000#64 7#64) = 7#64 ∧
    (150#64).toInt ≤ (fromTick 10000000#64 (getTick 10000000#64 150#64)).toInt := by
  have hpos : 0 < (10000000#64).toInt := by decide
  obtain ⟨_, hback, hgrowth⟩ := getTick_roundTrip hpos (by decide)
  exact ⟨hback 7#64 (by decide) (by decide), (hgrowth 150#64 (by decide) (by decide)).1⟩

/-! ### Negative times -/

theorem toInt_neg_of_ne_minTime (hmin : timeNs ≠ minTime) : (-timeNs).toInt = -timeNs.toInt := by
  have hne : timeNs.toInt ≠ -9223372036854775808 := by
    intro h
    exact hmin (BitVec.eq_of_toInt_eq (h.trans (by decide)))
  obtain ⟨hlower, hupper⟩ := fitsWord_toInt timeNs
  exact toInt_neg_of_fits ⟨by omega, by omega⟩

theorem neg_srem_billion (hmin : timeNs ≠ minTime) :
    -timeNs.srem 1000000000#64 = (-timeNs).srem 1000000000#64 := by
  have hrest : |(timeNs.srem 1000000000#64).toInt| ≤ 1000000000 := by
    rw [BitVec.toInt_srem, toInt_billion]
    exact abs_tmod_le (by decide) _
  apply BitVec.eq_of_toInt_eq
  rw [toInt_neg_of_fits (.of_abs_le (by rw [abs_neg]; exact hrest.trans (by decide))),
    BitVec.toInt_srem, BitVec.toInt_srem, toInt_neg_of_ne_minTime hmin, Int.neg_tmod]

theorem neg_sdiv_billion (hmin : timeNs ≠ minTime) :
    -timeNs.sdiv 1000000000#64 = (-timeNs).sdiv 1000000000#64 := by
  have hword : |timeNs.toInt| ≤ 9223372036854775807 * (1000000000#64).toInt := by
    obtain ⟨hlower, hupper⟩ := fitsWord_toInt timeNs
    rw [abs_le, toInt_billion]
    omega
  have hseconds := abs_tdiv_le (f := (1000000000#64).toInt) (by decide) hword
  have hsdiv : (timeNs.sdiv 1000000000#64).toInt = timeNs.toInt.tdiv (1000000000#64).toInt :=
    toInt_sdiv_of_fits (.of_abs_le hseconds)
  apply BitVec.eq_of_toInt_eq
  rw [toInt_neg_of_fits (.of_abs_le (by rwa [abs_neg, hsdiv])), hsdiv,
    toInt_sdiv_of_fits (by rw [toInt_neg_of_ne_minTime hmin, Int.neg_tdiv];
                           exact .of_abs_le (by rwa [abs_neg])),
    toInt_neg_of_ne_minTime hmin, Int.neg_tdiv]

/-- The sign test at the end never restores the sign: it looks at the sum of two parts whose
sign was taken away. -/
theorem getTick_of_neg (hneg : timeNs.toInt < 0) (hmin : timeNs ≠ minTime) :
    getTick frequency timeNs = getTick frequency (-timeNs) := by
  have hpositive : 0 < (-timeNs).toInt := by
    rw [toInt_neg_of_ne_minTime hmin]
    exact neg_pos.mpr hneg
  have hmin' : -timeNs ≠ minTime := by
    intro h
    rw [h] at hpositive
    exact absurd hpositive (by decide)
  have hnegative : timeNs.sle (-1#64) = true := sle_neg_one_iff.mpr hneg
  have hnot : ¬ (-timeNs).sle (-1#64) = true := fun h =>
    hpositive.not_gt (sle_neg_one_iff.mp h)
  rw [getTick, getTick, if_neg hmin, if_neg hmin']
  simp only [if_pos hnegative, if_neg hnot, neg_srem_billion hmin, neg_sdiv_billion hmin]

theorem getTick_pos (hpos : 0 < frequency.toInt) (hle : frequency.toInt ≤ 1000000000)
    (htime : 0 < timeNs.toInt) : 0 < (getTick frequency timeNs).toInt := by
  rw [toInt_getTick hpos hle htime]
  exact rescaleUp_pos (by decide) hpos htime

theorem getTick_minTime (frequency : BitVec 64) : getTick frequency minTime = minTime := by
  rw [getTick, if_pos rfl]

/-- The ticks of a negative time are the negated ticks of its absolute value. -/
def KeepsSign (frequency timeNs : BitVec 64) : Prop :=
  timeNs.toInt < 0 → timeNs ≠ minTime →
    (getTick frequency timeNs).toInt = -(getTick frequency (-timeNs)).toInt

instance (frequency timeNs : BitVec 64) : Decidable (KeepsSign frequency timeNs) :=
  inferInstanceAs (Decidable (_ → _ → _))

theorem keepsSign_iff (hpos : 0 < frequency.toInt) (hle : frequency.toInt ≤ 1000000000) :
    KeepsSign frequency timeNs ↔ timeNs = minTime ∨ 0 ≤ timeNs.toInt := by
  constructor
  · intro hkeeps
    by_contra h
    rw [not_or, not_le] at h
    have hpositive : 0 < (-timeNs).toInt := by
      rw [toInt_neg_of_ne_minTime h.1]
      exact neg_pos.mpr h.2
    have hsign := hkeeps h.2 h.1
    rw [getTick_of_neg h.2 h.1] at hsign
    have hticks := getTick_pos hpos hle hpositive
    omega
  · rintro (rfl | hnonneg) hneg hmin
    · exact absurd rfl hmin
    · exact absurd hneg hnonneg.not_gt

theorem getTick_mono (hpos : 0 < frequency.toInt) (hle : frequency.toInt ≤ 1000000000)
    {a b : BitVec 64} (ha : 0 ≤ a.toInt) (hab : a.toInt ≤ b.toInt) :
    (getTick frequency a).toInt ≤ (getTick frequency b).toInt := by
  rw [toInt_getTick_of_nonneg hpos hle ha, toInt_getTick_of_nonneg hpos hle (ha.trans hab)]
  exact rescaleUp_mono (by decide) hpos.le hab

/-- Order and sign are kept exactly between times that are not negative, the smallest apart. -/
theorem getTick_order_and_sign_iff (hpos : 0 < frequency.toInt)
    (hle : frequency.toInt ≤ 1000000000) {a b : BitVec 64} (hab : a.toInt ≤ b.toInt) :
    ((getTick frequency a).toInt ≤ (getTick frequency b).toInt ∧
      KeepsSign frequency a ∧ KeepsSign frequency b) ↔
    (a = minTime ∨ 0 ≤ a.toInt) ∧ (b = minTime ∨ 0 ≤ b.toInt) := by
  rw [keepsSign_iff hpos hle, keepsSign_iff hpos hle]
  constructor
  · exact fun h => h.2
  · intro h
    refine ⟨?_, h⟩
    rcases h.1 with rfl | ha
    · rw [getTick_minTime]
      exact (fitsWord_toInt _).1
    · exact getTick_mono hpos hle ha hab

theorem getTick_order_and_sign_positive :
    (getTick 10000000#64 150#64).toInt ≤ (getTick 10000000#64 250#64).toInt :=
  ((getTick_order_and_sign_iff (by decide) (by decide) (by decide)).mpr
    ⟨.inr (by decide), .inr (by decide)⟩).1

/-- A hundred nanoseconds ago count as one tick, more than none. -/
theorem getTick_negative_hundred :
    (-100#64 : BitVec 64).toInt ≤ (0#64).toInt ∧
    ¬ (getTick 10000000#64 (-100#64)).toInt ≤ (getTick 10000000#64 0#64).toInt ∧
    ¬ KeepsSign 10000000#64 (-100#64) := by
  decide

end DDFramework.TimeSpan
