import DDFramework.Library.Rescale
import DDFramework.Library.SignedWord

/-! # Changes of unit on words

The conversions of `Rescale`, computed on signed words: which integers have to fit, bounds from
which they do, and the value of the word expression. -/

namespace DDFramework

variable {f g n seconds : ℤ}

/-! ### Toward zero -/

/-- No step of the conversion toward zero overflows. -/
structure RescaleFits (f g n : ℤ) : Prop where
  remainder : FitsWord (n.tmod f)
  rest : FitsWord (n.tmod f * g)
  residual : FitsWord ((n.tmod f * g).tdiv f)
  seconds : FitsWord (n.tdiv f)
  quotient : FitsWord (n.tdiv f * g)
  sum : FitsWord (rescaleToZero f g n)

theorem abs_tmod_le (hf : 0 < f) (n : ℤ) : |n.tmod f| ≤ f :=
  abs_le.mpr ⟨(Int.lt_tmod_of_pos n hf).le, (Int.tmod_lt_of_pos n hf).le⟩

theorem abs_tdiv_le_abs (f n : ℤ) : |n.tdiv f| ≤ |n| := by
  rw [Int.abs_eq_natAbs, Int.abs_eq_natAbs]
  exact_mod_cast Int.natAbs_tdiv_le_natAbs n f

theorem abs_tdiv_le (hf : 0 < f) (hn : |n| ≤ seconds * f) : |n.tdiv f| ≤ seconds := by
  have hunit := abs_rescaleToZero_le hf zero_le_one hn
  rwa [rescaleToZero_eq_tdiv hf zero_le_one, mul_one, mul_one] at hunit

/-- Nothing overflows up to a whole number of seconds that fits in both units. -/
theorem rescaleFits_of_abs_le (hf : 0 < f) (hg : 0 < g) (hfg : f * g ≤ 9223372036854775807)
    (hseconds : seconds * g ≤ 9223372036854775807) (hn : |n| ≤ seconds * f) :
    RescaleFits f g n := by
  have hremainder := abs_tmod_le hf n
  have hrest : |n.tmod f * g| ≤ f * g := by
    rw [abs_mul, abs_of_pos hg]
    exact mul_le_mul_of_nonneg_right hremainder hg.le
  have hwhole := abs_tdiv_le hf hn
  have hquotient : |n.tdiv f * g| ≤ seconds * g := by
    rw [abs_mul, abs_of_pos hg]
    exact mul_le_mul_of_nonneg_right hwhole hg.le
  have hf_le : f ≤ f * g := le_mul_of_one_le_right hf.le (Int.add_one_le_iff.mpr hg)
  have hseconds_le : seconds ≤ seconds * g :=
    le_mul_of_one_le_right ((abs_nonneg _).trans hwhole) (Int.add_one_le_iff.mpr hg)
  exact {
    remainder := .of_abs_le (hremainder.trans (hf_le.trans hfg))
    rest := .of_abs_le (hrest.trans hfg)
    residual := .of_abs_le ((abs_tdiv_le_abs _ _).trans (hrest.trans hfg))
    seconds := .of_abs_le (hwhole.trans (hseconds_le.trans hseconds))
    quotient := .of_abs_le (hquotient.trans hseconds)
    sum := .of_abs_le ((abs_rescaleToZero_le hf hg.le hn).trans hseconds) }

theorem RescaleFits.toInt_eq {frequency unit tick : BitVec 64}
    (h : RescaleFits frequency.toInt unit.toInt tick.toInt) :
    ((tick.srem frequency * unit).sdiv frequency + tick.sdiv frequency * unit).toInt =
      rescaleToZero frequency.toInt unit.toInt tick.toInt := by
  have hrest : (tick.srem frequency * unit).toInt =
      tick.toInt.tmod frequency.toInt * unit.toInt := by
    rw [toInt_mul_of_fits (by rw [BitVec.toInt_srem]; exact h.rest), BitVec.toInt_srem]
  have hresidual : ((tick.srem frequency * unit).sdiv frequency).toInt =
      (tick.toInt.tmod frequency.toInt * unit.toInt).tdiv frequency.toInt := by
    rw [toInt_sdiv_of_fits (by rw [hrest]; exact h.residual), hrest]
  have hseconds := toInt_sdiv_of_fits h.seconds
  have hquotient : (tick.sdiv frequency * unit).toInt =
      tick.toInt.tdiv frequency.toInt * unit.toInt := by
    rw [toInt_mul_of_fits (by rw [hseconds]; exact h.quotient), hseconds]
  rw [toInt_add_of_fits (by rw [hresidual, hquotient]; exact h.sum), hresidual, hquotient,
    rescaleToZero]

/-! ### Rounded up -/

/-- No step of the rounded up conversion overflows. -/
structure RescaleUpFits (f g n : ℤ) : Prop where
  remainder : FitsWord (n % f)
  rest : FitsWord (n % f * g)
  raised : FitsWord (n % f * g + (f - 1))
  residual : FitsWord ((n % f * g + (f - 1)) / f)
  seconds : FitsWord (n / f)
  product : FitsWord (n / f * g)
  sum : FitsWord (rescaleUp f g n)

/-- Nothing overflows when the time fits and the new unit is the coarser one. -/
theorem rescaleUpFits_of_le (hf : 0 < f) (hg : 0 ≤ g) (hgf : g ≤ f)
    (hsquare : f * f ≤ 9223372036854775807) (hn : 0 ≤ n) (hle : n ≤ 9223372036854775807) :
    RescaleUpFits f g n := by
  have hremainder_nonneg := Int.emod_nonneg n hf.ne'
  have hrest_nonneg := rest_mul_nonneg hf hg n
  have hlast : 0 ≤ f - 1 := Int.le_sub_one_of_lt hf
  have hraised_nonneg := add_nonneg hrest_nonneg hlast
  have hraised_le := (rest_mul_add_le hf hg hgf n).trans hsquare
  have hsquare_ge : f ≤ f * f := le_mul_of_one_le_right hf.le (Int.add_one_le_iff.mpr hf)
  have hseconds_nonneg := Int.ediv_nonneg hn hf.le
  have hproduct_nonneg := mul_nonneg hseconds_nonneg hg
  have hproduct_le := seconds_mul_le_rescaleUp hf hg n
  have hsum_le := (rescaleUp_le_self hf hgf hn).trans hle
  exact {
    remainder := .of_nonneg hremainder_nonneg
      ((Int.emod_lt_of_pos n hf).le.trans (hsquare_ge.trans hsquare))
    rest := .of_nonneg hrest_nonneg ((le_add_of_nonneg_right hlast).trans hraised_le)
    raised := .of_nonneg hraised_nonneg hraised_le
    residual := .of_nonneg (Int.ediv_nonneg hraised_nonneg hf.le)
      ((Int.ediv_le_self _ hraised_nonneg).trans hraised_le)
    seconds := .of_nonneg hseconds_nonneg ((Int.ediv_le_self _ hn).trans hle)
    product := .of_nonneg hproduct_nonneg (hproduct_le.trans hsum_le)
    sum := .of_nonneg (hproduct_nonneg.trans hproduct_le) hsum_le }

theorem RescaleUpFits.toInt_eq {second last frequency time : BitVec 64}
    (h : RescaleUpFits second.toInt frequency.toInt time.toInt) (hsecond : 0 < second.toInt)
    (hlast : last.toInt = second.toInt - 1) (hfrequency : 0 ≤ frequency.toInt)
    (htime : 0 ≤ time.toInt) :
    ((time.srem second * frequency + last).sdiv second + time.sdiv second * frequency).toInt =
      rescaleUp second.toInt frequency.toInt time.toInt := by
  have hremainder := toInt_srem_of_nonneg (b := second) htime
  have hrest : (time.srem second * frequency).toInt =
      time.toInt % second.toInt * frequency.toInt := by
    rw [toInt_mul_of_fits (by rw [hremainder]; exact h.rest), hremainder]
  have hraised : (time.srem second * frequency + last).toInt =
      time.toInt % second.toInt * frequency.toInt + (second.toInt - 1) := by
    rw [toInt_add_of_fits (by rw [hrest, hlast]; exact h.raised), hrest, hlast]
  have hraised_nonneg : 0 ≤ (time.srem second * frequency + last).toInt := by
    rw [hraised]
    exact add_nonneg (rest_mul_nonneg hsecond hfrequency _) (Int.le_sub_one_of_lt hsecond)
  have hresidual := toInt_sdiv_of_nonneg hraised_nonneg hsecond.le
  rw [hraised] at hresidual
  have hseconds := toInt_sdiv_of_nonneg htime hsecond.le
  have hproduct : (time.sdiv second * frequency).toInt =
      time.toInt / second.toInt * frequency.toInt := by
    rw [toInt_mul_of_fits (by rw [hseconds]; exact h.product), hseconds]
  rw [toInt_add_of_fits (by rw [hresidual, hproduct]; exact h.sum), hresidual, hproduct, rescaleUp]

end DDFramework
