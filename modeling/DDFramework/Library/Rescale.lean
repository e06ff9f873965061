import Mathlib.Algebra.Order.Ring.Int
import Mathlib.Data.Rat.Floor
import Mathlib.Tactic.Linarith
import Mathlib.Tactic.Ring

/-! # Changes of unit

A time is given in units of which `f` or `g` make a second. Whole seconds and the rest are
converted apart, so that the products stay small. -/

namespace DDFramework

/-- From `f` to `g` units a second, rounded down. -/
def rescaleDown (f g n : ℤ) : ℤ := n % f * g / f + n / f * g

/-- From `f` to `g` units a second, rounded toward zero. -/
def rescaleToZero (f g n : ℤ) : ℤ := (n.tmod f * g).tdiv f + n.tdiv f * g

/-- From `f` to `g` units a second, rounded up. -/
def rescaleUp (f g n : ℤ) : ℤ := (n % f * g + (f - 1)) / f + n / f * g

theorem mul_eq_rest_add_seconds (f g n : ℤ) : n * g = n % f * g + n / f * g * f := by
  have hsplit := Int.emod_add_mul_ediv n f
  calc n * g = (n % f + f * (n / f)) * g := by rw [hsplit]
    _ = n % f * g + n / f * g * f := by ring

theorem le_rescaleDown_iff {f g m n : ℤ} (hf : 0 < f) :
    m ≤ rescaleDown f g n ↔ m * f ≤ n * g := by
  rw [rescaleDown, ← sub_le_iff_le_add, Int.le_ediv_iff_mul_le hf, mul_eq_rest_add_seconds f g n]
  constructor
  · intro h
    linarith [sub_mul m (n / f * g) f]
  · intro h
    linarith [sub_mul m (n / f * g) f]

theorem rescaleUp_le_iff {f g m n : ℤ} (hf : 0 < f) :
    rescaleUp f g n ≤ m ↔ n * g ≤ m * f := by
  have hceil : (n % f * g + (f - 1)) / f ≤ m - n / f * g ↔
      n % f * g ≤ (m - n / f * g) * f := by
    rw [← Int.lt_add_one_iff, Int.ediv_lt_iff_lt_mul hf, add_mul, one_mul]
    omega
  rw [rescaleUp, ← le_sub_iff_add_le, hceil, mul_eq_rest_add_seconds f g n]
  constructor
  · intro h
    linarith [sub_mul m (n / f * g) f]
  · intro h
    linarith [sub_mul m (n / f * g) f]

/-- Rounding up into other units is adjoint to rounding down from them. -/
theorem rescaleUp_le_iff_le_rescaleDown {f g m n : ℤ} (hf : 0 < f) (hg : 0 < g) :
    rescaleUp f g n ≤ m ↔ n ≤ rescaleDown g f m := by
  rw [rescaleUp_le_iff hf, le_rescaleDown_iff hg]

theorem rescaleDown_eq_ediv {f g : ℤ} (hf : 0 < f) (n : ℤ) : rescaleDown f g n = n * g / f :=
  eq_of_forall_le_iff fun _ => (le_rescaleDown_iff hf).trans (Int.le_ediv_iff_mul_le hf).symm

theorem rescaleUp_eq_ceil {f g : ℤ} (hf : 0 < f) (n : ℤ) :
    rescaleUp f g n = ⌈(n * g / f : ℚ)⌉ := by
  have hpos : (0 : ℚ) < f := by exact_mod_cast hf
  refine eq_of_forall_ge_iff fun m => ?_
  rw [rescaleUp_le_iff hf, Int.ceil_le, div_le_iff₀ hpos]
  exact_mod_cast Iff.rfl

theorem rescaleUp_mono {f g m n : ℤ} (hf : 0 < f) (hg : 0 ≤ g) (hmn : m ≤ n) :
    rescaleUp f g m ≤ rescaleUp f g n := by
  rw [rescaleUp_le_iff hf]
  exact (mul_le_mul_of_nonneg_right hmn hg).trans ((rescaleUp_le_iff hf).mp le_rfl)

theorem rescaleUp_pos {f g n : ℤ} (hf : 0 < f) (hg : 0 < g) (hn : 0 < n) :
    0 < rescaleUp f g n := by
  by_contra h
  have hscaled := (rescaleUp_le_iff hf).mp (not_lt.mp h)
  rw [zero_mul] at hscaled
  exact (mul_pos hn hg).not_ge hscaled

theorem rescaleUp_zero {f g : ℤ} (hf : 0 < f) : rescaleUp f g 0 = 0 := by
  rw [rescaleUp, Int.zero_emod, zero_mul, zero_add, Int.zero_ediv, zero_mul, add_zero]
  exact Int.ediv_eq_zero_of_lt (Int.le_sub_one_of_lt hf) (sub_one_lt f)

theorem rescaleDown_mul_le {f g n : ℤ} (hf : 0 < f) : rescaleDown f g n * f ≤ n * g :=
  (le_rescaleDown_iff hf).mp le_rfl

/-- Through finer units and back, nothing is lost. -/
theorem rescaleUp_rescaleDown {f g n : ℤ} (hf : 0 < f) (hg : 0 < g) (hfg : f ≤ g) :
    rescaleUp g f (rescaleDown f g n) = n := by
  refine le_antisymm ((rescaleUp_le_iff_le_rescaleDown hg hf).mpr le_rfl) ?_
  by_contra h
  -- one tick less would already reach the rounded down time
  have hless : rescaleDown f g n ≤ rescaleDown f g (n - 1) :=
    (rescaleUp_le_iff_le_rescaleDown hg hf).mp (Int.le_sub_one_of_lt (not_le.mp h))
  have hstep : rescaleDown f g (n - 1) + 1 ≤ rescaleDown f g n := by
    rw [le_rescaleDown_iff hf]
    linarith [rescaleDown_mul_le hf (g := g) (n := n - 1), sub_mul n 1 g,
      add_mul (rescaleDown f g (n - 1)) 1 f]
  omega

/-- Through coarser units and back, a time grows by less than one coarse unit. -/
theorem rescaleDown_rescaleUp_lt {f g n : ℤ} (hf : 0 < f) (hg : 0 < g) :
    rescaleDown f g (rescaleUp g f n) * f < n * f + g := by
  have hdown := rescaleDown_mul_le hf (g := g) (n := rescaleUp g f n)
  have hup : ¬ rescaleUp g f n ≤ rescaleUp g f n - 1 := by omega
  rw [rescaleUp_le_iff hg, not_le, sub_mul, one_mul] at hup
  linarith

theorem rescaleDown_nonneg {f g n : ℤ} (hf : 0 < f) (hg : 0 ≤ g) (hn : 0 ≤ n) :
    0 ≤ rescaleDown f g n := by
  rw [le_rescaleDown_iff hf, zero_mul]
  exact mul_nonneg hn hg

/-- Coarser units make the number smaller. -/
theorem rescaleUp_le_self {f g n : ℤ} (hf : 0 < f) (hgf : g ≤ f) (hn : 0 ≤ n) :
    rescaleUp f g n ≤ n := by
  rw [rescaleUp_le_iff hf]
  exact mul_le_mul_of_nonneg_left hgf hn

/-! ### Rounding toward zero -/

theorem rescaleToZero_neg (f g n : ℤ) : rescaleToZero f g (-n) = -rescaleToZero f g n := by
  rw [rescaleToZero, rescaleToZero, Int.neg_tmod, neg_mul, Int.neg_tdiv, Int.neg_tdiv, neg_mul,
    neg_add]

theorem rescaleToZero_of_nonneg {f g n : ℤ} (hf : 0 < f) (hg : 0 ≤ g) (hn : 0 ≤ n) :
    rescaleToZero f g n = rescaleDown f g n := by
  have hrest : 0 ≤ n % f * g := mul_nonneg (Int.emod_nonneg n hf.ne') hg
  rw [rescaleToZero, rescaleDown, Int.tmod_eq_emod_of_nonneg hn, Int.tdiv_eq_ediv_of_nonneg hn,
    Int.tdiv_eq_ediv_of_nonneg hrest]

/-- The parts are rounded toward zero together. -/
theorem rescaleToZero_eq_tdiv {f g : ℤ} (hf : 0 < f) (hg : 0 ≤ g) (n : ℤ) :
    rescaleToZero f g n = (n * g).tdiv f := by
  induction n using Int.wlog_sign with
  | inv n => rw [rescaleToZero_neg, neg_mul, Int.neg_tdiv, neg_inj]
  | w n =>
    have hn := Int.natCast_nonneg n
    rw [rescaleToZero_of_nonneg hf hg hn, rescaleDown_eq_ediv hf,
      Int.tdiv_eq_ediv_of_nonneg (mul_nonneg hn hg)]

theorem rescaleToZero_mono {f g m n : ℤ} (hf : 0 < f) (hg : 0 ≤ g) (hmn : m ≤ n) :
    rescaleToZero f g m ≤ rescaleToZero f g n := by
  rw [rescaleToZero_eq_tdiv hf hg, rescaleToZero_eq_tdiv hf hg]
  exact Int.tdiv_le_tdiv hf (mul_le_mul_of_nonneg_right hmn hg)

theorem rescaleToZero_whole {f g : ℤ} (hf : 0 < f) (hg : 0 ≤ g) (seconds : ℤ) :
    rescaleToZero f g (seconds * f) = seconds * g := by
  rw [rescaleToZero_eq_tdiv hf hg, mul_right_comm, Int.mul_tdiv_cancel _ hf.ne']

/-- Into finer units a time does not vanish. -/
theorem rescaleToZero_pos {f g n : ℤ} (hf : 0 < f) (hfg : f ≤ g) (hn : 0 < n) :
    0 < rescaleToZero f g n := by
  have hg : 0 ≤ g := hf.le.trans hfg
  rw [rescaleToZero_of_nonneg hf hg hn.le, ← Int.add_one_le_iff, zero_add, le_rescaleDown_iff hf,
    one_mul]
  exact hfg.trans (le_mul_of_one_le_left hg (Int.add_one_le_iff.mpr hn))

/-- The bound that whole seconds give. -/
theorem abs_rescaleToZero_le {f g n seconds : ℤ} (hf : 0 < f) (hg : 0 ≤ g)
    (hn : |n| ≤ seconds * f) : |rescaleToZero f g n| ≤ seconds * g := by
  have hbounds := abs_le.mp hn
  rw [abs_le, ← rescaleToZero_whole hf hg, ← rescaleToZero_neg]
  exact ⟨rescaleToZero_mono hf hg hbounds.1, rescaleToZero_mono hf hg hbounds.2⟩

theorem tdiv_tdiv {f k : ℤ} (hf : 0 ≤ f) (n : ℤ) : (n.tdiv f).tdiv k = n.tdiv (f * k) := by
  induction n using Int.wlog_sign with
  | inv n => rw [Int.neg_tdiv, Int.neg_tdiv, Int.neg_tdiv, neg_inj]
  | w n =>
    have hn := Int.natCast_nonneg n
    rw [Int.tdiv_eq_ediv_of_nonneg hn, Int.tdiv_eq_ediv_of_nonneg (Int.ediv_nonneg hn hf),
      Int.tdiv_eq_ediv_of_nonneg hn, Int.ediv_ediv_of_nonneg hf]

/-- Rounding toward zero to fine units first makes no difference. -/
theorem rescaleToZero_tdiv {f g k : ℤ} (hf : 0 < f) (hg : 0 ≤ g) (hk : 0 < k) (n : ℤ) :
    (rescaleToZero f (g * k) n).tdiv k = rescaleToZero f g n := by
  rw [rescaleToZero_eq_tdiv hf (mul_nonneg hg hk.le), rescaleToZero_eq_tdiv hf hg,
    tdiv_tdiv hf.le, ← mul_assoc, Int.mul_tdiv_mul_of_pos_left _ _ hk]

/-! ### The parts of a conversion -/

theorem rest_mul_nonneg {f g : ℤ} (hf : 0 < f) (hg : 0 ≤ g) (n : ℤ) : 0 ≤ n % f * g :=
  mul_nonneg (Int.emod_nonneg n hf.ne') hg

theorem rest_mul_add_le {f g : ℤ} (hf : 0 < f) (hg : 0 ≤ g) (hgf : g ≤ f) (n : ℤ) :
    n % f * g + (f - 1) ≤ f * f := by
  have hrest : n % f ≤ f - 1 := Int.le_sub_one_of_lt (Int.emod_lt_of_pos n hf)
  calc n % f * g + (f - 1) ≤ (f - 1) * g + (f - 1) := by
        linarith [mul_le_mul_of_nonneg_right hrest hg]
    _ ≤ (f - 1) * f + (f - 1) := by
        linarith [mul_le_mul_of_nonneg_left hgf (sub_nonneg.mpr (Int.add_one_le_iff.mpr hf))]
    _ ≤ f * f := by linarith [sub_mul f 1 f]

theorem seconds_mul_nonneg {f g n : ℤ} (hf : 0 < f) (hg : 0 ≤ g) (hn : 0 ≤ n) : 0 ≤ n / f * g :=
  mul_nonneg (Int.ediv_nonneg hn hf.le) hg

theorem seconds_mul_le_rescaleUp {f g : ℤ} (hf : 0 < f) (hg : 0 ≤ g) (n : ℤ) :
    n / f * g ≤ rescaleUp f g n := by
  refine le_add_of_nonneg_left (Int.ediv_nonneg ?_ hf.le)
  exact add_nonneg (rest_mul_nonneg hf hg n) (sub_nonneg.mpr (Int.add_one_le_iff.mpr hf))

end DDFramework
