import DDFramework.Model.Result
import Mathlib.Tactic.NormNum

/-! # What a result code keeps

The bit counts `ModuleBits` and `DescriptionBits` are used as masks, so a code keeps the bits
0 and 3 of the module number and the bits 0, 2 and 3 of the description. -/

namespace DDFramework

variable {m m' d d' s e : BitVec 32}

/-- The number that a code is. -/
theorem toNat_declareResult (m d : BitVec 32) :
    (declareResult m d).toNat =
      512 * (d &&& descriptionBits).toNat + (m &&& moduleBits).toNat := by
  have hd : (d &&& descriptionBits).toNat ≤ 13 := by
    rw [BitVec.toNat_and]
    exact Nat.and_le_right
  have hm : (m &&& moduleBits).toNat ≤ 9 := by
    rw [BitVec.toNat_and]
    exact Nat.and_le_right
  have hshift : ((d &&& descriptionBits) <<< moduleBits.toNat).toNat =
      (d &&& descriptionBits).toNat <<< 9 := by
    rw [BitVec.toNat_shiftLeft, Nat.mod_eq_of_lt]
    · rfl
    · rw [show moduleBits.toNat = 9 from rfl, Nat.shiftLeft_eq]
      omega
  have hlow : (m &&& moduleBits).toNat < 2 ^ 9 := by omega
  rw [declareResult, BitVec.toNat_or, hshift, ← Nat.shiftLeft_add_eq_or_of_lt hlow,
    Nat.shiftLeft_eq]
  omega

theorem getModule_declareResult (m d : BitVec 32) :
    getModule (declareResult m d) = m &&& moduleBits := by
  have hmask : ∀ i < 32, 9 ≤ i → moduleBits.getLsbD i = false := by decide
  have hshift : ((d &&& descriptionBits) <<< moduleBits.toNat) &&& moduleBits = 0 := by
    apply BitVec.eq_of_getLsbD_eq
    intro i hi
    rw [BitVec.getLsbD_and, BitVec.getLsbD_shiftLeft, show moduleBits.toNat = 9 from rfl]
    by_cases hlow : i < 9
    · simp [hlow]
    · simp [hmask i hi (not_lt.mp hlow)]
  rw [getModule, declareResult, BitVec.and_comm, BitVec.and_or_distrib_left,
    BitVec.and_comm moduleBits, hshift, BitVec.and_comm moduleBits, BitVec.and_assoc,
    BitVec.and_self]
  exact BitVec.zero_or

theorem getDescription_declareResult (m d : BitVec 32) :
    getDescription (declareResult m d) = d &&& descriptionBits := by
  have hm : (m &&& moduleBits).toNat ≤ 9 := by
    rw [BitVec.toNat_and]
    exact Nat.and_le_right
  have hdiv : declareResult m d >>> moduleBits.toNat = d &&& descriptionBits := by
    rw [← BitVec.toNat_inj, BitVec.toNat_ushiftRight, toNat_declareResult,
      show moduleBits.toNat = 9 from rfl, Nat.shiftRight_eq_div_pow]
    omega
  rw [getDescription, hdiv, BitVec.and_assoc, BitVec.and_self]

/-- Two codes are equal when the kept bits are. -/
theorem declareResult_inj_iff :
    declareResult m d = declareResult m' d' ↔
      m &&& moduleBits = m' &&& moduleBits ∧ d &&& descriptionBits = d' &&& descriptionBits := by
  constructor
  · intro h
    rw [← getModule_declareResult m d, ← getModule_declareResult m' d',
      ← getDescription_declareResult m d, ← getDescription_declareResult m' d', h]
    exact ⟨rfl, rfl⟩
  · rintro ⟨hm, hd⟩
    rw [declareResult, hm, hd, ← declareResult]

theorem declareResult_le_iff :
    declareResult m d ≤ declareResult m d' ↔
      d &&& descriptionBits ≤ d' &&& descriptionBits := by
  rw [BitVec.le_def, BitVec.le_def, toNat_declareResult, toNat_declareResult]
  omega

/-! ### Faithful codes -/

/-- The code of a declaration can be read back. -/
structure Decodes (m d : BitVec 32) : Prop where
  getModule : getModule (declareResult m d) = m
  getDescription : getDescription (declareResult m d) = d

/-- The code is a success for the module number and the description zero only. -/
def SuccessOnlyForZero (m d : BitVec 32) : Prop :=
  1 ≤ m ∨ 1 ≤ d → declareResult m d ≠ resultSuccess

/-- Two declarations have faithful codes. -/
structure FaithfulCodes (m d m' d' : BitVec 32) : Prop where
  decodes : Decodes m d ∧ Decodes m' d'
  injective : declareResult m d = declareResult m' d' → m = m' ∧ d = d'
  success : SuccessOnlyForZero m d ∧ SuccessOnlyForZero m' d'

/-- No bit of the two numbers is dropped. -/
def KeepsBits (m d : BitVec 32) : Prop :=
  m &&& moduleBits = m ∧ d &&& descriptionBits = d

theorem decodes_iff : Decodes m d ↔ KeepsBits m d := by
  constructor
  · rintro ⟨hm, hd⟩
    rw [getModule_declareResult] at hm
    rw [getDescription_declareResult] at hd
    exact ⟨hm, hd⟩
  · rintro ⟨hm, hd⟩
    exact ⟨(getModule_declareResult m d).trans hm, (getDescription_declareResult m d).trans hd⟩

theorem KeepsBits.successOnlyForZero (h : KeepsBits m d) : SuccessOnlyForZero m d := by
  intro hpositive hsuccess
  have hzero : declareResult m d = declareResult 0 0 := hsuccess
  rw [declareResult_inj_iff, h.1, h.2] at hzero
  obtain ⟨hm, hd⟩ := hzero
  rw [hm, hd] at hpositive
  revert hpositive
  decide

theorem faithfulCodes_iff : FaithfulCodes m d m' d' ↔ KeepsBits m d ∧ KeepsBits m' d' := by
  constructor
  · intro h
    exact ⟨decodes_iff.mp h.decodes.1, decodes_iff.mp h.decodes.2⟩
  · rintro ⟨h, h'⟩
    refine ⟨⟨decodes_iff.mpr h, decodes_iff.mpr h'⟩, ?_, h.successOnlyForZero,
      h'.successOnlyForZero⟩
    intro hcode
    rw [declareResult_inj_iff, h.1, h.2, h'.1, h'.2] at hcode
    exact hcode

/-! ### Ranges -/

/-- The two codes of a range enclose the codes of its descriptions and of no others of the
module. -/
def Brackets (m s e : BitVec 32) : Prop :=
  ∀ d : BitVec 32, d < 0x2000 →
    ((resultRangeStart m s ≤ declareResult m d ∧ declareResult m d ≤ resultRangeEnd m e) ↔
      s ≤ d ∧ d ≤ e)

theorem brackets_iff_masked : Brackets m s e ↔ ∀ n < 8192,
    ((s.toNat &&& 13 ≤ n &&& 13 ∧ n &&& 13 ≤ e.toNat &&& 13) ↔ s.toNat ≤ n ∧ n ≤ e.toNat) := by
  have hmask : ∀ d : BitVec 32, (d &&& descriptionBits).toNat = d.toNat &&& 13 :=
    fun d => BitVec.toNat_and d descriptionBits
  unfold Brackets resultRangeStart resultRangeEnd
  simp only [declareResult_le_iff]
  simp only [BitVec.le_def, BitVec.lt_def, hmask]
  constructor
  · intro h n hn
    have hd := h (BitVec.ofNat 32 n)
    rw [BitVec.toNat_ofNat, Nat.mod_eq_of_lt (by omega)] at hd
    exact hd hn
  · intro h d hd
    exact h d.toNat hd

/-- The masked interval repeats itself, so that only the whole range is one. -/
theorem masked_interval_iff {a b : ℕ} (hab : a ≤ b) (hb : b < 8192) :
    (∀ n < 8192, ((a &&& 13 ≤ n &&& 13 ∧ n &&& 13 ≤ b &&& 13) ↔ a ≤ n ∧ n ≤ b)) ↔
      a = 0 ∧ b = 8191 := by
  constructor
  · intro h
    have hstart := (h a (by omega)).mpr ⟨le_refl a, hab⟩
    -- the kept bits of `a` alone have the same masked value
    have hlow : a ≤ a &&& 13 := by
      refine ((h _ (lt_of_le_of_lt (Nat.and_le_left.trans hab) hb)).mp ?_).1
      rw [Nat.and_assoc, Nat.and_self]
      exact hstart
    have hsmall : a ≤ 13 := hlow.trans Nat.and_le_right
    -- and so has `a` with all the other bits
    have hhigh : a ||| 8178 ≤ b := by
      have hlt : a ||| 8178 < 2 ^ 13 := Nat.or_lt_two_pow (by omega) (by decide)
      refine ((h _ hlt).mp ?_).2
      rw [Nat.and_or_distrib_right, show 8178 &&& 13 = 0 from rfl, Nat.or_zero]
      exact hstart
    have hlarge : 8178 ≤ b := Nat.right_le_or.trans hhigh
    have hsixteen : a &&& 13 ≤ 16 &&& 13 := ((h 16 (by decide)).mpr ⟨by omega, by omega⟩).1
    have hfifteen : 15 &&& 13 ≤ b &&& 13 := ((h 15 (by decide)).mpr ⟨by omega, by omega⟩).2
    have ha : a = 0 := Nat.le_zero.mp (hlow.trans hsixteen)
    refine ⟨ha, le_antisymm (Nat.le_of_lt_succ hb) ?_⟩
    exact ((h 8191 (by decide)).mp ⟨by simp [ha], hfifteen⟩).2
  · rintro ⟨rfl, rfl⟩ n hn
    constructor
    · exact fun _ => ⟨Nat.zero_le n, Nat.le_of_lt_succ hn⟩
    · exact fun _ => ⟨Nat.zero_le _, Nat.and_le_right⟩

theorem brackets_iff (hse : s ≤ e) (he : e < 0x2000) : Brackets m s e ↔ s = 0 ∧ e = 0x1fff := by
  rw [brackets_iff_masked, masked_interval_iff hse he, ← BitVec.toNat_inj, ← BitVec.toNat_inj]
  rfl

/-! ### The declared results -/

/-- Another result of the list has the same code. -/
def Collides (results : List Result) (i : ℕ) : Prop :=
  ∃ j < results.length, j ≠ i ∧ results[j]? = results[i]?

instance (results : List Result) (i : ℕ) : Decidable (Collides results i) :=
  inferInstanceAs (Decidable (∃ j < results.length, j ≠ i ∧ results[j]? = results[i]?))

/-- The codes of two declarations are faithful exactly when no bit of their numbers is dropped,
the codes of a range bracket its descriptions exactly when it is the range of all descriptions,
and every declared error result has the code of another one. -/
theorem declareResult_faithful_iff (hse : s ≤ e) (he : e < 0x2000) :
    (FaithfulCodes m d m' d' ↔ KeepsBits m d ∧ KeepsBits m' d') ∧
      (Brackets m s e ↔ s = 0 ∧ e = 0x1fff) ∧
      (∀ i < ukernErrorResults.length, Collides ukernErrorResults i) ∧
      ∀ i < Res.errorResults.length, Collides Res.errorResults i := by
  refine ⟨faithfulCodes_iff, brackets_iff hse he, ?_, ?_⟩
  · decide
  · decide

theorem declareResult_faithful_one_four :
    FaithfulCodes 1 4 9 12 ∧ Brackets 1 0 0x1fff := by
  have h : (FaithfulCodes 1 4 9 12 ↔ _) ∧ (Brackets 1 0 0x1fff ↔ _) ∧ _ :=
    declareResult_faithful_iff (by decide) (by decide)
  obtain ⟨hcodes, hrange, -⟩ := h
  exact ⟨hcodes.mpr ⟨⟨rfl, rfl⟩, rfl, rfl⟩, hrange.mpr ⟨rfl, rfl⟩⟩

/-- `FileNotFound` is a success. -/
theorem fileNotFound_eq_success :
    Res.resultFileNotFound = resultSuccess ∧ ¬ FaithfulCodes Res.resultModule 2 0 0 := by
  refine ⟨rfl, fun h => ?_⟩
  exact h.success.1 (Or.inl (by decide)) rfl

end DDFramework
