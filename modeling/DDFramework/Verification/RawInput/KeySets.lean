import DDFramework.Model.RawInput
import Mathlib.Data.Fin.VecNotation

/-! # Key states as sets of key codes

The mask of a key comes from a shift of `int`. It covers the one bit of the key up to 30, all
bits from 31 on at 31, and the language leaves it open from 32 on. -/

namespace DDFramework.KeyState

/-- What the language says about `1 << n`. -/
def LawfulShift (shiftLeft : ℕ → BitVec 32) : Prop :=
  ∀ n < 32, shiftLeft n = 1#32 <<< n

/-- The word that holds the bit of a key. -/
def word (s : KeyState) (k : BitVec 8) : BitVec 64 := s.stateArray (index k)

/-- `GetKeyState k` sees `s` as a set: after adding and after removing `j`, in the union and
the intersection with `t`, and in the complement. -/
structure ActsAsSet (shiftLeft : ℕ → BitVec 32) (s t : KeyState) (j k : BitVec 8) : Prop where
  set : (s.setKeyState shiftLeft j).getKeyState shiftLeft k =
    (decide (k = j) || s.getKeyState shiftLeft k)
  clear : (s.clearKeyState shiftLeft j).getKeyState shiftLeft k =
    (decide (k ≠ j) && s.getKeyState shiftLeft k)
  or : (s ||| t).getKeyState shiftLeft k =
    (s.getKeyState shiftLeft k || t.getKeyState shiftLeft k)
  and : (s &&& t).getKeyState shiftLeft k =
    (s.getKeyState shiftLeft k && t.getKeyState shiftLeft k)
  not : (~~~s).getKeyState shiftLeft k = !s.getKeyState shiftLeft k

/-- The bits that the mask of a key with position below 32 covers. -/
def Marks (k : BitVec 8) (i : ℕ) : Prop :=
  i < 64 ∧ (i = k.toNat % 64 ∨ k.toNat % 64 = 31 ∧ 31 < i)

/-- The bits that the mask of `k` covers agree. -/
def Uniform (s : KeyState) (k : BitVec 8) : Prop :=
  ∀ i, Marks k i → (s.word k).getLsbD i = (s.word k).getLsbD (k.toNat % 64)

/-! ### Words and masks -/

theorem index_val (k : BitVec 8) : (index k).val = k.toNat / 64 := by
  simp [index, Nat.shiftRight_eq_div_pow]

theorem eq_of_index {j k : BitVec 8} (hindex : index j = index k)
    (hposition : j.toNat % 64 = k.toNat % 64) : j = k := by
  have hvalue := congrArg Fin.val hindex
  rw [index_val, index_val] at hvalue
  apply BitVec.eq_of_toNat_eq
  omega

@[simp] theorem word_or (s t : KeyState) (k : BitVec 8) :
    (s ||| t).word k = s.word k ||| t.word k := rfl

@[simp] theorem word_and (s t : KeyState) (k : BitVec 8) :
    (s &&& t).word k = s.word k &&& t.word k := rfl

@[simp] theorem word_not (s : KeyState) (k : BitVec 8) : (~~~s).word k = ~~~s.word k := rfl

variable {shiftLeft : ℕ → BitVec 32} {s t : KeyState} {j k : BitVec 8}

theorem word_setKeyState : (s.setKeyState shiftLeft j).word k =
    if index k = index j then s.word k ||| keyPos shiftLeft j else s.word k := by
  simp only [word, setKeyState, Function.update_apply]
  split
  · next h => rw [h]
  · rfl

theorem word_clearKeyState : (s.clearKeyState shiftLeft j).word k =
    if index k = index j then s.word k &&& ~~~keyPos shiftLeft j else s.word k := by
  simp only [word, clearKeyState, Function.update_apply]
  split
  · next h => rw [h]
  · rfl

theorem getKeyState_iff_word :
    s.getKeyState shiftLeft k = true ↔
      s.word k &&& keyPos shiftLeft k = keyPos shiftLeft k := by
  simp [getKeyState, word]

theorem marks_position : Marks k (k.toNat % 64) := ⟨by omega, .inl rfl⟩

/-- Keys of one word have masks without a common bit. -/
theorem not_marks_of_ne (hk : k.toNat % 64 < 32) (hj : j.toNat % 64 < 32) (hne : k ≠ j)
    (hindex : index k = index j) {i : ℕ} (hi : Marks k i) : ¬ Marks j i := by
  intro hi'
  have hposition : k.toNat % 64 ≠ j.toNat % 64 := fun h => hne (eq_of_index hindex h)
  obtain ⟨-, hi⟩ := hi
  obtain ⟨-, hi'⟩ := hi'
  omega

section Lawful

variable (hshift : LawfulShift shiftLeft)
include hshift

theorem getLsbD_keyPos (hk : k.toNat % 64 < 32) (i : ℕ) :
    (keyPos shiftLeft k).getLsbD i = true ↔ Marks k i := by
  have hposition : (k % 64).toNat = k.toNat % 64 := by simp
  unfold keyPos Marks
  rw [hposition, hshift _ hk, BitVec.getLsbD_signExtend]
  simp
  grind

/-- A key is in the set exactly if all bits under its mask are set. -/
theorem getKeyState_iff (hk : k.toNat % 64 < 32) :
    s.getKeyState shiftLeft k = true ↔ ∀ i, Marks k i → (s.word k).getLsbD i = true := by
  rw [getKeyState_iff_word]
  constructor
  · intro h i hi
    have hbit := (getLsbD_keyPos hshift hk i).mpr hi
    rw [← h, BitVec.getLsbD_and, Bool.and_eq_true] at hbit
    exact hbit.1
  · intro h
    refine BitVec.eq_of_getLsbD_eq fun i _ => ?_
    rw [BitVec.getLsbD_and]
    cases hbit : (keyPos shiftLeft k).getLsbD i with
    | false => simp
    | true => simp [h i ((getLsbD_keyPos hshift hk i).mp hbit)]

theorem getKeyState_of_uniform (hk : k.toNat % 64 < 32) (h : s.Uniform k) :
    s.getKeyState shiftLeft k = (s.word k).getLsbD (k.toNat % 64) := by
  rw [Bool.eq_iff_iff, getKeyState_iff hshift hk]
  constructor
  · exact fun hall => hall _ marks_position
  · exact fun hbit i hi => (h i hi).trans hbit

/-! ### The operations of a key with a mask -/

variable (hk : k.toNat % 64 < 32)
include hk

theorem getKeyState_and : (s &&& t).getKeyState shiftLeft k =
    (s.getKeyState shiftLeft k && t.getKeyState shiftLeft k) := by
  rw [Bool.eq_iff_iff, Bool.and_eq_true]
  simp only [getKeyState_iff hshift hk, word_and, BitVec.getLsbD_and, Bool.and_eq_true]
  exact forall₂_and

theorem getKeyState_or (huniform : s.Uniform k) : (s ||| t).getKeyState shiftLeft k =
    (s.getKeyState shiftLeft k || t.getKeyState shiftLeft k) := by
  rw [Bool.eq_iff_iff, Bool.or_eq_true, getKeyState_of_uniform hshift hk huniform]
  simp only [getKeyState_iff hshift hk, word_or, BitVec.getLsbD_or, Bool.or_eq_true]
  constructor
  · intro h
    by_cases hbit : (s.word k).getLsbD (k.toNat % 64) = true
    · exact .inl hbit
    · refine .inr fun i hi => (h i hi).resolve_left fun hs => hbit ?_
      rw [← huniform i hi, hs]
  · rintro (hbit | ht) i hi
    · exact .inl ((huniform i hi).trans hbit)
    · exact .inr (ht i hi)

/-- The complement is right exactly if the bits under the mask agree. -/
theorem getKeyState_not_iff :
    (~~~s).getKeyState shiftLeft k = !s.getKeyState shiftLeft k ↔ s.Uniform k := by
  have hnot : ∀ i, Marks k i → (~~~s.word k).getLsbD i = !(s.word k).getLsbD i := by
    intro i hi
    rw [BitVec.getLsbD_not, decide_eq_true hi.1, Bool.true_and]
  constructor
  · intro h i hi
    cases hs : s.getKeyState shiftLeft k with
    | true =>
        have hset := (getKeyState_iff hshift hk).mp hs
        rw [hset i hi, hset _ marks_position]
    | false =>
        rw [hs, Bool.not_false, getKeyState_iff hshift hk] at h
        have hclear : ∀ i, Marks k i → (s.word k).getLsbD i = false := by
          intro i hi
          simpa [hnot i hi] using h i hi
        rw [hclear i hi, hclear _ marks_position]
  · intro huniform
    have huniform' : (~~~s).Uniform k := by
      intro i hi
      rw [word_not, hnot i hi, hnot _ marks_position, huniform i hi]
    rw [getKeyState_of_uniform hshift hk huniform, getKeyState_of_uniform hshift hk huniform',
      word_not, hnot _ marks_position]

/-- Under the mask of `k` the mask of a key in the same word has all bits or none. -/
theorem getLsbD_keyPos_of_marks (hj : j.toNat % 64 < 32) (hindex : index k = index j) {i : ℕ}
    (hi : Marks k i) : (keyPos shiftLeft j).getLsbD i = decide (k = j) := by
  rw [Bool.eq_iff_iff, getLsbD_keyPos hshift hj, decide_eq_true_iff]
  constructor
  · intro hi'
    by_contra hne
    exact not_marks_of_ne hk hj hne hindex hi hi'
  · intro heq
    exact heq ▸ hi

theorem getLsbD_word_setKeyState (hj : j.toNat % 64 < 32 ∨ index j ≠ index k) {i : ℕ}
    (hi : Marks k i) : ((s.setKeyState shiftLeft j).word k).getLsbD i =
      (decide (k = j) || (s.word k).getLsbD i) := by
  by_cases hindex : index k = index j
  · have hj := hj.resolve_right (not_not_intro hindex.symm)
    rw [word_setKeyState, if_pos hindex, BitVec.getLsbD_or,
      getLsbD_keyPos_of_marks hshift hk hj hindex hi, Bool.or_comm]
  · have hne : k ≠ j := fun h => hindex (h ▸ rfl)
    rw [word_setKeyState, if_neg hindex, decide_eq_false hne, Bool.false_or]

theorem getLsbD_word_clearKeyState (hj : j.toNat % 64 < 32 ∨ index j ≠ index k) {i : ℕ}
    (hi : Marks k i) : ((s.clearKeyState shiftLeft j).word k).getLsbD i =
      (decide (k ≠ j) && (s.word k).getLsbD i) := by
  by_cases hindex : index k = index j
  · have hj := hj.resolve_right (not_not_intro hindex.symm)
    rw [word_clearKeyState, if_pos hindex, BitVec.getLsbD_and, BitVec.getLsbD_not,
      decide_eq_true hi.1, Bool.true_and, getLsbD_keyPos_of_marks hshift hk hj hindex hi,
      Bool.and_comm, decide_not]
  · have hne : k ≠ j := fun h => hindex (h ▸ rfl)
    rw [word_clearKeyState, if_neg hindex, decide_eq_true hne, Bool.true_and]

/-- Adding a key with a mask changes no other key of the state. -/
theorem getKeyState_setKeyState (hj : j.toNat % 64 < 32 ∨ index j ≠ index k) :
    (s.setKeyState shiftLeft j).getKeyState shiftLeft k =
      (decide (k = j) || s.getKeyState shiftLeft k) := by
  have hbits : ∀ i, Marks k i → (((s.setKeyState shiftLeft j).word k).getLsbD i = true ↔
      k = j ∨ (s.word k).getLsbD i = true) := by
    intro i hi
    rw [getLsbD_word_setKeyState hshift hk hj hi, Bool.or_eq_true, decide_eq_true_iff]
  rw [Bool.eq_iff_iff, Bool.or_eq_true, decide_eq_true_iff, getKeyState_iff hshift hk,
    getKeyState_iff hshift hk, forall₂_congr hbits]
  by_cases heq : k = j
  · exact iff_of_true (fun _ _ => .inl heq) (.inl heq)
  · simp only [heq, false_or]

/-- Removing a key with a mask changes no other key of the state. -/
theorem getKeyState_clearKeyState (hj : j.toNat % 64 < 32 ∨ index j ≠ index k) :
    (s.clearKeyState shiftLeft j).getKeyState shiftLeft k =
      (decide (k ≠ j) && s.getKeyState shiftLeft k) := by
  have hbits : ∀ i, Marks k i → (((s.clearKeyState shiftLeft j).word k).getLsbD i = true ↔
      k ≠ j ∧ (s.word k).getLsbD i = true) := by
    intro i hi
    rw [getLsbD_word_clearKeyState hshift hk hj hi, Bool.and_eq_true, decide_eq_true_iff]
  rw [Bool.eq_iff_iff, Bool.and_eq_true, decide_eq_true_iff, getKeyState_iff hshift hk,
    getKeyState_iff hshift hk, forall₂_congr hbits]
  constructor
  · intro h
    exact ⟨(h _ marks_position).1, fun i hi => (h i hi).2⟩
  · intro h i hi
    exact ⟨h.1, h.2 i hi⟩

end Lawful

/-! ### Keys without a mask -/

/-- `1 << n` where the language leaves it open from 32 on. -/
def shiftLeftOr (rest : BitVec 32) (n : ℕ) : BitVec 32 := if n < 32 then 1#32 <<< n else rest

theorem lawfulShift_shiftLeftOr (rest : BitVec 32) : LawfulShift (shiftLeftOr rest) :=
  fun _ hn => if_pos hn

theorem keyPos_shiftLeftOr {rest : BitVec 32} (hk : ¬ k.toNat % 64 < 32) :
    keyPos (shiftLeftOr rest) k = rest.signExtend 64 := by
  have hposition : (k % 64).toNat = k.toNat % 64 := by simp
  rw [keyPos, hposition, shiftLeftOr, if_neg hk]

/-- With an empty mask every key state has the key. -/
theorem not_actsAsSet_zero (hk : ¬ k.toNat % 64 < 32) :
    ¬ ActsAsSet (shiftLeftOr 0) s t j k := by
  have hget : ∀ s : KeyState, s.getKeyState (shiftLeftOr 0) k = true := by
    intro s
    rw [getKeyState_iff_word, keyPos_shiftLeftOr hk]
    simp
  intro h
  have hnot := h.not
  rw [hget, hget] at hnot
  cases hnot

/-- With a full mask `j` overwrites its word. -/
theorem not_actsAsSet_allOnes (hk : k.toNat % 64 < 32) (hj : ¬ j.toNat % 64 < 32)
    (hindex : index j = index k) : ¬ ActsAsSet (shiftLeftOr (BitVec.allOnes 32)) s t j k := by
  have hshift := lawfulShift_shiftLeftOr (BitVec.allOnes 32)
  have hne : k ≠ j := fun h => hj (h ▸ hk)
  have hmask : keyPos (shiftLeftOr (BitVec.allOnes 32)) j = BitVec.allOnes 64 := by
    rw [keyPos_shiftLeftOr hj]
    decide
  intro h
  have hset := h.set
  have hclear := h.clear
  simp only [decide_eq_false hne, decide_eq_true hne, Bool.false_or, Bool.true_and] at hset hclear
  have hfull : (s.setKeyState (shiftLeftOr (BitVec.allOnes 32)) j).getKeyState
      (shiftLeftOr (BitVec.allOnes 32)) k = true := by
    rw [getKeyState_iff hshift hk, word_setKeyState, if_pos hindex.symm, hmask]
    intro i hi
    rw [BitVec.getLsbD_or, BitVec.getLsbD_allOnes, decide_eq_true hi.1, Bool.or_true]
  have hempty : ¬ (s.clearKeyState (shiftLeftOr (BitVec.allOnes 32)) j).getKeyState
      (shiftLeftOr (BitVec.allOnes 32)) k = true := by
    rw [getKeyState_iff hshift hk, word_clearKeyState, if_pos hindex.symm, hmask]
    intro hall
    simpa using hall _ marks_position
  rw [hclear, ← hset] at hempty
  exact hempty hfull

/-- A key state acts as a set for `k` exactly if the position of `k` is below 32, the bits under
its mask agree, and `j` lies in another word or has a position below 32. -/
theorem actsAsSet_iff (s t : KeyState) (j k : BitVec 8) :
    (∀ shiftLeft, LawfulShift shiftLeft → ActsAsSet shiftLeft s t j k) ↔
      k.toNat % 64 < 32 ∧ s.Uniform k ∧ (j.toNat % 64 < 32 ∨ index j ≠ index k) := by
  constructor
  · intro h
    have hk : k.toNat % 64 < 32 := by
      by_contra hk
      exact not_actsAsSet_zero hk (h _ (lawfulShift_shiftLeftOr 0))
    refine ⟨hk, ?_, ?_⟩
    · have hshift := lawfulShift_shiftLeftOr 0
      exact (getKeyState_not_iff hshift hk).mp (h _ hshift).not
    · by_contra hj
      rw [not_or, not_not] at hj
      exact not_actsAsSet_allOnes hk hj.1 hj.2 (h _ (lawfulShift_shiftLeftOr _))
  · rintro ⟨hk, huniform, hj⟩ shiftLeft hshift
    exact {
      set := getKeyState_setKeyState hshift hk hj
      clear := getKeyState_clearKeyState hshift hk hj
      or := getKeyState_or hshift hk huniform
      and := getKeyState_and hshift hk
      not := (getKeyState_not_iff hshift hk).mpr huniform }

/-- Neither a state with the bit 31 alone nor its complement has the key `0x1F`. -/
theorem bit_31_is_not_complemented :
    LawfulShift (fun n => 1#32 <<< (n % 32)) ∧
      ¬ ActsAsSet (fun n => 1#32 <<< (n % 32)) ⟨![0x80000000, 0, 0, 0]⟩ ⟨fun _ => 0⟩ 0 0x1F := by
  constructor
  · intro n hn
    simp only [Nat.mod_eq_of_lt hn]
  · intro h
    exact absurd h.not (by decide)

end DDFramework.KeyState
