import Mathlib.Data.List.Basic

/-! # Scans that go back from an index

Such a scan stops at the last index with a property and gives up at the index 0, which it does
not look at. -/

namespace DDFramework

variable {α : Type*} {P Q : α → Prop} {cs : List α} {n i : ℕ}

/-- The list has an element with the property at the index. -/
def HasAt (P : α → Prop) (cs : List α) (i : ℕ) : Prop := ∃ c ∈ cs[i]?, P c

theorem hasAt_or : HasAt (fun c => P c ∨ Q c) cs i ↔ HasAt P cs i ∨ HasAt Q cs i := by
  simp [HasAt, and_or_left, exists_or]

theorem HasAt.lt (h : HasAt P cs i) : i < cs.length := by
  obtain ⟨c, hc, -⟩ := h
  exact (List.getElem?_eq_some_iff.mp hc).1

theorem forall_mem_take_iff : (∀ c ∈ cs.take n, ¬ P c) ↔ ∀ i < n, ¬ HasAt P cs i := by
  constructor
  · rintro h i hi ⟨c, hc, hP⟩
    rw [← List.getElem?_take_of_lt hi] at hc
    exact h c (List.mem_of_getElem? hc) hP
  · intro h c hc hP
    obtain ⟨i, hi⟩ := List.getElem?_of_mem hc
    have hlt : i < n := by
      have hlength := (List.getElem?_eq_some_iff.mp hi).1
      rw [List.length_take] at hlength
      omega
    rw [List.getElem?_take_of_lt hlt] at hi
    exact h i hlt ⟨c, hi, hP⟩

variable [DecidablePred P] [DecidablePred Q]

instance (cs : List α) (i : ℕ) : Decidable (HasAt P cs i) :=
  match h : cs[i]? with
  | none => .isFalse (by simp [HasAt, h])
  | some c => decidable_of_iff (P c) (by simp [HasAt, h])

/-- The last of the indices from 1 to `n` with the property, or 0. -/
def lastIndex (P : α → Prop) [DecidablePred P] (cs : List α) : ℕ → ℕ
  | 0 => 0
  | n + 1 => if HasAt P cs (n + 1) then n + 1 else lastIndex P cs n

theorem lastIndex_le : lastIndex P cs n ≤ n := by
  induction n with
  | zero => exact Nat.le_refl _
  | succ n ih =>
      rw [lastIndex]
      split
      · exact Nat.le_refl _
      · exact Nat.le_succ_of_le ih

theorem lastIndex_eq_self (h : HasAt P cs n) : lastIndex P cs n = n := by
  cases n with
  | zero => rfl
  | succ n => rw [lastIndex, if_pos h]

theorem hasAt_lastIndex (h : lastIndex P cs n ≠ 0) : HasAt P cs (lastIndex P cs n) := by
  induction n with
  | zero => exact (h rfl).elim
  | succ n ih =>
      rw [lastIndex] at h ⊢
      split
      · assumption
      · rename_i hnot
        rw [if_neg hnot] at h
        exact ih h

theorem not_hasAt_of_lastIndex_lt (hi : lastIndex P cs n < i) (hn : i ≤ n) : ¬ HasAt P cs i := by
  induction n with
  | zero =>
      have hpos : 0 < i := hi
      omega
  | succ n ih =>
      rw [lastIndex] at hi
      split at hi
      · omega
      · rename_i hnot
        rcases Nat.eq_or_lt_of_le hn with rfl | hlt
        · exact hnot
        · exact ih hi (Nat.le_of_lt_succ hlt)

theorem lastIndex_eq_zero_iff : lastIndex P cs n = 0 ↔ ∀ i, 0 < i → i ≤ n → ¬ HasAt P cs i := by
  constructor
  · intro h i hi hn
    exact not_hasAt_of_lastIndex_lt (h ▸ hi) hn
  · intro h
    by_contra hne
    exact h _ (Nat.pos_of_ne_zero hne) lastIndex_le (hasAt_lastIndex hne)

/-- The later of two scans is a scan for either property. -/
theorem lastIndex_or : lastIndex (fun c => P c ∨ Q c) cs n =
    max (lastIndex P cs n) (lastIndex Q cs n) := by
  induction n with
  | zero => rfl
  | succ n ih =>
      have hP : lastIndex P cs n ≤ n := lastIndex_le
      have hQ : lastIndex Q cs n ≤ n := lastIndex_le
      simp only [lastIndex, hasAt_or]
      by_cases hp : HasAt P cs (n + 1)
      · by_cases hq : HasAt Q cs (n + 1)
        · simp [hp, hq]
        · simp only [hp, hq, true_or, if_true, if_false]
          omega
      · by_cases hq : HasAt Q cs (n + 1)
        · simp only [hp, hq, or_true, if_true, if_false]
          omega
        · simp only [hp, hq, or_false, if_false]
          exact ih

theorem lastIndex_congr {ds : List α}
    (h : ∀ i, 0 < i → i ≤ n → (HasAt P cs i ↔ HasAt P ds i)) :
    lastIndex P cs n = lastIndex P ds n := by
  induction n with
  | zero => rfl
  | succ n ih =>
      simp only [lastIndex, h (n + 1) (Nat.succ_pos n) (Nat.le_refl _),
        ih fun i hi hn => h i hi (Nat.le_succ_of_le hn)]

/-- An element after the list that has not the property does not count. -/
theorem lastIndex_append_cons {c : α} {rest : List α} (hc : ¬ P c) (hn : n ≤ cs.length) :
    lastIndex P (cs ++ c :: rest) n = lastIndex P cs n := by
  refine lastIndex_congr fun i _ hi => ?_
  rcases Nat.eq_or_lt_of_le (Nat.le_trans hi hn) with rfl | hlt
  · simp [HasAt, hc]
  · simp [HasAt, List.getElem?_append_left hlt]

/-- An element with the property is the last one if none follows it. -/
theorem lastIndex_append_cons_of_forall {front back : List α} {c : α} (hc : P c)
    (hback : ∀ x ∈ back, ¬ P x) :
    lastIndex P (front ++ c :: back) (front ++ c :: back).length = front.length := by
  have hat : HasAt P (front ++ c :: back) front.length := ⟨c, by simp, hc⟩
  rcases Nat.lt_trichotomy (lastIndex P (front ++ c :: back) (front ++ c :: back).length)
    front.length with h | h | h
  · exact (not_hasAt_of_lastIndex_lt h (by simp) hat).elim
  · exact h
  · obtain ⟨x, hx, hPx⟩ := hasAt_lastIndex (Nat.ne_of_gt (Nat.zero_lt_of_lt h))
    obtain ⟨k, hk⟩ := Nat.exists_eq_add_of_lt h
    rw [hk, List.getElem?_append_right (by omega), Nat.add_assoc, Nat.add_sub_cancel_left,
      List.getElem?_cons_succ] at hx
    exact (hback x (List.mem_of_getElem? hx) hPx).elim

/-! ### Cuts -/

/-- The list is cut at its last index from 1 on with the property, or at 0 if there is none. -/
structure CutAt (P : α → Prop) (cs : List α) (i : ℕ) : Prop where
  found : i = 0 ∨ HasAt P cs i
  last : ∀ j, i < j → ¬ HasAt P cs j

theorem lastIndex_cutAt (hn : cs.length ≤ n + 1) : CutAt P cs (lastIndex P cs n) where
  found := (Nat.eq_zero_or_pos _).imp id fun h => hasAt_lastIndex (Nat.ne_of_gt h)
  last j hj h := by
    have hlt := h.lt
    exact not_hasAt_of_lastIndex_lt hj (by omega) h

/-! ### Replacements -/

/-- The element that takes the place of another. -/
def replaceIf (P : α → Prop) [DecidablePred P] (a c : α) : α := if P c then a else c

/-- The list with `a` for each element with the property at an index from 1 to `n`. -/
def replaceTo (P : α → Prop) [DecidablePred P] (a : α) (cs : List α) (n : ℕ) : List α :=
  cs.mapIdx fun i c => if 0 < i ∧ i ≤ n then replaceIf P a c else c

variable {a : α}

theorem replaceIf_replaceIf (c : α) : replaceIf P a (replaceIf P a c) = replaceIf P a c := by
  by_cases hc : P c
  · simp [replaceIf, hc]
  · simp [replaceIf, hc]

@[simp] theorem length_replaceTo : (replaceTo P a cs n).length = cs.length := List.length_mapIdx

@[simp] theorem getElem?_replaceTo : (replaceTo P a cs n)[i]? =
    cs[i]?.map fun c => if 0 < i ∧ i ≤ n then replaceIf P a c else c := List.getElem?_mapIdx

theorem replaceTo_zero : replaceTo P a cs 0 = cs := by
  refine List.ext_getElem? fun i => ?_
  have hi : ¬ (0 < i ∧ i ≤ 0) := by omega
  simp only [getElem?_replaceTo, if_neg hi, Option.map_id']

theorem replaceTo_replaceTo : replaceTo P a (replaceTo P a cs n) n = replaceTo P a cs n := by
  refine List.ext_getElem? fun i => ?_
  rw [getElem?_replaceTo, getElem?_replaceTo, Option.map_map]
  congr 1
  funext c
  by_cases hi : 0 < i ∧ i ≤ n
  · simp [hi, replaceIf_replaceIf]
  · simp [hi]

/-- An element without the property is left out at the end. -/
theorem replaceTo_succ_of_not (h : ¬ HasAt P cs (n + 1)) :
    replaceTo P a cs (n + 1) = replaceTo P a cs n := by
  refine List.ext_getElem? fun i => ?_
  rw [getElem?_replaceTo, getElem?_replaceTo]
  rcases Nat.lt_trichotomy i (n + 1) with hi | rfl | hi
  · have hle : i ≤ n := Nat.le_of_lt_succ hi
    simp [hle, Nat.le_of_lt hi]
  · refine Option.map_congr fun c hc => ?_
    have hP : ¬ P c := fun hP => h ⟨c, hc, hP⟩
    simp [replaceIf, hP]
  · simp [Nat.not_le_of_gt hi, Nat.not_le_of_gt (Nat.lt_of_succ_lt hi)]

/-- An element with the property is replaced before those in front of it. -/
theorem replaceTo_set (h : HasAt P cs (n + 1)) :
    replaceTo P a (cs.set (n + 1) a) n = replaceTo P a cs (n + 1) := by
  refine List.ext_getElem? fun i => ?_
  rw [getElem?_replaceTo, getElem?_replaceTo]
  rcases Nat.lt_trichotomy i (n + 1) with hi | rfl | hi
  · have hle : i ≤ n := Nat.le_of_lt_succ hi
    simp [hle, Nat.le_of_lt hi, List.getElem?_set_ne (Nat.ne_of_gt hi)]
  · rw [List.getElem?_set_self h.lt]
    obtain ⟨c, hc, hP⟩ := h
    rw [Option.mem_def.mp hc]
    simp [replaceIf, hP]
  · simp [Nat.not_le_of_gt hi, Nat.not_le_of_gt (Nat.lt_of_succ_lt hi),
      List.getElem?_set_ne (Nat.ne_of_lt hi)]

/-- Nothing is to be replaced after the last index. -/
theorem replaceTo_lastIndex : replaceTo P a cs (lastIndex P cs n) = replaceTo P a cs n := by
  induction n with
  | zero => rfl
  | succ n ih =>
      rw [lastIndex]
      split
      · rfl
      · rw [ih, replaceTo_succ_of_not ‹_›]

theorem mapIdx_lt_eq_append (f : α → α) : (cs.mapIdx fun i c => if i < n then f c else c) =
    (cs.take n).map f ++ cs.drop n := by
  induction cs generalizing n with
  | nil => simp
  | cons c cs ih =>
      cases n with
      | zero =>
          refine List.ext_getElem? fun i => ?_
          simp only [Nat.not_lt_zero, if_false, List.getElem?_mapIdx, Option.map_id']
          rfl
      | succ n => simp [List.mapIdx_cons, ih]

/-- The first element is kept, and the `n` elements after it are replaced. -/
theorem replaceTo_cons (c : α) : replaceTo P a (c :: cs) n =
    c :: ((cs.take n).map (replaceIf P a) ++ cs.drop n) := by
  have hbound : ∀ i, 0 < i + 1 ∧ i + 1 ≤ n ↔ i < n := by omega
  simp only [replaceTo, List.mapIdx_cons, hbound, mapIdx_lt_eq_append, Nat.lt_irrefl, false_and,
    if_false]

/-- The list with `a` for each element with the property but the first. -/
def replaceTail (P : α → Prop) [DecidablePred P] (a : α) : List α → List α
  | [] => []
  | c :: cs => c :: cs.map (replaceIf P a)

theorem length_replaceTail : (replaceTail P a cs).length = cs.length := by
  cases cs with
  | nil => rfl
  | cons c cs => simp [replaceTail]

theorem replaceTail_eq_map_iff : replaceTail P a cs = cs.map (replaceIf P a) ↔
    ∀ c ∈ cs.head?, P c → c = a := by
  cases cs with
  | nil => simp [replaceTail]
  | cons c cs => simp [replaceTail, replaceIf, eq_comm]

/-- The replacements up to the end of a text keep what follows it. -/
theorem replaceTo_append_cons {text rest : List α} {c : α} (hc : ¬ P c) :
    replaceTo P a (text ++ c :: rest) text.length = replaceTail P a text ++ c :: rest := by
  cases text with
  | nil => exact replaceTo_zero
  | cons x text =>
      rw [List.cons_append, replaceTo_cons, List.length_cons, List.take_length_add_append,
        List.drop_length_add_append]
      simp [replaceTail, replaceIf, hc]

end DDFramework
