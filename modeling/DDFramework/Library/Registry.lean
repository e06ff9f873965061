import Mathlib.Data.List.Nodup
import Mathlib.Data.Nat.Find

/-! # Lists of registered entries

New entries are added at the end of a list, and any entry can be removed. The first entry with a
property is then the one that has been in the list for the longest time. -/

namespace DDFramework.Registry

variable {N : Type*}

inductive Call (N : Type*) where
  | add (entry : N)
  | remove (entry : N)

variable {calls : List (Call N)} {entries : List N} {entry other : N} {i j : ℕ}

/-- The call number `i` added the entry, and none of the later ones removed it. -/
def LiveSince (calls : List (Call N)) (entry : N) (i : ℕ) : Prop :=
  calls[i]? = some (.add entry) ∧ ∀ j, i < j → calls[j]? ≠ some (.remove entry)

/-- The entry has the property, and all live entries with the property were added later. -/
def Earliest (calls : List (Call N)) (P : N → Prop) (entry : N) : Prop :=
  P entry ∧ ∃ i, LiveSince calls entry i ∧ ∀ other j, LiveSince calls other j → P other → i ≤ j

/-! ### One more call -/

theorem getElem?_concat_eq_some {α : Type*} {xs : List α} {x y : α} :
    (xs ++ [x])[i]? = some y ↔ xs[i]? = some y ∨ i = xs.length ∧ y = x := by
  rcases Nat.lt_trichotomy i xs.length with hlt | rfl | hgt
  · simp [List.getElem?_append_left hlt, Nat.ne_of_lt hlt]
  · simp [eq_comm]
  · have hnone : xs[i]? = none := List.getElem?_eq_none (Nat.le_of_lt hgt)
    have hlong : (xs ++ [x])[i]? = none :=
      List.getElem?_eq_none (by simpa using Nat.succ_le_of_lt hgt)
    simp [hnone, hlong, Nat.ne_of_gt hgt]

theorem LiveSince.lt_length (h : LiveSince calls entry i) : i < calls.length :=
  (List.getElem?_eq_some_iff.mp h.1).1

theorem liveSince_concat_add :
    LiveSince (calls ++ [.add entry]) other i ↔
      LiveSince calls other i ∨ i = calls.length ∧ other = entry := by
  have hremoved : ∀ j : ℕ, (calls ++ [.add entry])[j]? = some (Call.remove other) ↔
      calls[j]? = some (Call.remove other) := by
    intro j
    simp [getElem?_concat_eq_some]
  have hlater : ∀ j : ℕ, calls.length < j → calls[j]? ≠ some (Call.remove other) := by
    intro j hj
    simp [List.getElem?_eq_none (Nat.le_of_lt hj)]
  simp only [LiveSince, ne_eq, hremoved, getElem?_concat_eq_some, Call.add.injEq]
  constructor
  · rintro ⟨hadd | hlast, hkept⟩
    · exact Or.inl ⟨hadd, hkept⟩
    · exact Or.inr hlast
  · rintro (⟨hadd, hkept⟩ | ⟨rfl, rfl⟩)
    · exact ⟨Or.inl hadd, hkept⟩
    · exact ⟨Or.inr ⟨rfl, rfl⟩, hlater⟩

theorem liveSince_concat_remove :
    LiveSince (calls ++ [.remove entry]) other i ↔ LiveSince calls other i ∧ other ≠ entry := by
  simp only [LiveSince, ne_eq, getElem?_concat_eq_some, reduceCtorEq, and_false, or_false,
    Call.remove.injEq]
  constructor
  · rintro ⟨hadd, hkept⟩
    have hi : i < calls.length := (List.getElem?_eq_some_iff.mp hadd).1
    refine ⟨⟨hadd, fun j hj hremoved => hkept j hj (Or.inl hremoved)⟩, ?_⟩
    exact fun heq => hkept calls.length hi (Or.inr ⟨rfl, heq⟩)
  · rintro ⟨⟨hadd, hkept⟩, hne⟩
    refine ⟨hadd, fun j hj hremoved => ?_⟩
    rcases hremoved with hold | hlast
    · exact hkept j hj hold
    · exact hne hlast.2

/-! ### The list -/

/-- The list holds the live entries, in the order in which they were added. -/
structure Lists (calls : List (Call N)) (entries : List N) : Prop where
  mem_iff : ∀ entry, entry ∈ entries ↔ ∃ i, LiveSince calls entry i
  ordered : entries.Pairwise fun a b => ∀ i j, LiveSince calls a i → LiveSince calls b j → i < j

theorem Lists.nil : Lists ([] : List (Call N)) [] where
  mem_iff entry := by simp [LiveSince]
  ordered := List.Pairwise.nil

theorem Lists.add (h : Lists calls entries) (hfresh : entry ∉ entries) :
    Lists (calls ++ [.add entry]) (entries ++ [entry]) where
  mem_iff other := by
    simp only [List.mem_append, List.mem_singleton, h.mem_iff, liveSince_concat_add, exists_or]
    simp
  ordered := by
    have hold : ∀ a ∈ entries, ∀ i,
        LiveSince (calls ++ [.add entry]) a i ↔ LiveSince calls a i := by
      intro a ha i
      rw [liveSince_concat_add, or_iff_left]
      exact fun hlast => hfresh (hlast.2 ▸ ha)
    refine List.pairwise_append.mpr ⟨?_, List.pairwise_singleton _ _, ?_⟩
    · refine h.ordered.imp_of_mem fun ha hb hab i j hi hj => ?_
      exact hab i j ((hold _ ha i).mp hi) ((hold _ hb j).mp hj)
    · intro a ha b hb i j hi hj
      rw [List.mem_singleton] at hb
      rw [hold a ha] at hi
      rw [hb, liveSince_concat_add] at hj
      rcases hj with hj | hj
      · exact absurd ((h.mem_iff entry).mpr ⟨j, hj⟩) hfresh
      · exact hj.1 ▸ hi.lt_length

theorem Lists.remove [DecidableEq N] (h : Lists calls entries) (hnodup : entries.Nodup) :
    Lists (calls ++ [.remove entry]) (entries.erase entry) where
  mem_iff other := by
    simp only [hnodup.mem_erase_iff, h.mem_iff, liveSince_concat_remove, exists_and_right]
    exact and_comm
  ordered := by
    refine (h.ordered.sublist List.erase_sublist).imp fun hab i j hi hj => ?_
    exact hab i j (liveSince_concat_remove.mp hi).1 (liveSince_concat_remove.mp hj).1

/-! ### Searches -/

theorem Lists.find?_eq_some_iff (h : Lists calls entries) (p : N → Bool) (entry : N) :
    entries.find? p = some entry ↔ Earliest calls (fun e => p e = true) entry := by
  classical
  constructor
  · intro hfind
    obtain ⟨hp, front, back, hsplit, hfront⟩ := List.find?_eq_some_iff_append.mp hfind
    have hlive : ∃ i, LiveSince calls entry i := (h.mem_iff entry).mp (by simp [hsplit])
    refine ⟨hp, Nat.find hlive, Nat.find_spec hlive, fun other j hj hother => ?_⟩
    have hmem : other ∈ front ++ entry :: back := hsplit ▸ (h.mem_iff other).mpr ⟨j, hj⟩
    rcases List.mem_append.mp hmem with hm | hm
    · exact absurd hother (by simpa using hfront other hm)
    · rcases List.mem_cons.mp hm with rfl | hm
      · exact Nat.find_min' hlive hj
      · have hpair := hsplit ▸ h.ordered
        have hlater := (List.pairwise_cons.mp (List.pairwise_append.mp hpair).2.1).1 other hm
        exact Nat.le_of_lt (hlater _ _ (Nat.find_spec hlive) hj)
  · rintro ⟨hp, i, hi, hmin⟩
    have hmem : entry ∈ entries := (h.mem_iff entry).mpr ⟨i, hi⟩
    obtain ⟨x, hx⟩ := Option.isSome_iff_exists.mp (List.find?_isSome.mpr ⟨entry, hmem, hp⟩)
    obtain ⟨hpx, front, back, hsplit, hfront⟩ := List.find?_eq_some_iff_append.mp hx
    rw [hx, Option.some.injEq]
    rw [hsplit] at hmem
    rcases List.mem_append.mp hmem with hm | hm
    · exact absurd hp (by simpa using hfront entry hm)
    · rcases List.mem_cons.mp hm with heq | hm
      · exact heq.symm
      · obtain ⟨k, hk⟩ := (h.mem_iff x).mp (by simp [hsplit])
        have hpair := hsplit ▸ h.ordered
        have hlater := (List.pairwise_cons.mp (List.pairwise_append.mp hpair).2.1).1 entry hm
        exact absurd (hlater k i hk hi) (Nat.not_lt.mpr (hmin x k hk hpx))

theorem Lists.find?_eq_none_iff (h : Lists calls entries) (p : N → Bool) :
    entries.find? p = none ↔ ∀ entry i, LiveSince calls entry i → p entry = false := by
  rw [List.find?_eq_none]
  constructor
  · intro hnone entry i hi
    exact Bool.eq_false_iff.mpr (hnone entry ((h.mem_iff entry).mpr ⟨i, hi⟩))
  · intro hnone entry hmem
    obtain ⟨i, hi⟩ := (h.mem_iff entry).mp hmem
    exact Bool.eq_false_iff.mp (hnone entry i hi)

end DDFramework.Registry
