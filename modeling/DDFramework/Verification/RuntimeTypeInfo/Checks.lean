import DDFramework.Model.RuntimeTypeInfo
import Mathlib.Logic.Relation

/-! # Run-time type checks

The loop goes up from the class that asks and stops at the first class that the object is not
of, which is this class or its base class. So the answer is always yes. -/

namespace DDFramework.ClassHierarchy

variable {n : ℕ} {h : ClassHierarchy n} {i : Fin n} {object : RttiObject n}

/-- The class is the other one or derived from it, through any number of steps. -/
def DerivesFrom (h : ClassHierarchy n) : Fin (n + 1) → Fin (n + 1) → Prop :=
  Relation.ReflTransGen fun derived base => h.next derived = some base

@[simp] theorem next_succ (h : ClassHierarchy n) (i : Fin n) :
    h.next i.succ = some (h.baseClass i) := rfl

theorem baseClass_ne_succ (h : ClassHierarchy n) (i : Fin n) : h.baseClass i ≠ i.succ := by
  intro heq
  have hle := h.baseClass_le i
  rw [heq, Fin.val_succ] at hle
  omega

theorem checkLoop_of_ne {target classInfo : RuntimeTypeInfo n} (hne : classInfo ≠ target)
    (fuel : ℕ) : h.checkLoop target (fuel + 1) classInfo = .ok true :=
  if_pos hne

/-- The second comparison ends the loop at the latest. -/
theorem checkRuntimeTypeInfo_eq (h : ClassHierarchy n) (i : Fin n) (object : RttiObject n)
    (fuel : ℕ) : h.checkRuntimeTypeInfo i object (fuel + 2) = .ok true := by
  unfold checkRuntimeTypeInfo
  by_cases heq : getRuntimeTypeInfoStatic i = getRuntimeTypeInfo object
  · have hbase : h.baseClass i ≠ getRuntimeTypeInfo object :=
      heq ▸ h.baseClass_ne_succ i
    have hnext : h.next (getRuntimeTypeInfoStatic i) = some (h.baseClass i) := rfl
    rw [checkLoop, if_neg (not_not.mpr heq), hnext]
    exact checkLoop_of_ne hbase fuel
  · exact checkLoop_of_ne heq (fuel + 1)

/-- The check comes back with the right answer. -/
def ChecksRight (h : ClassHierarchy n) (i : Fin n) (object : RttiObject n) : Prop :=
  ∃ enough answer, (∀ fuel, enough ≤ fuel → h.checkRuntimeTypeInfo i object fuel = .ok answer) ∧
    (answer = true ↔ h.DerivesFrom object.dynamicClass i.succ)

theorem ChecksRight.derivesFrom (hright : h.ChecksRight i object) :
    h.DerivesFrom object.dynamicClass i.succ := by
  obtain ⟨enough, answer, hanswer, hright⟩ := hright
  have htrue := (hanswer (enough + 2) (by omega)).symm.trans
    (h.checkRuntimeTypeInfo_eq i object enough)
  exact hright.mp (Except.ok.inj htrue)

/-- The check is right for the objects of the class and of the classes derived from it, and for
no others. -/
theorem checksRight_iff (h : ClassHierarchy n) (i : Fin n) (object : RttiObject n) :
    h.ChecksRight i object ↔ h.DerivesFrom object.dynamicClass i.succ := by
  constructor
  · exact fun hright => hright.derivesFrom
  · intro hderives
    have htrue : ∀ fuel, 2 ≤ fuel → h.checkRuntimeTypeInfo i object fuel = .ok true := by
      intro fuel hfuel
      obtain ⟨k, rfl⟩ := Nat.exists_eq_add_of_le' hfuel
      exact h.checkRuntimeTypeInfo_eq i object k
    exact ⟨2, true, htrue, by simp [hderives]⟩

/-- Two classes that are derived from the root. -/
def siblings : ClassHierarchy 2 where
  baseClass _ := 0
  baseClass_le _ := Nat.zero_le _

/-- An object of the second class passes for one of the first. -/
theorem siblings_pass :
    siblings.checkRuntimeTypeInfo 0 ⟨2⟩ 2 = .ok true ∧
      ¬ siblings.DerivesFrom 2 (Fin.succ 0) ∧ ¬ siblings.ChecksRight 0 ⟨2⟩ := by
  have hnot : ¬ siblings.DerivesFrom 2 (Fin.succ 0) := by
    intro hderives
    rcases Relation.ReflTransGen.cases_head hderives with heq | ⟨base, hbase, hrest⟩
    · exact absurd heq (by decide)
    · have hroot : base = 0 := (Option.some.inj hbase).symm
      subst hroot
      rcases Relation.ReflTransGen.cases_head hrest with heq | ⟨base, hbase, -⟩
      · exact absurd heq (by decide)
      · cases hbase
  exact ⟨rfl, hnot, fun hright => hnot hright.derivesFrom⟩

end DDFramework.ClassHierarchy
