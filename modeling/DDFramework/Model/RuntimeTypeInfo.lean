import DDFramework.Model.Result
import Mathlib.Data.Fin.Basic

/-! The run-time type checks of `util_runtimetypeinfo.hpp`. Every class has one `RuntimeTypeInfo`
object, and a pointer to it is the number of the class. -/

namespace DDFramework

/-- The class 0 is declared with `RTTI_BASE`, and the class after `i` with `RTTI_DERIVED` and a
base class that has been declared before. -/
structure ClassHierarchy (derivedCount : ℕ) where
  baseClass : Fin derivedCount → Fin (derivedCount + 1)
  baseClass_le : ∀ i, (baseClass i).val ≤ i.val

/-- The address of a `RuntimeTypeInfo`. -/
abbrev RuntimeTypeInfo (derivedCount : ℕ) := Fin (derivedCount + 1)

/-- An object, as far as `GetRuntimeTypeInfo` goes. -/
structure RttiObject (derivedCount : ℕ) where
  dynamicClass : Fin (derivedCount + 1)

namespace ClassHierarchy

variable {n : ℕ}

/-- `m_next`, which is null in the information of the root class. -/
def next (h : ClassHierarchy n) : RuntimeTypeInfo n → Option (RuntimeTypeInfo n) :=
  Fin.cases none fun i => some (h.baseClass i)

/-- The virtual function, which every class overrides. -/
def getRuntimeTypeInfo (object : RttiObject n) : RuntimeTypeInfo n := object.dynamicClass

/-- The function of the class that is declared as the derived class `i`. -/
def getRuntimeTypeInfoStatic (i : Fin n) : RuntimeTypeInfo n := i.succ

/-- The `do` loop. After it `class_info` is null, and no `target` is. -/
def checkLoop (h : ClassHierarchy n) (target : RuntimeTypeInfo n) :
    ℕ → RuntimeTypeInfo n → Except Fault Bool
  | 0, _ => .error .outOfFuel
  | fuel + 1, classInfo =>
    if classInfo ≠ target then .ok true
    else
      match h.next classInfo with
      | none => .ok false
      | some classInfo => checkLoop h target fuel classInfo

/-- The function of the derived class `i`; `RTTI_BASE` declares none. -/
def checkRuntimeTypeInfo (h : ClassHierarchy n) (i : Fin n) (otherObj : RttiObject n)
    (fuel : ℕ) : Except Fault Bool :=
  let target := getRuntimeTypeInfo otherObj
  let classInfo := getRuntimeTypeInfoStatic i
  h.checkLoop target fuel classInfo

end ClassHierarchy

end DDFramework
