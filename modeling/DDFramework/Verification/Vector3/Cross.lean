import DDFramework.Model.Vector3
import Mathlib.Tactic.Ring

/-! # The cross product of integer vectors

`pmuld` subtracts, so `Cross` computes differences where the cross product has products. -/

namespace DDFramework.Vector3Type

open Sse4

/-- The cross product modulo `2 ^ 32`. -/
def crossProduct (a b : Vector3Type) : Vector3Type :=
  ⟨a.y * b.z - a.z * b.y, a.z * b.x - a.x * b.z, a.x * b.y - a.y * b.x⟩

def ones : Vector3Type := ⟨1, 1, 1⟩

@[simp] theorem add_def (a b : Vector3Type) : a + b = ⟨a.x + b.x, a.y + b.y, a.z + b.z⟩ := rfl

@[simp] theorem sub_def (a b : Vector3Type) : a - b = ⟨a.x - b.x, a.y - b.y, a.z - b.z⟩ := rfl

/-- The loop and the instruction do the same. -/
theorem pshufd_apply (isConstantEvaluated : Bool) (a : V4si) (shuffleMask : BitVec 32)
    (i : Fin 4) : pshufd isConstantEvaluated a shuffleMask i = a (shuffleIndex shuffleMask i) := by
  cases isConstantEvaluated with
  | false => rfl
  | true =>
      match i with
      | 0 | 1 | 2 | 3 => rfl

/-- What `Cross` computes in each component. -/
theorem crossBody_eq (isConstantEvaluated : Bool) (a b : Vector3Type) :
    crossBody isConstantEvaluated a b =
      ⟨a.y - b.z - (a.z - b.y), a.z - b.x - (a.x - b.z), a.x - b.y - (a.y - b.x)⟩ := by
  simp only [crossBody, ofVectorType, psubd, pmuld, pshufd_apply]
  rfl

/-- `(p + 1) * (q - 1)` is `p * q - (p - q) - 1`, so the products after the shift differ by what
separates the difference of products from the difference of differences. -/
theorem component_eq_iff (p q r s : BitVec 32) :
    p - q - (r - s) = p * q - r * s ↔ (p + 1) * (q - 1) - (r + 1) * (s - 1) = 0 := by
  have hdifference :
      (p + 1) * (q - 1) - (r + 1) * (s - 1) = p * q - r * s - (p - q - (r - s)) := by ring
  rw [hdifference, sub_eq_zero]
  exact eq_comm

/-- `Cross` is right exactly when `a + (1, 1, 1)` and `b - (1, 1, 1)` have the cross product
zero. -/
theorem cross_eq_crossProduct_iff (isConstantEvaluated : Bool) (a b : Vector3Type) :
    (cross isConstantEvaluated a b = crossProduct a b ↔
      crossProduct (a + ones) (b - ones) = ⟨0, 0, 0⟩) ∧
    (crossConst isConstantEvaluated a b = crossProduct a b ↔
      crossProduct (a + ones) (b - ones) = ⟨0, 0, 0⟩) := by
  have hbody : crossBody isConstantEvaluated a b = crossProduct a b ↔
      crossProduct (a + ones) (b - ones) = ⟨0, 0, 0⟩ := by
    simp only [crossBody_eq, crossProduct, add_def, sub_def, ones, mk.injEq, component_eq_iff]
  exact ⟨hbody, hbody⟩

/-- The cross product of the first two unit vectors is the third one. -/
theorem cross_of_units :
    cross false ⟨1, 0, 0⟩ ⟨0, 1, 0⟩ = ⟨1, -1, 0⟩ ∧
      crossProduct ⟨1, 0, 0⟩ ⟨0, 1, 0⟩ = ⟨0, 0, 1⟩ := by
  decide

end DDFramework.Vector3Type
