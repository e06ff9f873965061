import Mathlib.Data.BitVec
import Mathlib.Data.Fin.VecNotation
import Mathlib.Data.List.FinRange

/-! The cross product of integer vectors from `util_vector3.hpp`, with the packed operations of
`util_int128.sse4.hpp` that it calls. The components are 32-bit words, signed or unsigned. -/

namespace DDFramework

/-- A `v4si`, which is also a `v4ui` of the same bits. -/
abbrev V4si := Fin 4 → BitVec 32

namespace Sse4

/-! What stands after the `return` in the first line of `psubd` and `pmuld` is not reached. -/

def psubd (a b : V4si) : V4si := fun i => a i - b i

/-- `return a.si - b.si;` -/
def pmuld (a b : V4si) : V4si := fun i => a i - b i

/-- The results of the four calls of `Clamp` are not used. -/
def shuffleToOrder (x y z w : BitVec 32) : BitVec 32 :=
  (x ||| (y <<< 2) ||| (z <<< 4) ||| (w <<< 6)) &&& 255

/-- The lane of the source for the lane `i` of the result. -/
def shuffleIndex (shuffleMask : BitVec 32) (i : Fin 4) : Fin 4 :=
  Fin.ofNat 4 ((shuffleMask >>> (i.val + i.val)) &&& 3).toNat

/-- The loop that writes one lane after the other, and the instruction. -/
def pshufd (isConstantEvaluated : Bool) (a : V4si) (shuffleMask : BitVec 32) : V4si :=
  if isConstantEvaluated then
    (List.finRange 4).foldl
      (fun temp i => Function.update temp i (a (shuffleIndex shuffleMask i))) (fun _ => 0)
  else fun i => a (shuffleIndex shuffleMask i)

end Sse4

structure Vector3Type where
  x : BitVec 32
  y : BitVec 32
  z : BitVec 32
  deriving DecidableEq, Repr

namespace Vector3Type

open Sse4

def getVectorType (v : Vector3Type) : V4si := ![v.x, v.y, v.z, 0]

/-- The constructor from a `v3`. -/
def ofVectorType (copy : V4si) : Vector3Type := ⟨copy 0, copy 1, copy 2⟩

/-- `operator+`. -/
instance : Add Vector3Type where
  add v rhs := ofVectorType fun i => v.getVectorType i + rhs.getVectorType i

/-- `operator-`. -/
instance : Sub Vector3Type where
  sub v rhs := ofVectorType fun i => v.getVectorType i - rhs.getVectorType i

/-- The body that the two overloads share. -/
def crossBody (isConstantEvaluated : Bool) (this rhs : Vector3Type) : Vector3Type :=
  let a := pshufd isConstantEvaluated this.getVectorType (shuffleToOrder 1 2 0 3)
  let b := pshufd isConstantEvaluated rhs.getVectorType (shuffleToOrder 2 0 1 3)
  let c := pmuld a rhs.getVectorType
  let d := pmuld a b
  let e := pshufd isConstantEvaluated c (shuffleToOrder 1 2 0 3)
  ofVectorType (psubd d e)

def cross (isConstantEvaluated : Bool) (this rhs : Vector3Type) : Vector3Type :=
  crossBody isConstantEvaluated this rhs

/-- The `const` overload. -/
def crossConst (isConstantEvaluated : Bool) (this rhs : Vector3Type) : Vector3Type :=
  crossBody isConstantEvaluated this rhs

end Vector3Type

end DDFramework
