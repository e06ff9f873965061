import DDFramework.Model.Result
import Mathlib.Logic.Function.Basic
import Mathlib.Tactic.Simps.Basic

/-! The tree nodes of `util_intrusivetreenode.hpp`: the four links of every node. The first
child refers to the last one through `m_sibling_prev`. -/

namespace DDFramework

/-- The links of the nodes. -/
structure TreeLinks (ν : Type*) where
  parent : ν → Option ν
  child : ν → Option ν
  siblingNext : ν → Option ν
  siblingPrev : ν → Option ν

namespace TreeLinks

variable {ν : Type*}

/-- Every node as its constructor leaves it. -/
def constructed (ν : Type*) : TreeLinks ν :=
  ⟨fun _ => none, fun _ => none, fun _ => none, fun _ => none⟩

/-- `while (end->m_sibling_next != nullptr) { end = end->m_sibling_next; }` -/
def siblingListEnd (L : TreeLinks ν) : ℕ → ν → Except Fault ν
  | 0, _ => .error .outOfFuel
  | fuel + 1, x =>
    match L.siblingNext x with
    | none => .ok x
    | some y => L.siblingListEnd fuel y

def findRoot (L : TreeLinks ν) : ℕ → ν → Except Fault ν
  | 0, _ => .error .outOfFuel
  | fuel + 1, x =>
    match L.parent x with
    | none => .ok x
    | some p => L.findRoot fuel p

variable [DecidableEq ν]

@[simps -fullyApplied] def setParent (L : TreeLinks ν) (x : ν) (p : Option ν) : TreeLinks ν :=
  { L with parent := Function.update L.parent x p }

@[simps -fullyApplied] def setChild (L : TreeLinks ν) (x : ν) (c : Option ν) : TreeLinks ν :=
  { L with child := Function.update L.child x c }

@[simps -fullyApplied] def setSiblingNext (L : TreeLinks ν) (x : ν) (y : Option ν) : TreeLinks ν :=
  { L with siblingNext := Function.update L.siblingNext x y }

@[simps -fullyApplied] def setSiblingPrev (L : TreeLinks ν) (x : ν) (y : Option ν) : TreeLinks ν :=
  { L with siblingPrev := Function.update L.siblingPrev x y }

/-- A pointer that is dereferenced. -/
def deref : Option ν → Except Fault ν
  | some x => .ok x
  | none => .error .nullDereference

/-! ### `DetachSubTree` -/

/-- The branch for a node that is not the first child. -/
def detachOther (L : TreeLinks ν) (this : ν) : Except Fault (TreeLinks ν) :=
  let L := match L.siblingPrev this with
    | some prev => L.setSiblingNext prev (L.siblingNext this)
    | none => L
  match L.siblingNext this with
  | none =>
    match L.parent this with
    | some p => do
      let first ← deref (L.child p)
      .ok (L.setSiblingPrev first (L.siblingPrev this))
    | none => .ok L
  | some next => .ok ((L.setSiblingPrev next (L.siblingPrev this)).setSiblingNext this none)

/-- The branch for the first child of `p`. -/
def detachFirst (L : TreeLinks ν) (this p : ν) : TreeLinks ν :=
  let L := L.setChild p (L.siblingNext this)
  match L.siblingNext this with
  | some next => (L.setSiblingPrev next (L.siblingPrev this)).setSiblingNext this none
  | none => L

def detachSubTree (L : TreeLinks ν) (this : ν) : Except Fault (TreeLinks ν) := do
  let L ← match L.parent this with
    | none => L.detachOther this
    | some p => if L.child p ≠ some this then L.detachOther this else .ok (L.detachFirst this p)
  .ok ((L.setSiblingPrev this none).setParent this none)

/-! ### `DetachAll` -/

def clear (L : TreeLinks ν) (this : ν) : TreeLinks ν :=
  (((L.setParent this none).setChild this none).setSiblingNext this none).setSiblingPrev this none

/-- The loop of `ClearChildrenRecursive`, which reads `m_child` anew in each round. -/
def clearChildren : ℕ → TreeLinks ν → ν → Option ν → Except Fault (TreeLinks ν)
  | 0, _, _, _ => .error .outOfFuel
  | _ + 1, L, _, none => .ok L
  | fuel + 1, L, this, some iter => do
    let next := L.siblingNext iter
    let child ← deref (L.child this)
    let L ← clearChildren fuel L child (L.child child)
    let child ← deref (L.child this)
    clearChildren fuel (L.clear child) this next

def clearChildrenRecursive (fuel : ℕ) (L : TreeLinks ν) (this : ν) : Except Fault (TreeLinks ν) :=
  clearChildren fuel L this (L.child this)

def detachAll (fuel : ℕ) (L : TreeLinks ν) (this : ν) : Except Fault (TreeLinks ν) := do
  let L ← L.detachSubTree this
  let L ← L.clearChildrenRecursive fuel this
  .ok (L.clear this)

/-! ### Insertion -/

def pushBackChild (L : TreeLinks ν) (this newChild : ν) : Except Fault (TreeLinks ν) := do
  let L ← L.detachSubTree newChild
  match L.child this with
  | none =>
    .ok (((L.setChild this (some newChild)).setParent newChild (some this)).setSiblingPrev newChild
      (some newChild))
  | some first =>
    let siblingEnd ← deref (L.siblingPrev first)
    let L := L.setSiblingNext siblingEnd (some newChild)
    let L := L.setSiblingPrev newChild (some siblingEnd)
    let L := L.setParent newChild (L.parent siblingEnd)
    .ok (L.setSiblingPrev first (some newChild))

def pushFrontChild (L : TreeLinks ν) (this newChild : ν) : Except Fault (TreeLinks ν) := do
  let L ← L.detachSubTree newChild
  match L.child this with
  | none =>
    .ok (((L.setChild this (some newChild)).setParent newChild (some this)).setSiblingPrev newChild
      (some newChild))
  | some first =>
    let L := L.setSiblingNext newChild (some first)
    let L := L.setSiblingPrev newChild (L.siblingPrev first)
    let L := L.setSiblingPrev first (some newChild)
    let L := L.setChild this (some newChild)
    .ok (L.setParent newChild (some this))

/-- The end of `PushBackSibling`. -/
def linkSibling (L : TreeLinks ν) (siblingListEnd newSibling : ν) : TreeLinks ν :=
  let L := L.setSiblingNext siblingListEnd (some newSibling)
  let L := L.setSiblingPrev newSibling (some siblingListEnd)
  L.setParent newSibling (L.parent siblingListEnd)

def pushBackSibling (fuel : ℕ) (L : TreeLinks ν) (this newSibling : ν) :
    Except Fault (TreeLinks ν) := do
  let L ← L.detachSubTree newSibling
  match L.parent this with
  | none =>
    let siblingListEnd ← L.siblingListEnd fuel this
    .ok (L.linkSibling siblingListEnd newSibling)
  | some p =>
    match L.child p with
    | none =>
      let siblingListEnd ← L.siblingListEnd fuel this
      .ok (L.linkSibling siblingListEnd newSibling)
    | some first =>
      let siblingListEnd := L.siblingPrev first
      let L := L.setSiblingPrev first (some newSibling)
      let siblingListEnd ← deref siblingListEnd
      .ok (L.linkSibling siblingListEnd newSibling)

/-! ### Sequences of calls -/

inductive Call (ν : Type*) where
  | pushBackChild (this newChild : ν)
  | pushFrontChild (this newChild : ν)
  | pushBackSibling (this newSibling : ν)
  | detachSubTree (this : ν)

def perform (fuel : ℕ) (L : TreeLinks ν) : Call ν → Except Fault (TreeLinks ν)
  | .pushBackChild this newChild => L.pushBackChild this newChild
  | .pushFrontChild this newChild => L.pushFrontChild this newChild
  | .pushBackSibling this newSibling => L.pushBackSibling fuel this newSibling
  | .detachSubTree this => L.detachSubTree this

end TreeLinks

end DDFramework
