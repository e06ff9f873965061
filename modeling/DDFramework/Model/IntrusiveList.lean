import DDFramework.Library.Links
import DDFramework.Model.Result

/-! The intrusive list of `util_intrusivelist.hpp`. A list is a head node in the
same memory as its elements, and an iterator keeps the node *after* the element
it denotes. -/

namespace DDFramework

namespace Links

variable {α : Type*} [DecidableEq α]

/-! ### `IntrusiveListNode` -/

def isLinked (L : Links α) (node : α) : Bool := decide (node ≠ L.next node)

def linkNext (L : Links α) (this newNode : α) : Links α :=
  let newPrev := L.prev newNode
  let L := L.setPrev newNode (L.prev this)
  let L := L.setNext newPrev this
  let L := L.setNext (L.prev this) newNode
  L.setPrev this newPrev

def linkPrev (L : Links α) (this newNode : α) : Links α :=
  let newPrev := L.prev newNode
  let L := L.setPrev newNode (L.prev (L.prev this))
  let L := L.setNext newPrev (L.prev this)
  let L := L.setNext (L.prev (L.prev this)) newNode
  L.setPrev (L.prev this) newPrev

def unlink (L : Links α) (this : α) : Links α :=
  let L := L.setNext (L.prev this) (L.next this)
  let L := L.setPrev (L.next this) (L.prev this)
  let L := L.setNext this this
  L.setPrev this this

/-- The default constructor of a node. -/
def construct (L : Links α) (this : α) : Links α :=
  (L.setNext this this).setPrev this this

/-! ### `IntrusiveList` -/

def isEmpty (L : Links α) (list : α) : Bool := !L.isLinked list

def pushBack (L : Links α) (list node : α) : Links α := L.linkNext list node

def pushFront (L : Links α) (list node : α) : Links α := L.linkPrev list node

def popFront (L : Links α) (list : α) : α × Links α :=
  let front := L.next list
  (front, L.unlink front)

def popBack (L : Links α) (list : α) : α × Links α :=
  let back := L.prev list
  (back, L.unlink back)

def remove (L : Links α) (node : α) : Links α := L.unlink node

/-! ### `IntrusiveList::Iterator`, as the node it stores -/

def iteratorTo (L : Links α) (node : α) : α := L.next node

def listBegin (L : Links α) (list : α) : α := L.iteratorTo (L.next list)

def listEnd (L : Links α) (list : α) : α := L.iteratorTo list

/-- The node that `operator*` finds. -/
def iteratorNode (L : Links α) (it : α) : α := L.prev it

end Links

/-! ### Range-based loops -/

/-- How a loop body ends: with the next iteration, or with a `break`. -/
inductive LoopExit (σ : Type*) where
  | next (s : σ)
  | stop (s : σ)

variable {α σ : Type*} [DecidableEq α]

/-- The iterations from the iterator `it`. The comparison is with the node `stop`
that `end()` stored before the loop; the current element is the predecessor of
the stored node, and the increment reads the successor after the body ran. -/
def rangeLoop (links : σ → Links α) (body : α → σ → Except Fault (LoopExit σ)) (stop : α) :
    ℕ → α → σ → Except Fault σ
  | 0, _, _ => .error .outOfFuel
  | fuel + 1, it, s =>
    if it = stop then .ok s
    else
      match body ((links s).prev it) s with
      | .error fault => .error fault
      | .ok (.stop s) => .ok s
      | .ok (.next s) => rangeLoop links body stop fuel ((links s).next it) s

/-- `for (auto &element : list) { body }`, for at most `fuel` comparisons. -/
def rangeFor (links : σ → Links α) (list : α) (body : α → σ → Except Fault (LoopExit σ))
    (fuel : ℕ) (s : σ) : Except Fault σ :=
  rangeLoop links body ((links s).next list) fuel ((links s).next ((links s).next list)) s

/-! ### Loops over an explicit iterator -/

/-- `while (it != list.end()) { body; ++it; }` for a body that leaves the links alone. A
`break` leaves the iterator at the element it was at. -/
def walk (L : Links α) (list : α) (body : α → σ → LoopExit σ) : ℕ → α → σ → Except Fault (α × σ)
  | 0, _, _ => .error .outOfFuel
  | fuel + 1, it, s =>
    if it = L.listEnd list then .ok (it, s)
    else
      match body (L.iteratorNode it) s with
      | .stop s => .ok (it, s)
      | .next s => walk L list body fuel (L.next it) s

/-! ### Programs that use several lists -/

namespace IntrusiveList

/-- The operations on the lists `H` and the nodes `N`. -/
inductive Action (H N : Type*) where
  | pushBack (list : H) (node : N)
  | popFront (list : H)
  | popBack (list : H)
  | remove (node : N)
  deriving DecidableEq, Repr

variable {H N : Type*} [DecidableEq H] [DecidableEq N]

/-- A node is pushed only when it is not linked, and a list popped only when it is not
empty. -/
def perform (L : Links (H ⊕ N)) : Action H N → Option (Links (H ⊕ N))
  | .pushBack list node =>
    if L.isLinked (.inr node) then none else some (L.pushBack (.inl list) (.inr node))
  | .popFront list => if L.isEmpty (.inl list) then none else some (L.popFront (.inl list)).2
  | .popBack list => if L.isEmpty (.inl list) then none else some (L.popBack (.inl list)).2
  | .remove node => some (L.remove (.inr node))

end IntrusiveList

end DDFramework
