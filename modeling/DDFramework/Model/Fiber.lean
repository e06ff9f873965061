import DDFramework.Model.FixedObjectAllocator
import DDFramework.Model.HandleTable
import DDFramework.Model.IntrusiveList
import Mathlib.Tactic.Simps.Basic

/-! Fibers, the list nodes embedded in them, and the data of the scheduler
(`ukern_fiberlocalstorage.h`, `ukern_scheduler.hpp`). -/

namespace DDFramework

/-- A fiber is the index of its slot in `UserFiberLocalAllocator`. -/
abbrev FiberId := ℕ

/-- The address of a `u32`; zero is the null pointer. -/
abbrev Address := ℕ

abbrev UKernHandle := BitVec 32

def maxThreadCount : ℕ := 256

def hasChildWaitersBit : BitVec 32 := 0x40000000

inductive FiberState where
  | scheduled
  | running
  | exiting
  | waiting
  | suspended
  deriving DecidableEq, Repr

/-- The dynamic class of a `WaitableObject`. -/
inductive WaitableObject where
  | lockArbiter
  | keyArbiter
  | waitAddressArbiter
  deriving DecidableEq, Repr

abbrev ActivityLevel := BitVec 16

def activityLevelSuspended : ActivityLevel := 0

def activityLevelSchedulable : ActivityLevel := 1

/-- The fields of a fiber that the scheduler reads. The three list nodes are nodes of
the scheduler's link memory. -/
structure FiberLocalStorage where
  priority : ℤ
  currentCore : ℕ
  coreMask : BitVec 64
  ukernFiberHandle : UKernHandle
  activityLevel : ActivityLevel
  waitTag : BitVec 32
  lockAddress : Address
  waitAddress : Address
  waitableObject : Option WaitableObject
  timeout : BitVec 64
  lastResult : Result
  fiberState : FiberState

inductive RunList where
  | high
  | aboveNormal
  | normal
  | belowNormal
  | low
  deriving DecidableEq, Repr

/-- The list nodes: two in each fiber, the head of each fiber's `wait_list`, and the
heads of the scheduler's lists. -/
inductive Node where
  | schedulerListNode (fiber : FiberId)
  | waitListNode (fiber : FiberId)
  | fiberWaitList (fiber : FiberId)
  | runList (list : RunList)
  | suspendedList
  | schedulerWaitList
  deriving DecidableEq, Repr

structure UserScheduler where
  fibers : FiberId → FiberLocalStorage
  links : Links Node
  words : Address → BitVec 32
  handleTable : HandleTable FiberId
  userFiberLocalAllocator : FixedObjectAllocator maxThreadCount
  coreMask : BitVec 64
  coreCount : ℕ
  activeCores : BitVec 32
  runnableFibers : BitVec 32

namespace UserScheduler

/-! ### Access to fibers, lists and words -/

@[simps -fullyApplied] def modifyFiber (s : UserScheduler) (f : FiberId)
    (g : FiberLocalStorage → FiberLocalStorage) : UserScheduler :=
  { s with fibers := Function.update s.fibers f (g (s.fibers f)) }

@[simps -fullyApplied] def unlink (s : UserScheduler) (node : Node) : UserScheduler :=
  { s with links := s.links.unlink node }

@[simps -fullyApplied] def pushBack (s : UserScheduler) (list node : Node) : UserScheduler :=
  { s with links := s.links.pushBack list node }

def readWord (s : UserScheduler) (address : Address) : Except Fault (BitVec 32) :=
  if address = 0 then .error .nullDereference else .ok (s.words address)

def writeWord (s : UserScheduler) (address : Address) (value : BitVec 32) :
    Except Fault UserScheduler :=
  if address = 0 then .error .nullDereference
  else .ok { s with words := Function.update s.words address value }

/-- The fiber around a `scheduler_list_node`, for an access to one of its fields. -/
def schedulerNodeParent : Node → Except Fault FiberId
  | .schedulerListNode f => .ok f
  | _ => .error .sentinelDereference

/-- The fiber around a `wait_list_node`, for an access to one of its fields. -/
def waitNodeParent : Node → Except Fault FiberId
  | .waitListNode f => .ok f
  | _ => .error .sentinelDereference

def getFiberByHandle (s : UserScheduler) (handle : UKernHandle) : Except Fault (Option FiberId) :=
  s.handleTable.getObjectByHandle handle

end UserScheduler

end DDFramework
