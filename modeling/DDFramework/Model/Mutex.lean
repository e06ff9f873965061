import DDFramework.Library.Machine
import Mathlib.Logic.Function.Basic

/-! `Mutex` of `sys_mutex.hpp` and the threads that use it. Its internal critical section is
a lock that one thread owns. A step is one read or write of `m_lock_count` or one call on the
internal critical section. -/

namespace DDFramework

namespace Mutex

/-- The access that a thread makes next. -/
inductive Phase where
  | outside
  /-- `Enter`: the test of the count, `IsLockedByCurrentThread`, `m_cs.Enter` and the
  increment. -/
  | enterTest
  | enterOwner
  | enterLock
  | enterRead
  | enterWrite (count : BitVec 32)
  /-- `TryEnter`: the same accesses with `m_cs.TryEnter`. -/
  | tryTest
  | tryOwner
  | tryLock
  | tryRead
  | tryWrite (count : BitVec 32)
  /-- `Leave`: the decrement, the test of the count and `m_cs.Leave`. -/
  | leaveRead
  | leaveWrite (count : BitVec 32)
  | leaveTest
  | leaveUnlock
  deriving DecidableEq, Repr

inductive Action (ι : Type*) where
  | enter (i : ι)
  | tryEnter (i : ι)
  | leave (i : ι)
  /-- The thread makes the next access of its call. -/
  | advance (i : ι)
  deriving DecidableEq, Repr

/-- A completed `TryEnter`. -/
structure Try where
  returned : Bool
  /-- At the call nobody or the caller owned the lock. -/
  available : Bool
  deriving DecidableEq, Repr

structure System (ι : Type*) where
  lockCount : BitVec 32
  /-- The thread that owns `m_cs`. -/
  owner : Option ι
  phase : ι → Phase
  /-- How often the thread has entered more than left. Only read by statements and by the rule
  that a thread leaves at most as often as it has entered; so are the next two. -/
  depth : ι → ℕ
  available : ι → Bool
  tries : List Try

variable {ι : Type*}

def start : System ι where
  lockCount := 0#32
  owner := none
  phase _ := .outside
  depth _ := 0
  available _ := false
  tries := []

namespace System

variable [DecidableEq ι]

def goto (s : System ι) (i : ι) (phase : Phase) : System ι :=
  { s with phase := Function.update s.phase i phase }

/-- `Enter` returns, or `TryEnter` with `true`. -/
def entered (s : System ι) (i : ι) : System ι :=
  { s with depth := Function.update s.depth i (s.depth i + 1) }.goto i .outside

/-- `TryEnter` returns. -/
def tried (s : System ι) (i : ι) (returned : Bool) : System ι :=
  { s with tries := s.tries ++ [⟨returned, s.available i⟩] }

/-- `Leave` returns. -/
def left (s : System ι) (i : ι) : System ι :=
  { s with depth := Function.update s.depth i (s.depth i - 1) }.goto i .outside

/-- The lock is free or the thread owns it. -/
def isAvailable (s : System ι) (i : ι) : Bool := s.owner == none || s.owner == some i

/-- The next access of a call. `m_cs.Enter` waits until nobody owns the lock. -/
def advance (s : System ι) (i : ι) : Option (System ι) :=
  match s.phase i with
  | .outside => none
  | .enterTest => some (s.goto i (if s.lockCount = 0#32 then .enterOwner else .enterRead))
  | .enterOwner => some (s.goto i (if s.owner = some i then .enterRead else .enterLock))
  | .enterLock => if s.owner = none then some ({ s with owner := some i }.goto i .enterRead) else none
  | .enterRead => some (s.goto i (.enterWrite s.lockCount))
  | .enterWrite count => some ({ s with lockCount := count + 1#32 }.entered i)
  | .tryTest =>
    if s.lockCount = 0#32 then some ((s.tried i false).goto i .outside) else some (s.goto i .tryOwner)
  | .tryOwner =>
    if s.owner = some i then some (s.goto i .tryLock) else some ((s.tried i false).goto i .outside)
  | .tryLock =>
    if s.owner = none then some ({ s with owner := some i }.goto i .tryRead)
    else some ((s.tried i false).goto i .outside)
  | .tryRead => some (s.goto i (.tryWrite s.lockCount))
  | .tryWrite count => some (({ s with lockCount := count + 1#32 }.tried i true).entered i)
  | .leaveRead => some (s.goto i (.leaveWrite s.lockCount))
  | .leaveWrite count => some ({ s with lockCount := count - 1#32 }.goto i .leaveTest)
  | .leaveTest => if s.lockCount ≠ 0#32 then some (s.left i) else some (s.goto i .leaveUnlock)
  | .leaveUnlock => some ({ s with owner := none }.left i)

/-- A thread starts a call when it is not in another one, and leaves only as often as it has
entered. -/
def next (s : System ι) : Action ι → Option (System ι)
  | .enter i => if s.phase i = .outside then some (s.goto i .enterTest) else none
  | .tryEnter i =>
    if s.phase i = .outside then
      some ({ s with available := Function.update s.available i (s.isAvailable i) }.goto i .tryTest)
    else none
  | .leave i => if s.phase i = .outside ∧ 0 < s.depth i then some (s.goto i .leaveRead) else none
  | .advance i => s.advance i

end System

end Mutex

end DDFramework
