import DDFramework.Model.SchedulerMain

/-! `InternalCriticalSection` of `ukern_internalcriticalsection.hpp`, executed by any
number of fibers. A section is the address of its `m_handle`. One step is one
operation on `m_handle`, or one scheduler-locked body. -/

namespace DDFramework

/-- Where a fiber is in `Enter` or `Leave`: the operation it executes next. -/
inductive SectionPc where
  /-- In the user's code. -/
  | outside
  /-- At the `InterlockedCompareExchange` of `Enter`. -/
  | entering (lock : Address)
  /-- At the `InterlockedOr` of `Enter`. -/
  | marking (lock : Address) (otherWaiter : BitVec 32)
  /-- At the call of `ArbitrateLockImpl`. -/
  | locking (lock : Address) (otherWaiter : BitVec 32)
  /-- Behind the switch in `ArbitrateLockImpl`, and then at the read of `m_handle`. -/
  | blocked (lock : Address)
  /-- At the `InterlockedExchange` of `Leave`. -/
  | clearing (lock : Address)
  /-- At the call of `ArbitrateUnlockImpl`. -/
  | unlocking (lock : Address)
  deriving DecidableEq, Repr

structure SectionSystem where
  scheduler : UserScheduler
  pc : FiberId → SectionPc
  /-- The fiber has returned from `Enter`, or from a successful `TryEnter`, and has not
  called `Leave` since. -/
  held : FiberId → Address → Bool
  /-- The fiber of the main thread. -/
  mainFiber : FiberId
  /-- `InternalSchedulerMainThreadFiberMain` has been entered. -/
  mainEntered : Bool

/-- What happens next. -/
inductive SectionAction where
  | enter (fiber : FiberId) (lock : Address)
  | tryEnter (fiber : FiberId) (lock : Address)
  /-- The call of `Leave` with its read of `m_handle`. -/
  | leave (fiber : FiberId) (lock : Address)
  /-- The fiber executes the operation it is at. -/
  | advance (fiber : FiberId)
  /-- The scheduler fiber of a core dispatches a scheduled fiber. -/
  | dispatch (fiber : FiberId) (core : ℕ)
  deriving DecidableEq, Repr

/-- The waiters bit as `Enter` and `Leave` test it. -/
def hasWaiters (value : BitVec 32) : Bool := (value >>> 0x1e) &&& 1 == 1

/-- The value without the waiters bit. -/
def withoutWaiters (value : BitVec 32) : BitVec 32 := value &&& ~~~hasChildWaitersBit

namespace SectionSystem

def tag (c : SectionSystem) (f : FiberId) : UKernHandle :=
  (c.scheduler.fibers f).ukernFiberHandle

@[simps -fullyApplied] def setPc (c : SectionSystem) (f : FiberId) (pc : SectionPc) :
    SectionSystem :=
  { c with pc := Function.update c.pc f pc }

@[simps -fullyApplied] def setWord (c : SectionSystem) (lock : Address) (value : BitVec 32) :
    SectionSystem :=
  { c with scheduler := { c.scheduler with
      words := Function.update c.scheduler.words lock value } }

@[simps -fullyApplied] def setHeld (c : SectionSystem) (f : FiberId) (lock : Address)
    (held : Bool) : SectionSystem :=
  { c with held := Function.update c.held f (Function.update (c.held f) lock held) }

/-! ### `Enter` and `TryEnter` -/

def compareExchange (c : SectionSystem) (f : FiberId) (lock : Address) : SectionSystem :=
  let otherWaiter := c.scheduler.words lock
  if otherWaiter = 0 then ((c.setWord lock (c.tag f)).setHeld f lock true).setPc f .outside
  else if hasWaiters otherWaiter then c.setPc f (.locking lock otherWaiter)
  else c.setPc f (.marking lock otherWaiter)

def interlockedOr (c : SectionSystem) (f : FiberId) (lock : Address) (otherWaiter : BitVec 32) :
    SectionSystem :=
  let prevValue := c.scheduler.words lock
  let c := c.setWord lock (prevValue ||| hasChildWaitersBit)
  if prevValue ≠ otherWaiter then c.setPc f (.entering lock)
  else c.setPc f (.locking lock otherWaiter)

/-- The fiber switches to the scheduler fiber of core 0 for the first time. -/
def FirstSwitch (c : SectionSystem) (f : FiberId) : Prop :=
  (c.scheduler.fibers f).currentCore = 0 ∧ c.mainEntered = false

instance (c : SectionSystem) (f : FiberId) : Decidable (c.FirstSwitch f) :=
  inferInstanceAs (Decidable (_ ∧ _))

/-- The switch of a waiting fiber to the scheduler fiber of its core. That one is in `Dispatch` and
leaves the fiber alone, except that the one of core 0 starts with
`InternalSchedulerMainThreadFiberMain`. -/
def switchToScheduler (c : SectionSystem) (f : FiberId) : SectionSystem :=
  if c.FirstSwitch f then
    { c with
      scheduler := c.scheduler.addToSchedulerUnsafe c.mainFiber
      mainEntered := true }
  else c

def arbitrateLock (c : SectionSystem) (f : FiberId) (lock : Address) (otherWaiter : BitVec 32) :
    Except Fault SectionSystem := do
  match ← c.scheduler.arbitrateLockImpl f (withoutWaiters otherWaiter) lock (c.tag f) with
  | (.returns result, _) => .error (.abort result)
  | (.switches _, s) =>
    .ok (({ c with scheduler := s }.switchToScheduler f).setPc f (.blocked lock))

/-- The return of `ArbitrateLockImpl` once the fiber runs again. -/
def returnFromLock (c : SectionSystem) (f : FiberId) (lock : Address) :
    Except Fault SectionSystem :=
  if (c.scheduler.fibers f).lastResult ≠ resultSuccess then
    .error (.abort (c.scheduler.fibers f).lastResult)
  else if withoutWaiters (c.scheduler.words lock) = c.tag f then
    .ok ((c.setHeld f lock true).setPc f .outside)
  else .ok (c.setPc f (.entering lock))

def tryEnter (c : SectionSystem) (f : FiberId) (lock : Address) : SectionSystem :=
  if c.scheduler.words lock = 0 then (c.setWord lock (c.tag f)).setHeld f lock true else c

/-! ### `Leave` -/

def leave (c : SectionSystem) (f : FiberId) (lock : Address) : SectionSystem :=
  let c := c.setHeld f lock false
  if hasWaiters (c.scheduler.words lock) then c.setPc f (.unlocking lock)
  else c.setPc f (.clearing lock)

def exchange (c : SectionSystem) (f : FiberId) (lock : Address) : SectionSystem :=
  (c.setWord lock 0).setPc f .outside

def arbitrateUnlock (fuel : ℕ) (c : SectionSystem) (f : FiberId) (lock : Address) :
    Except Fault SectionSystem := do
  let (result, s) ← c.scheduler.arbitrateUnlockImpl fuel f lock
  if result ≠ resultSuccess then .error (.abort result)
  else .ok ({ c with scheduler := s }.setPc f .outside)

/-! ### Steps -/

def advance (fuel : ℕ) (c : SectionSystem) (f : FiberId) : Except Fault SectionSystem :=
  match c.pc f with
  | .outside => .ok c
  | .entering lock => .ok (c.compareExchange f lock)
  | .marking lock otherWaiter => .ok (c.interlockedOr f lock otherWaiter)
  | .locking lock otherWaiter => c.arbitrateLock f lock otherWaiter
  | .blocked lock => c.returnFromLock f lock
  | .clearing lock => .ok (c.exchange f lock)
  | .unlocking lock => c.arbitrateUnlock fuel f lock

/-- One atomic step. An aborted or faulting call ends the process, so it has no next
state. -/
def perform (fuel : ℕ) (c : SectionSystem) : SectionAction → Except Fault SectionSystem
  | .enter f lock => .ok (c.setPc f (.entering lock))
  | .tryEnter f lock => .ok (c.tryEnter f lock)
  | .leave f lock => .ok (c.leave f lock)
  | .advance f => c.advance fuel f
  | .dispatch f core => do
    let s ← c.scheduler.dispatch f core
    .ok { c with scheduler := s }

/-- The handle table maps the handle of the fiber to the fiber. -/
def Registered (c : SectionSystem) (f : FiberId) : Prop :=
  c.scheduler.getFiberByHandle (c.tag f) = .ok (some f)

def Runs (c : SectionSystem) (f : FiberId) : Prop := (c.scheduler.fibers f).fiberState = .running

/-- A running fiber calls the functions on existing sections, and `Leave` only on a
section that it holds. -/
def Enabled (sections : Address → Prop) (c : SectionSystem) : SectionAction → Prop
  | .enter f lock => c.Registered f ∧ c.Runs f ∧ c.pc f = .outside ∧ sections lock
  | .tryEnter f lock => c.Registered f ∧ c.Runs f ∧ c.pc f = .outside ∧ sections lock
  | .leave f lock => c.Runs f ∧ c.pc f = .outside ∧ c.held f lock = true
  | .advance f => c.Runs f ∧ c.pc f ≠ .outside
  | .dispatch f _ => (c.scheduler.fibers f).fiberState = .scheduled

/-- The sections are constructed and nobody waits for anybody. -/
structure Start (sections : Address → Prop) (s : UserScheduler) : Prop where
  coherent : s.links.Coherent
  waitList : ∀ f, s.links.next (.fiberWaitList f) = .fiberWaitList f
  waitNode : ∀ f, s.links.next (.waitListNode f) = .waitListNode f
  unlocked : ∀ lock, sections lock → s.words lock = 0
  not_null : ¬ sections 0

def startAt (s : UserScheduler) (mainFiber : FiberId) (mainEntered : Bool) : SectionSystem where
  scheduler := s
  pc _ := .outside
  held _ _ := false
  mainFiber := mainFiber
  mainEntered := mainEntered

/-- The states that steps reach which are `allowed` in the state before them. -/
inductive Reachable (fuel : ℕ) (sections : Address → Prop) (s : UserScheduler)
    (allowed : SectionSystem → SectionAction → Prop) : SectionSystem → Prop where
  | start {mainFiber : FiberId} {mainEntered : Bool} (start : Start sections s) :
      Reachable fuel sections s allowed (startAt s mainFiber mainEntered)
  | step {c c' : SectionSystem} {a : SectionAction}
      (reachable : Reachable fuel sections s allowed c) (enabled : c.Enabled sections a)
      (allow : allowed c a) (perform : c.perform fuel a = .ok c') :
      Reachable fuel sections s allowed c'

end SectionSystem

end DDFramework
