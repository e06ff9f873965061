import DDFramework.Model.SchedulerMain
import Mathlib.Data.Finset.Insert

/-! The scheduler together with the threads of its cores. Every step is the code that
one thread executes under `m_scheduler_lock`; a thread that switches to its scheduler
fiber keeps the lock until the scheduler pass is over. -/

namespace DDFramework

/-- What the thread of a core executes. -/
inductive CoreContext where
  /-- A worker thread before `InternalSchedulerFiberMain` has taken the lock. -/
  | notStarted
  | running (fiber : FiberId)
  /-- `SchedulerFiberMain` at the restart label. -/
  | scheduling
  /-- `SchedulerFiberMain` in the rest loop, without the lock. -/
  | resting
  deriving DecidableEq, Repr

structure SchedulerSystem where
  scheduler : UserScheduler
  contexts : ℕ → CoreContext
  /-- The core that holds `m_scheduler_lock` between two steps. -/
  lockOwner : Option ℕ
  mainFiber : FiberId
  /-- `InternalSchedulerMainThreadFiberMain` has been entered. -/
  mainEntered : Bool
  /-- The fibers that have been created and have not exited. -/
  live : Finset FiberId

namespace SchedulerSystem

/-- The lists of a pass hold at most `maxThreadCount` fibers. -/
def passFuel : ℕ := maxThreadCount + 2

/-- `Initialize` on the main thread, which goes on as the main fiber on core 0. -/
def initialSystem (words : Address → BitVec 32) (coreMask : BitVec 64) :
    Except Fault SchedulerSystem := do
  let (s, main) ← UserScheduler.initializeScheduler words coreMask
  .ok {
    scheduler := s
    contexts := Function.update (fun _ => .notStarted) 0 (.running main)
    lockOwner := none
    mainFiber := main
    mainEntered := false
    live := {main} }

/-- The switch of the running fiber `f` to the scheduler fiber of its core. That fiber is
in `Dispatch`, except that the one of core 0 starts with
`InternalSchedulerMainThreadFiberMain`. -/
def switchToScheduler (c : SchedulerSystem) (f : FiberId) : Except Fault SchedulerSystem :=
  let core := (c.scheduler.fibers f).currentCore
  if core < c.scheduler.coreCount then do
    let s ← (if core = 0 ∧ c.mainEntered = false then
        .ok (c.scheduler.addToSchedulerUnsafe c.mainFiber)
      else c.scheduler.handlePreviousFiber f core)
    .ok { c with
      scheduler := s
      contexts := Function.update c.contexts core .scheduling
      lockOwner := some core
      mainEntered := c.mainEntered || decide (core = 0) }
  else .error .assertFailed

def sleepThread (c : SchedulerSystem) (f : FiberId) (absoluteTimeout : BitVec 64) :
    Except Fault SchedulerSystem :=
  { c with scheduler := c.scheduler.sleepThreadImpl f absoluteTimeout }.switchToScheduler f

def exitFiber (c : SchedulerSystem) (f : FiberId) : Except Fault SchedulerSystem :=
  { c with
    scheduler := c.scheduler.exitFiberImpl f
    live := c.live.erase f }.switchToScheduler f

/-- The pass of a core and the release of the lock, by the dispatched fiber or for the
rest of the core. -/
def pass (c : SchedulerSystem) (core : ℕ) (tick : BitVec 64) : Except Fault SchedulerSystem := do
  match ← c.scheduler.schedulerPass passFuel core tick with
  | (s, some f) => .ok { c with
      scheduler := s
      contexts := Function.update c.contexts core (.running f)
      lockOwner := none }
  | (s, none) => .ok { c with
      scheduler := s
      contexts := Function.update c.contexts core .resting
      lockOwner := none }

/-- The new fiber of a successful creation is in the slot that was free first. -/
def createThread (c : SchedulerSystem) (threadFunc : Address) (stackSize : ℕ) (priority : ℤ)
    (coreId : ℕ) : Except Fault SchedulerSystem := do
  let ((_, handle), s) ← c.scheduler.createThreadImpl threadFunc stackSize priority coreId
  match handle, c.scheduler.userFiberLocalAllocator.freeList with
  | some _, some f => .ok { c with scheduler := s, live := insert f c.live }
  | _, _ => .ok { c with scheduler := s }

/-- One thread executes one step under the scheduler lock. The setters get the handle of a
live fiber, and a fiber exits at the end of `UserFiberMain`, which the main fiber
does not execute. -/
inductive Step : SchedulerSystem → SchedulerSystem → Prop where
  | createThread {c c' : SchedulerSystem} (threadFunc : Address) (stackSize : ℕ) (priority : ℤ)
      (coreId : ℕ) (unlocked : c.lockOwner = none)
      (call : c.createThread threadFunc stackSize priority coreId = .ok c') : Step c c'
  | setCoreMask {c : SchedulerSystem} {f : FiberId} {result : Result} {s : UserScheduler}
      (coreMask : BitVec 64) (unlocked : c.lockOwner = none) (live : f ∈ c.live)
      (call : c.scheduler.setCoreMaskImpl (c.scheduler.fibers f).ukernFiberHandle coreMask =
        .ok (result, s)) : Step c { c with scheduler := s }
  | setActivity {c : SchedulerSystem} {f : FiberId} {result : Result} {s : UserScheduler}
      (activityLevel : BitVec 16) (unlocked : c.lockOwner = none) (live : f ∈ c.live)
      (call : c.scheduler.setActivityImpl (c.scheduler.fibers f).ukernFiberHandle activityLevel =
        .ok (result, s)) : Step c { c with scheduler := s }
  | sleepThread {c c' : SchedulerSystem} {core : ℕ} {f : FiberId} (absoluteTimeout : BitVec 64)
      (unlocked : c.lockOwner = none) (current : c.contexts core = .running f)
      (call : c.sleepThread f absoluteTimeout = .ok c') : Step c c'
  | exitFiber {c c' : SchedulerSystem} {core : ℕ} {f : FiberId}
      (unlocked : c.lockOwner = none) (current : c.contexts core = .running f)
      (user : f ≠ c.mainFiber) (call : c.exitFiber f = .ok c') : Step c c'
  | pass {c c' : SchedulerSystem} {core : ℕ} (tick : BitVec 64)
      (locked : c.lockOwner = some core) (current : c.contexts core = .scheduling)
      (call : c.pass core tick = .ok c') : Step c c'
  | startCore {c : SchedulerSystem} {core : ℕ} (unlocked : c.lockOwner = none)
      (current : c.contexts core = .notStarted) (worker : 0 < core)
      (core_lt : core < c.scheduler.coreCount) :
      Step c { c with
        contexts := Function.update c.contexts core .scheduling
        lockOwner := some core }
  | wakeCore {c : SchedulerSystem} {core : ℕ} (unlocked : c.lockOwner = none)
      (current : c.contexts core = .resting) :
      Step c { c with
        scheduler := { c.scheduler with activeCores := c.scheduler.activeCores + 1 }
        contexts := Function.update c.contexts core .scheduling
        lockOwner := some core }

/-- The states that the steps reach from `Initialize`. -/
inductive Reachable (words : Address → BitVec 32) (coreMask : BitVec 64) :
    SchedulerSystem → Prop where
  | start {c : SchedulerSystem} (initial : initialSystem words coreMask = .ok c) :
      Reachable words coreMask c
  | step {c c' : SchedulerSystem} (reachable : Reachable words coreMask c) (step : Step c c') :
      Reachable words coreMask c'

end SchedulerSystem

/-! ### Steps as labels -/

/-- The steps, each with the fiber or the core that it is about. -/
inductive SchedulerCall where
  | createThread (threadFunc : Address) (stackSize : ℕ) (priority : ℤ) (coreId : ℕ)
  | setCoreMask (f : FiberId) (coreMask : BitVec 64)
  | setActivity (f : FiberId) (activityLevel : BitVec 16)
  | sleepThread (core : ℕ) (absoluteTimeout : BitVec 64)
  | exitFiber (core : ℕ)
  | pass (core : ℕ) (tick : BitVec 64)
  | startCore (core : ℕ)
  | wakeCore (core : ℕ)
  deriving DecidableEq, Repr

namespace SchedulerSystem

/-- The fiber on a core. -/
def runningFiber (c : SchedulerSystem) (core : ℕ) : Option FiberId :=
  match c.contexts core with
  | .running f => some f
  | _ => none

/-- The step with a label, when it can be taken. -/
def perform (c : SchedulerSystem) : SchedulerCall → Option SchedulerSystem
  | .createThread threadFunc stackSize priority coreId =>
      if c.lockOwner = none then (c.createThread threadFunc stackSize priority coreId).toOption
      else none
  | .setCoreMask f coreMask =>
      if c.lockOwner = none ∧ f ∈ c.live then
        (c.scheduler.setCoreMaskImpl (c.scheduler.fibers f).ukernFiberHandle coreMask).toOption.map
          fun p => { c with scheduler := p.2 }
      else none
  | .setActivity f activityLevel =>
      if c.lockOwner = none ∧ f ∈ c.live then
        (c.scheduler.setActivityImpl (c.scheduler.fibers f).ukernFiberHandle
          activityLevel).toOption.map fun p => { c with scheduler := p.2 }
      else none
  | .sleepThread core absoluteTimeout =>
      if c.lockOwner = none then
        (c.runningFiber core).bind fun f => (c.sleepThread f absoluteTimeout).toOption
      else none
  | .exitFiber core =>
      if c.lockOwner = none then
        (c.runningFiber core).bind fun f =>
          if f ≠ c.mainFiber then (c.exitFiber f).toOption else none
      else none
  | .pass core tick =>
      if c.lockOwner = some core ∧ c.contexts core = .scheduling then (c.pass core tick).toOption
      else none
  | .startCore core =>
      if c.lockOwner = none ∧ c.contexts core = .notStarted ∧ 0 < core ∧
          core < c.scheduler.coreCount then
        some { c with
          contexts := Function.update c.contexts core .scheduling
          lockOwner := some core }
      else none
  | .wakeCore core =>
      if c.lockOwner = none ∧ c.contexts core = .resting then
        some { c with
          scheduler := { c.scheduler with activeCores := c.scheduler.activeCores + 1 }
          contexts := Function.update c.contexts core .scheduling
          lockOwner := some core }
      else none

end SchedulerSystem

end DDFramework
