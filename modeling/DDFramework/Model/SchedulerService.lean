import DDFramework.Model.SchedulerSystem

/-! The scheduler with its whole service interface. The calls that do not ask for the
current fiber may come from any thread; the others come from the fiber on a core. -/

namespace DDFramework

inductive ServiceCall where
  | createThread (threadFunc : Address) (stackSize : ℕ) (priority : ℤ) (coreId : ℕ)
  | setPriority (handle : UKernHandle) (priority : ℤ)
  | setCoreMask (handle : UKernHandle) (coreMask : BitVec 64)
  | setActivity (handle : UKernHandle) (activityLevel : BitVec 16)
  | sleepThread (core : ℕ) (absoluteTimeout : BitVec 64)
  | exitFiber (core : ℕ)
  | arbitrateLock (core : ℕ) (handle : UKernHandle) (lockAddress : Address) (tag : BitVec 32)
  | arbitrateUnlock (core : ℕ) (lockAddress : Address)
  | waitKey (core : ℕ) (lockAddress cvKey : Address) (tag : BitVec 32)
      (absoluteTimeout : BitVec 64)
  | signalKey (cvKey : Address) (signalCount : BitVec 32)
  | waitForAddressIfEqual (core : ℕ) (waitAddress : Address) (value : BitVec 32)
      (absoluteTimeout : BitVec 64)
  | waitForAddressIfLessThan (core : ℕ) (waitAddress : Address) (value : BitVec 32)
      (absoluteTimeout : BitVec 64) (doDecrement : Bool)
  | wakeByAddress (waitAddress : Address) (count : BitVec 32)
  | wakeByAddressIncrementEqual (waitAddress : Address) (value count : BitVec 32)
  | wakeByAddressModifyLessThan (waitAddress : Address) (value count : BitVec 32)
  /-- A store of user code to a lock or wait word. -/
  | storeWord (address : Address) (value : BitVec 32)
  | pass (core : ℕ) (tick : BitVec 64)
  | startCore (core : ℕ)
  | wakeCore (core : ℕ)
  deriving DecidableEq, Repr

namespace SchedulerSystem

open UserScheduler

/-- A call that returns to its caller. -/
def setScheduler (c : SchedulerSystem) (s : UserScheduler) : SchedulerSystem :=
  { c with scheduler := s }

/-- The end of a call of the fiber `f`. -/
def finish (c : SchedulerSystem) (f : FiberId) : CallExit × UserScheduler →
    Except Fault SchedulerSystem
  | (.returns _, s) => .ok (c.setScheduler s)
  | (.switches _, s) => (c.setScheduler s).switchToScheduler f

/-- A call that does not block. -/
def serveReturning (c : SchedulerSystem) (call : Except Fault (Result × UserScheduler)) :
    Option SchedulerSystem :=
  if c.lockOwner = none then call.toOption.map fun p => c.setScheduler p.2 else none

/-- A call of the fiber on a core. -/
def serveCurrent (c : SchedulerSystem) (core : ℕ)
    (call : FiberId → Except Fault SchedulerSystem) : Option SchedulerSystem :=
  if c.lockOwner = none then (c.runningFiber core).bind fun f => (call f).toOption else none

/-- The step of a service call, when it can be taken. -/
def serve (c : SchedulerSystem) : ServiceCall → Option SchedulerSystem
  | .createThread threadFunc stackSize priority coreId =>
      c.perform (.createThread threadFunc stackSize priority coreId)
  | .setPriority handle priority =>
      c.serveReturning (c.scheduler.setPriorityImpl handle priority)
  | .setCoreMask handle coreMask =>
      c.serveReturning (c.scheduler.setCoreMaskImpl handle coreMask)
  | .setActivity handle activityLevel =>
      c.serveReturning (c.scheduler.setActivityImpl handle activityLevel)
  | .sleepThread core absoluteTimeout => c.perform (.sleepThread core absoluteTimeout)
  | .exitFiber core => c.perform (.exitFiber core)
  | .arbitrateLock core handle lockAddress tag =>
      c.serveCurrent core fun f =>
        c.scheduler.arbitrateLockImpl f handle lockAddress tag >>= c.finish f
  | .arbitrateUnlock core lockAddress =>
      c.serveCurrent core fun f =>
        (c.scheduler.arbitrateUnlockImpl passFuel f lockAddress).map fun p => c.setScheduler p.2
  | .waitKey core lockAddress cvKey tag absoluteTimeout =>
      c.serveCurrent core fun f =>
        c.scheduler.waitKeyImpl passFuel f lockAddress cvKey tag absoluteTimeout >>= c.finish f
  | .signalKey cvKey signalCount =>
      c.serveReturning (c.scheduler.signalKeyImpl passFuel cvKey signalCount)
  | .waitForAddressIfEqual core waitAddress value absoluteTimeout =>
      c.serveCurrent core fun f =>
        c.scheduler.waitForAddressIfEqualImpl passFuel f waitAddress value absoluteTimeout >>=
          c.finish f
  | .waitForAddressIfLessThan core waitAddress value absoluteTimeout doDecrement =>
      c.serveCurrent core fun f =>
        c.scheduler.waitForAddressIfLessThanImpl passFuel f waitAddress value absoluteTimeout
          doDecrement >>= c.finish f
  | .wakeByAddress waitAddress count =>
      c.serveReturning (c.scheduler.wakeByAddressImpl passFuel waitAddress count)
  | .wakeByAddressIncrementEqual waitAddress value count =>
      c.serveReturning
        (c.scheduler.wakeByAddressIncrementEqualImpl passFuel waitAddress value count)
  | .wakeByAddressModifyLessThan waitAddress value count =>
      c.serveReturning
        (c.scheduler.wakeByAddressModifyLessThanImpl passFuel waitAddress value count)
  | .storeWord address value =>
      (c.scheduler.writeWord address value).toOption.map c.setScheduler
  | .pass core tick => c.perform (.pass core tick)
  | .startCore core => c.perform (.startCore core)
  | .wakeCore core => c.perform (.wakeCore core)

end SchedulerSystem

end DDFramework
