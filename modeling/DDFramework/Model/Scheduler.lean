import DDFramework.Model.Fiber

/-! The scheduler-locked operations of `ukern_scheduler.cpp`, with the waitable
objects they call. Every loop over a list takes the number of iterator comparisons
it may make. -/

namespace DDFramework.UserScheduler

/-! ### `AddToSchedulerUnsafe` and the end of a wait -/

/-- The run list of a stored priority; other values are in no list. -/
def runListOf (priority : ℤ) : Option RunList :=
  if priority = 2 then some .normal
  else if priority = 3 then some .aboveNormal
  else if priority = 1 then some .belowNormal
  else if priority = 4 then some .high
  else if priority = 0 then some .low
  else none

def addToSchedulerUnsafe (s : UserScheduler) (f : FiberId) : UserScheduler :=
  if (s.fibers f).activityLevel = activityLevelSuspended then
    (s.modifyFiber f fun r => { r with fiberState := .suspended }).pushBack
      .suspendedList (.schedulerListNode f)
  else
    let s := match runListOf (s.fibers f).priority with
      | some list => s.pushBack (.runList list) (.schedulerListNode f)
      | none => s
    { s.modifyFiber f fun r => { r with fiberState := .scheduled } with
      runnableFibers := s.runnableFibers + 1 }

def endFiberWaitImpl (s : UserScheduler) (f : FiberId) (result : Result) : UserScheduler :=
  let s := s.unlink (.schedulerListNode f)
  let s := s.modifyFiber f fun r => { r with fiberState := .scheduled, lastResult := result }
  s.addToSchedulerUnsafe f

/-- The virtual call `waitable_object->EndWait`; the three overrides are the same. -/
def endWait (s : UserScheduler) (f : FiberId) (result : Result) : Except Fault UserScheduler :=
  match (s.fibers f).waitableObject with
  | none => .error .nullDereference
  | some _ => .ok (s.endFiberWaitImpl f result)

/-! ### Moving the waiters of a fiber -/

/-- One iteration of the loop that moves waiters to `dst`. It touches the list nodes only,
so it does not stop at a list head. -/
def transferStep (dst : FiberId) (node : Node) (s : UserScheduler) :
    Except Fault (LoopExit UserScheduler) :=
  .ok (.next ((s.unlink node).pushBack (.fiberWaitList dst) node))

/-- The loop that moves every element of the `wait_list` of `src` to that of `dst`. -/
def transferWaitList (fuel : ℕ) (s : UserScheduler) (src dst : FiberId) :
    Except Fault UserScheduler :=
  rangeFor UserScheduler.links (.fiberWaitList src) (transferStep dst) fuel s

def releaseLockWaitListUnsafe (fuel : ℕ) (s : UserScheduler) (f : FiberId) :
    Except Fault UserScheduler :=
  if s.links.isEmpty (.fiberWaitList f) then .error .assertFailed
  else do
    let (front, links) := s.links.popFront (.fiberWaitList f)
    let s := { s with links := links }
    let nextOwner ← waitNodeParent front
    let waitTag := (s.fibers nextOwner).waitTag
    let s ← s.writeWord (s.fibers nextOwner).lockAddress
      (if s.links.isEmpty (.fiberWaitList f) then waitTag else waitTag ||| hasChildWaitersBit)
    let s := s.modifyFiber nextOwner fun r => { r with lockAddress := 0, waitTag := 0 }
    let s ← s.transferWaitList fuel f nextOwner
    let s ← s.endWait nextOwner resultSuccess
    .ok (s.modifyFiber nextOwner fun r => { r with waitableObject := none })

/-- The end of the wake and signal functions: the first remaining waiter becomes the
entry of `m_wait_list` and takes over the others. -/
def promoteWaiter (fuel : ℕ) (s : UserScheduler) (f : FiberId) : Except Fault UserScheduler :=
  if s.links.isEmpty (.fiberWaitList f) then .ok s
  else do
    let (front, links) := s.links.popFront (.fiberWaitList f)
    let s := { s with links := links }
    let nextParent ← waitNodeParent front
    let s ← s.transferWaitList fuel f nextParent
    let s := s.unlink (.schedulerListNode f)
    .ok (s.pushBack .schedulerWaitList (.schedulerListNode nextParent))

/-! ### `CancelWait` -/

/-- The second half of `KeyArbiter::CancelWait`. The fiber moved to the suspended list
is the owner of the lock, as in the source. -/
def retakeLock (s : UserScheduler) (f : FiberId) (result : Result) :
    Except Fault UserScheduler := do
  let lockAddress := (s.fibers f).lockAddress
  let prevTag ← s.readWord lockAddress
  let waitTag := (s.fibers f).waitTag
  let s ← s.writeWord lockAddress
    (if prevTag ≠ 0 then waitTag ||| hasChildWaitersBit else waitTag)
  if prevTag ≠ 0 then
    match ← s.getFiberByHandle (prevTag &&& ~~~hasChildWaitersBit) with
    | none => .error .nullDereference
    | some lockFiber =>
      let s := s.pushBack (.fiberWaitList lockFiber) (.waitListNode f)
      let s := s.unlink (.schedulerListNode lockFiber)
      .ok (s.pushBack .suspendedList (.schedulerListNode lockFiber))
  else .ok (s.endFiberWaitImpl f result)

def keyArbiterCancelWait (fuel : ℕ) (s : UserScheduler) (f : FiberId) (result : Result) :
    Except Fault UserScheduler :=
  if !s.links.isEmpty (.fiberWaitList f) then do
    let (front, links) := s.links.popFront (.fiberWaitList f)
    let s := { s with links := links }
    let nextParent ← waitNodeParent front
    let s ← s.transferWaitList fuel f nextParent
    s.retakeLock f result
  else if s.links.isLinked (.waitListNode f) then
    (s.unlink (.waitListNode f)).retakeLock f result
  else .ok (s.endFiberWaitImpl f result)

/-- The virtual call `waitable_object->CancelWait`. -/
def cancelWait (fuel : ℕ) (s : UserScheduler) (f : FiberId) (result : Result) :
    Except Fault UserScheduler :=
  match (s.fibers f).waitableObject with
  | none => .error .nullDereference
  | some .lockArbiter => .error .assertFailed
  | some .keyArbiter => s.keyArbiterCancelWait fuel f result
  | some .waitAddressArbiter => .ok (s.endFiberWaitImpl f result)

/-! ### `FiberLocalStorage::IsSchedulable` -/

/-- The `int` expression `1 << core`, converted to `u64`. The shift count is taken
modulo 32, as the target does. -/
def coreBit (core : ℕ) : BitVec 64 := ((1 : BitVec 32) <<< (core % 32)).signExtend 64

def isSchedulable (fuel : ℕ) (s : UserScheduler) (f : FiberId) (core : ℕ) (time : BitVec 64) :
    Except Fault (Bool × UserScheduler) :=
  let r := s.fibers f
  if r.fiberState ≠ .scheduled then .ok (false, s)
  else if r.coreMask &&& coreBit core = 0 then .ok (false, s)
  else if r.waitableObject.isSome ∧ r.timeout < time then do
    let s ← s.cancelWait fuel f resultTimeout
    .ok (true, s)
  else if r.timeout < time then .ok (true, s)
  else .ok (false, s)

/-! ### Thread operations -/

/-- What a scheduler-locked call does in the end: it returns a result, or it switches to
the scheduler fiber. After the switch back a call returns its result if that is an
error, else the fiber's `last_result`. -/
inductive CallExit where
  | returns (result : Result)
  | switches (result : Result)
  deriving DecidableEq, Repr

/-- The value that a switched call returns once its fiber runs again. -/
def resumedResult (s : UserScheduler) (current : FiberId) (result : Result) : Result :=
  if result = resultSuccess then (s.fibers current).lastResult else result

/-- `std::construct_at` on the storage of a fiber resets its list nodes only. -/
def constructFiber (s : UserScheduler) (f : FiberId) : UserScheduler :=
  { s with links := ((s.links.construct (.schedulerListNode f)).construct
      (.waitListNode f)).construct (.fiberWaitList f) }

/-- The created handle is the second component of the result. -/
def createThreadImpl (s : UserScheduler) (threadFunc : Address) (stackSize : ℕ) (priority : ℤ)
    (coreId : ℕ) : Except Fault ((Result × Option UKernHandle) × UserScheduler) :=
  if threadFunc = 0 then .ok ((resultInvalidThreadFunctionPointer, none), s)
  else if stackSize = 0 then .ok ((resultInvalidStackSize, none), s)
  else if ¬ (-2 ≤ priority ∧ priority ≤ 2) then .ok ((resultInvalidPriority, none), s)
  else if coreBit coreId &&& s.coreMask = 0 then .ok ((resultInvalidCoreId, none), s)
  else
    match s.userFiberLocalAllocator.allocate with
    | (none, _) => .ok ((resultThreadStorageExhaustion, none), s)
    | (some f, allocator) => do
      let s := { s with userFiberLocalAllocator := allocator }.constructFiber f
      let (handle, table) ← s.handleTable.reserveHandle (some f)
      let s := { s with handleTable := table }
      match handle with
      | none => .ok ((resultHandleExhaustion, none), s)
      | some handle =>
        let s := s.modifyFiber f fun r => { r with
          ukernFiberHandle := handle
          priority := priority + 2
          coreMask := coreBit coreId
          fiberState := .suspended
          activityLevel := activityLevelSuspended }
        .ok ((resultSuccess, some handle), s.pushBack .suspendedList (.schedulerListNode f))

/-- The rescheduling step of the setters. -/
def reschedule (s : UserScheduler) (f : FiberId) : UserScheduler :=
  (s.unlink (.schedulerListNode f)).addToSchedulerUnsafe f

/-- The range check refuses the five priorities of `CreateThreadImpl`, and the value is
stored without their offset, as in the source. -/
def setPriorityImpl (s : UserScheduler) (handle : UKernHandle) (priority : ℤ) :
    Except Fault (Result × UserScheduler) :=
  if -2 ≤ priority ∧ priority ≤ 2 then .ok (resultInvalidPriority, s)
  else do
    match ← s.getFiberByHandle handle with
    | none => .ok (resultInvalidHandle, s)
    | some f =>
      if (s.fibers f).priority = priority then .ok (resultSamePriority, s)
      else
        let s := s.modifyFiber f fun r => { r with priority := priority }
        if (s.fibers f).fiberState = .scheduled then .ok (resultSuccess, s.reschedule f)
        else .ok (resultSuccess, s)

def setCoreMaskImpl (s : UserScheduler) (handle : UKernHandle) (coreMask : BitVec 64) :
    Except Fault (Result × UserScheduler) := do
  match ← s.getFiberByHandle handle with
  | none => .ok (resultInvalidHandle, s)
  | some f =>
    if (s.fibers f).coreMask = coreMask then .ok (resultSameCoreMask, s)
    else
      let s := s.modifyFiber f fun r => { r with coreMask := coreMask }
      if (s.fibers f).fiberState = .scheduled then .ok (resultSuccess, s.reschedule f)
      else .ok (resultSuccess, s)

def setActivityImpl (s : UserScheduler) (handle : UKernHandle) (activityLevel : BitVec 16) :
    Except Fault (Result × UserScheduler) := do
  match ← s.getFiberByHandle handle with
  | none => .ok (resultInvalidHandle, s)
  | some f =>
    if (s.fibers f).activityLevel = activityLevel then .ok (resultSameActivityLevel, s)
    else
      let s := s.modifyFiber f fun r => { r with activityLevel := activityLevel }
      if (s.fibers f).fiberState = .scheduled ∨ (s.fibers f).fiberState = .suspended then
        .ok (resultSuccess, s.reschedule f)
      else .ok (resultSuccess, s)

def sleepThreadImpl (s : UserScheduler) (current : FiberId) (absoluteTimeout : BitVec 64) :
    UserScheduler :=
  if absoluteTimeout ≠ 0 then s.modifyFiber current fun r => { r with timeout := absoluteTimeout }
  else s

def exitFiberImpl (s : UserScheduler) (current : FiberId) : UserScheduler :=
  s.modifyFiber current fun r => { r with fiberState := .exiting }

/-- The test of the loop of `ExitThreadImpl`, which calls `SleepThreadImpl` while the handle
has a fiber. -/
def exitThreadWaits (s : UserScheduler) (handle : UKernHandle) : Except Fault Bool := do
  let exitFiber ← s.getFiberByHandle handle
  .ok exitFiber.isSome

/-! ### Locks -/

def arbitrateLockImpl (s : UserScheduler) (current : FiberId) (handle : UKernHandle)
    (lockAddress : Address) (tag : BitVec 32) : Except Fault (CallExit × UserScheduler) :=
  if lockAddress = 0 then .ok (.returns resultInvalidAddress, s)
  else do
    match ← s.getFiberByHandle handle with
    | none => .ok (.returns resultInvalidHandle, s)
    | some handleFiber =>
      if handleFiber = current then .ok (.returns resultInvalidHandle, s)
      else if s.words lockAddress ≠ handle ||| hasChildWaitersBit then
        .ok (.returns resultInvalidLockAddressValue, s)
      else
        let s := s.modifyFiber current fun r => { r with
          waitableObject := some .lockArbiter
          lockAddress := lockAddress
          waitTag := tag
          fiberState := .waiting }
        let s := s.pushBack (.fiberWaitList handleFiber) (.waitListNode current)
        let s := s.unlink (.schedulerListNode current)
        .ok (.switches resultSuccess, s.pushBack .suspendedList (.schedulerListNode current))

def arbitrateUnlockImpl (fuel : ℕ) (s : UserScheduler) (current : FiberId)
    (lockAddress : Address) : Except Fault (Result × UserScheduler) :=
  if lockAddress = 0 then .ok (resultInvalidAddress, s)
  else if s.links.isEmpty (.fiberWaitList current) then .ok (resultRequiresLock, s)
  else if (s.fibers current).ukernFiberHandle ≠ s.words lockAddress &&& ~~~hasChildWaitersBit then
    .ok (resultInvalidLockAddressValue, s)
  else do
    let s ← s.releaseLockWaitListUnsafe fuel current
    .ok (resultSuccess, s)

/-! ### Condition variables -/

/-- One iteration of the search of `WaitKeyImpl` for a parent. -/
def joinKeyStep (current : FiberId) (cvKey : Address) (node : Node) (s : UserScheduler) :
    Except Fault (LoopExit UserScheduler) := do
  let waitingFiber ← schedulerNodeParent node
  if (s.fibers waitingFiber).waitAddress = cvKey then
    .ok (.stop (s.pushBack (.fiberWaitList waitingFiber) (.waitListNode current)))
  else .ok (.next s)

/-- The wait state of the caller, which is not set when the deadline is zero. -/
def storeKeyWait (s : UserScheduler) (current : FiberId) (lockAddress cvKey : Address)
    (tag : BitVec 32) (absoluteTimeout : BitVec 64) : UserScheduler :=
  if absoluteTimeout = 0 then s
  else s.modifyFiber current fun r => { r with
    waitableObject := some .keyArbiter
    waitAddress := cvKey
    lockAddress := lockAddress
    waitTag := tag
    fiberState := .waiting
    timeout := absoluteTimeout }

/-- "If no parent, become the parent". The test of the source is true for a fiber that did
find a parent. -/
def becomeKeyParent (s : UserScheduler) (current : FiberId) : UserScheduler :=
  if s.links.isLinked (.waitListNode current) then
    (s.unlink (.schedulerListNode current)).pushBack .schedulerWaitList
      (.schedulerListNode current)
  else s

def waitKeyImpl (fuel : ℕ) (s : UserScheduler) (current : FiberId) (lockAddress cvKey : Address)
    (tag : BitVec 32) (absoluteTimeout : BitVec 64) : Except Fault (CallExit × UserScheduler) :=
  if lockAddress = 0 then .ok (.returns resultInvalidAddress, s)
  else if cvKey = 0 then .ok (.returns resultInvalidAddress, s)
  else if s.links.isEmpty (.fiberWaitList current) then .ok (.returns resultRequiresLock, s)
  else if (s.fibers current).ukernFiberHandle ≠ s.words lockAddress then
    .ok (.returns resultInvalidLockAddressValue, s)
  else do
    let s ← s.releaseLockWaitListUnsafe fuel current
    let s ← s.writeWord cvKey 1
    let result := if absoluteTimeout = 0 then resultTimeout else resultSuccess
    let s := s.storeKeyWait current lockAddress cvKey tag absoluteTimeout
    let s ← rangeFor UserScheduler.links .schedulerWaitList (joinKeyStep current cvKey) fuel s
    .ok (.switches result, s.becomeKeyParent current)

/-- The fiber looked up in the contended case has the handle `~HasChildWaitersBit`. -/
def swapLockForSignalKey (s : UserScheduler) (f : FiberId) : Except Fault UserScheduler := do
  let lockAddress := (s.fibers f).lockAddress
  let prevTag ← s.readWord lockAddress
  let waitTag := (s.fibers f).waitTag
  let s ← s.writeWord lockAddress
    (if prevTag ≠ 0 then waitTag ||| hasChildWaitersBit else waitTag)
  if prevTag ≠ 0 then
    match ← s.getFiberByHandle (~~~hasChildWaitersBit) with
    | none => .error .nullDereference
    | some lockFiber => .ok (s.pushBack (.fiberWaitList lockFiber) (.waitListNode f))
  else s.endWait f resultSuccess

/-- One iteration of the search for an address; the second component is the result. -/
def findWaiterStep (address : Address) (node : Node) (p : UserScheduler × Option FiberId) :
    Except Fault (LoopExit (UserScheduler × Option FiberId)) := do
  let waitingFiber ← schedulerNodeParent node
  if (p.1.fibers waitingFiber).waitAddress = address then .ok (.stop (p.1, some waitingFiber))
  else .ok (.next p)

/-- The first fiber of `m_wait_list` that waits on the address. -/
def findWaiter (fuel : ℕ) (s : UserScheduler) (address : Address) :
    Except Fault (Option FiberId) := do
  let (_, found) ← rangeFor (fun p : UserScheduler × Option FiberId => p.1.links)
    .schedulerWaitList (findWaiterStep address) fuel (s, none)
  .ok found

/-- One iteration over the children of the signalled entry; the second component is `i`. -/
def signalStep (signalCount : BitVec 32) (node : Node) (p : UserScheduler × BitVec 32) :
    Except Fault (LoopExit (UserScheduler × BitVec 32)) :=
  if signalCount ≤ p.2 then .ok (.stop p)
  else do
    let s := p.1.unlink node
    let waitingFiber ← waitNodeParent node
    let s ← s.swapLockForSignalKey waitingFiber
    .ok (.next (s, p.2 + 1))

/-- The loop of `SignalKeyImpl` over the children of `cvFiber`. -/
def signalChildren (fuel : ℕ) (s : UserScheduler) (cvFiber : FiberId)
    (signalCount : BitVec 32) : Except Fault UserScheduler := do
  let (s, _) ← rangeFor (fun p : UserScheduler × BitVec 32 => p.1.links)
    (.fiberWaitList cvFiber) (signalStep signalCount) fuel (s, 1)
  .ok s

def signalKeyImpl (fuel : ℕ) (s : UserScheduler) (cvKey : Address) (signalCount : BitVec 32) :
    Except Fault (Result × UserScheduler) :=
  if cvKey = 0 then .ok (resultInvalidAddress, s)
  else if signalCount = 0 then do
    let s ← s.writeWord cvKey 0
    .ok (resultSuccess, s)
  else do
    match ← s.findWaiter fuel cvKey with
    | none => .ok (resultInvalidAddress, s)
    | some cvFiber =>
      let s ← s.swapLockForSignalKey cvFiber
      let s ← s.signalChildren fuel cvFiber signalCount
      let s ← s.promoteWaiter fuel cvFiber
      let s ← s.writeWord cvKey 0
      .ok (resultSuccess, s)

/-! ### Waiting on addresses -/

/-- The common last branch of the two wait functions. -/
def blockOnAddress (fuel : ℕ) (s : UserScheduler) (current : FiberId) (waitAddress : Address)
    (absoluteTimeout : BitVec 64) : Except Fault UserScheduler := do
  let s := s.modifyFiber current fun r => { r with
    waitableObject := some .waitAddressArbiter
    waitAddress := waitAddress
    fiberState := .waiting
    timeout := absoluteTimeout }
  match ← s.findWaiter fuel waitAddress with
  | none => .ok (s.pushBack .schedulerWaitList (.schedulerListNode current))
  | some addressFiber =>
    .ok (s.pushBack (.fiberWaitList addressFiber) (.waitListNode current))

def waitForAddressIfEqualImpl (fuel : ℕ) (s : UserScheduler) (current : FiberId)
    (waitAddress : Address) (value : BitVec 32) (absoluteTimeout : BitVec 64) :
    Except Fault (CallExit × UserScheduler) :=
  if waitAddress = 0 then .ok (.returns resultInvalidAddress, s)
  else if s.words waitAddress ≠ value then .ok (.switches resultInvalidWaitAddressValue, s)
  else if absoluteTimeout.toInt ≤ 0 then .ok (.switches resultTimeout, s)
  else do
    let s ← s.blockOnAddress fuel current waitAddress absoluteTimeout
    .ok (.switches resultSuccess, s)

def waitForAddressIfLessThanImpl (fuel : ℕ) (s : UserScheduler) (current : FiberId)
    (waitAddress : Address) (value : BitVec 32) (absoluteTimeout : BitVec 64)
    (doDecrement : Bool) : Except Fault (CallExit × UserScheduler) :=
  if waitAddress = 0 then .ok (.returns resultInvalidAddress, s)
  else do
    let waitValue := s.words waitAddress
    let s ← (if doDecrement then s.writeWord waitAddress (waitValue - 1) else .ok s)
    if value ≤ waitValue then .ok (.switches resultInvalidWaitAddressValue, s)
    else if absoluteTimeout.toInt ≤ 0 then .ok (.switches resultTimeout, s)
    else do
      let s ← s.blockOnAddress fuel current waitAddress absoluteTimeout
      .ok (.switches resultSuccess, s)

/-! ### Waking by address -/

/-- One iteration over the children of the woken entry; the second component is `i`. -/
def wakeStep (count : BitVec 32) (node : Node) (p : UserScheduler × BitVec 32) :
    Except Fault (LoopExit (UserScheduler × BitVec 32)) :=
  if count < p.2 then .ok (.stop p)
  else do
    let waitingFiber ← waitNodeParent node
    let s ← p.1.endWait waitingFiber resultSuccess
    .ok (.next (s.unlink (.waitListNode waitingFiber), p.2 + 1))

/-- The loop of the three wake functions over the children of `addressFiber`. -/
def wakeChildren (fuel : ℕ) (s : UserScheduler) (addressFiber : FiberId) (count : BitVec 32) :
    Except Fault UserScheduler := do
  let (s, _) ← rangeFor (fun p : UserScheduler × BitVec 32 => p.1.links)
    (.fiberWaitList addressFiber) (wakeStep count) fuel (s, 1)
  .ok s

/-- The part that the three wake functions share, from the release of the parent on. A
null `address_fiber` is dereferenced here. -/
def releaseWaiters (fuel : ℕ) (s : UserScheduler) (addressFiber : Option FiberId)
    (count : BitVec 32) : Except Fault UserScheduler :=
  match addressFiber with
  | none => .error .nullDereference
  | some addressFiber => do
    let s ← s.endWait addressFiber resultSuccess
    let s ← s.wakeChildren fuel addressFiber count
    s.promoteWaiter fuel addressFiber

def wakeByAddressImpl (fuel : ℕ) (s : UserScheduler) (waitAddress : Address)
    (count : BitVec 32) : Except Fault (Result × UserScheduler) :=
  if waitAddress = 0 then .ok (resultInvalidAddress, s)
  else if count = 0 then .ok (resultSuccess, s)
  else do
    let addressFiber ← s.findWaiter fuel waitAddress
    if addressFiber.isNone then .ok (resultNoWaiters, s)
    else
      let s ← s.releaseWaiters fuel addressFiber count
      .ok (resultSuccess, s)

def wakeByAddressIncrementEqualImpl (fuel : ℕ) (s : UserScheduler) (waitAddress : Address)
    (value count : BitVec 32) : Except Fault (Result × UserScheduler) :=
  if waitAddress = 0 then .ok (resultInvalidAddress, s)
  else if s.words waitAddress ≠ value then .ok (resultValueOutOfRange, s)
  else do
    let s ← s.writeWord waitAddress (value + 1)
    let addressFiber ← s.findWaiter fuel waitAddress
    let s ← s.releaseWaiters fuel addressFiber count
    .ok (resultSuccess, s)

/-- One iteration of the counting loop. -/
def countStep (_ : Node) (p : UserScheduler × BitVec 32) :
    Except Fault (LoopExit (UserScheduler × BitVec 32)) :=
  .ok (.next (p.1, p.2 + 1))

/-- The counting loop of `WakeByAddressModifyLessThanImpl`. -/
def countWaiters (fuel : ℕ) (s : UserScheduler) (addressFiber : FiberId) :
    Except Fault (BitVec 32) := do
  let (_, i) ← rangeFor (fun p : UserScheduler × BitVec 32 => p.1.links)
    (.fiberWaitList addressFiber) countStep fuel (s, 1)
  .ok i

/-- The value that `WakeByAddressModifyLessThanImpl` adds to the word. -/
def signalValue (fuel : ℕ) (s : UserScheduler) (addressFiber : Option FiberId)
    (count : BitVec 32) : Except Fault (BitVec 32) :=
  match addressFiber with
  | none => .ok 1
  | some f =>
    if 0 < count then do
      let waiters ← s.countWaiters fuel f
      .ok (if waiters < count then -1 else 0)
    else .ok (-1)

def wakeByAddressModifyLessThanImpl (fuel : ℕ) (s : UserScheduler) (waitAddress : Address)
    (value count : BitVec 32) : Except Fault (Result × UserScheduler) :=
  if waitAddress = 0 then .ok (resultInvalidAddress, s)
  else if s.words waitAddress ≠ value then .ok (resultValueOutOfRange, s)
  else do
    let addressFiber ← s.findWaiter fuel waitAddress
    let signal ← s.signalValue fuel addressFiber count
    let s ← (if signal ≠ 0 then s.writeWord waitAddress (value + signal) else .ok s)
    let s ← s.releaseWaiters fuel addressFiber count
    .ok (resultSuccess, s)

end DDFramework.UserScheduler
