import DDFramework.Model.Scheduler

/-! The scheduler fiber: the timeout scan, the choice of a fiber, `Dispatch`, and
`Initialize`. -/

namespace DDFramework.UserScheduler

/-! ### `SchedulerFiberMain` -/

/-- One iteration of the timeout scan. -/
def timeoutStep (fuel : ℕ) (core : ℕ) (tick : BitVec 64) (node : Node) (s : UserScheduler) :
    Except Fault (LoopExit UserScheduler) := do
  let waitingFiber ← schedulerNodeParent node
  let (schedulable, s) ← s.isSchedulable fuel waitingFiber core tick
  if schedulable then do
    let s ← s.cancelWait fuel waitingFiber resultTimeout
    .ok (.next s)
  else .ok (.next s)

/-- The timeout scan at the head of `SchedulerFiberMain`. -/
def timeoutScan (fuel : ℕ) (s : UserScheduler) (core : ℕ) (tick : BitVec 64) :
    Except Fault UserScheduler :=
  rangeFor UserScheduler.links .schedulerWaitList (timeoutStep fuel core tick) fuel s

/-- One iteration over a run list; the second component is the fiber to dispatch. -/
def findSchedulableStep (fuel : ℕ) (core : ℕ) (tick : BitVec 64) (node : Node)
    (p : UserScheduler × Option FiberId) :
    Except Fault (LoopExit (UserScheduler × Option FiberId)) := do
  let runnableFiber ← schedulerNodeParent node
  let (schedulable, s) ← p.1.isSchedulable fuel runnableFiber core tick
  if schedulable then .ok (.stop (s, some runnableFiber)) else .ok (.next (s, none))

/-- The loop over one run list: the first fiber that may run on the core. -/
def findSchedulable (fuel : ℕ) (s : UserScheduler) (list : RunList) (core : ℕ)
    (tick : BitVec 64) : Except Fault (UserScheduler × Option FiberId) :=
  rangeFor (fun p : UserScheduler × Option FiberId => p.1.links) (.runList list)
    (findSchedulableStep fuel core tick) fuel (s, none)

/-- The run lists in the order of the scheduler pass. -/
def runListOrder : List RunList := [.high, .aboveNormal, .normal, .belowNormal, .low]

def findRunnable (fuel : ℕ) (core : ℕ) (tick : BitVec 64) :
    List RunList → UserScheduler → Except Fault (UserScheduler × Option FiberId)
  | [], s => .ok (s, none)
  | list :: lists, s => do
    match ← s.findSchedulable fuel list core tick with
    | (s, some f) => .ok (s, some f)
    | (s, none) => findRunnable fuel core tick lists s

/-- `Dispatch` up to the switch to the user fiber. -/
def dispatch (s : UserScheduler) (f : FiberId) (core : ℕ) : Except Fault UserScheduler :=
  let s := s.modifyFiber f fun r => { r with fiberState := .running, currentCore := core }
  if core < s.coreCount then .ok (s.unlink (.schedulerListNode f)) else .error .assertFailed

/-- `Dispatch` from the switch back to the scheduler fiber on. -/
def handlePreviousFiber (s : UserScheduler) (f : FiberId) (core : ℕ) :
    Except Fault UserScheduler :=
  if core ≠ (s.fibers f).currentCore then .error .assertFailed
  else
    match (s.fibers f).fiberState with
    | .running => .ok (s.addToSchedulerUnsafe f)
    | .exiting => do
      let allocator ← s.userFiberLocalAllocator.free f
      .ok { s with userFiberLocalAllocator := allocator }
    | .waiting => .ok s
    | _ => .error .assertFailed

/-- The core goes to rest; the last active core asserts that something is runnable. -/
def restCore (s : UserScheduler) : Except Fault UserScheduler :=
  let s := { s with activeCores := s.activeCores - 1 }
  if s.runnableFibers = 0 ∧ s.activeCores = 0 then .error .assertFailed else .ok s

/-- One pass from the restart label to the switch to a fiber, or to the rest of the core. -/
def schedulerPass (fuel : ℕ) (s : UserScheduler) (core : ℕ) (tick : BitVec 64) :
    Except Fault (UserScheduler × Option FiberId) := do
  let s ← s.timeoutScan fuel core tick
  match ← findRunnable fuel core tick runListOrder s with
  | (s, some f) => do
    let s ← s.dispatch f core
    .ok (s, some f)
  | (s, none) => do
    let s ← s.restCore
    .ok (s, none)

/-! ### `Initialize` -/

/-- The storage of `UserFiberLocalAllocator` before the first allocation. -/
def zeroFiber : FiberLocalStorage where
  priority := 0
  currentCore := 0
  coreMask := 0
  ukernFiberHandle := 0
  activityLevel := 0
  waitTag := 0
  lockAddress := 0
  waitAddress := 0
  waitableObject := none
  timeout := 0
  lastResult := 0
  fiberState := .scheduled

/-- The number of one bits in a core mask. -/
def countOneBits64 (value : BitVec 64) : ℕ := ((List.range 64).filter value.getLsbD).length

/-- The static scheduler object, all of whose lists are empty. -/
def staticInstance (words : Address → BitVec 32) : UserScheduler where
  fibers _ := zeroFiber
  links := Links.detached Node
  words := words
  handleTable := ⟨fun _ => 0, fun _ => none, 0, 0, 0⟩
  userFiberLocalAllocator := FixedObjectAllocator.construct maxThreadCount
  coreMask := 0
  coreCount := 0
  activeCores := 0
  runnableFibers := 0

/-- `Initialize` on the static instance; the main fiber is returned with the state. -/
def initializeScheduler (words : Address → BitVec 32) (coreMask : BitVec 64) :
    Except Fault (UserScheduler × FiberId) :=
  let coreCount := countOneBits64 coreMask
  let s := { staticInstance words with
    activeCores := BitVec.ofNat 32 coreCount
    coreCount := coreCount
    coreMask := coreMask
    handleTable := (staticInstance words).handleTable.initializeTable }
  match s.userFiberLocalAllocator.allocate with
  | (none, _) => .error .nullDereference
  | (some main, allocator) => do
    let s := { s with userFiberLocalAllocator := allocator }.constructFiber main
    let s := s.modifyFiber main fun r => { r with
      priority := 2
      currentCore := 0
      coreMask := 1
      fiberState := .running
      activityLevel := activityLevelSchedulable }
    match ← s.handleTable.reserveHandle (some main) with
    | (none, _) => .error .assertFailed
    | (some handle, table) =>
      .ok ({ s with handleTable := table }.modifyFiber main
        fun r => { r with ukernFiberHandle := handle }, main)

end DDFramework.UserScheduler
