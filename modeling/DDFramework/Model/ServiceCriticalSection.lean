import DDFramework.Library.Machine
import Mathlib.Logic.Function.Basic

/-! `ServiceCriticalSection` of `sys_servicecriticalsection.hpp` and its callers, which are
fibers and plain Win32 threads. The SRW lock is a lock that one caller holds. A step is one
call on the lock or on the scheduler. -/

namespace DDFramework

namespace ServiceCriticalSection

/-- The call that a caller makes next. -/
inductive Phase where
  | outside
  /-- In `Enter`: `AcquireSRWLockExclusive`. -/
  | acquiring
  /-- In `Enter`: `TryAcquireSRWLockExclusive`. -/
  | trying
  /-- In `Enter`: in `WaitOnAddress`. -/
  | waiting
  | inside
  /-- In `Leave`: `WakeByAddress`. -/
  | waking
  deriving DecidableEq, Repr

/-- A call of `ReleaseSRWLockExclusive`. -/
structure Release (ι : Type*) where
  caller : ι
  /-- The caller that holds the lock at the call. -/
  holder : Option ι
  deriving DecidableEq, Repr

structure System (ι : Type*) where
  /-- `m_win32_lock` as the caller that holds it. -/
  holder : Option ι
  phase : ι → Phase
  /-- Only read by statements. -/
  releases : List (Release ι)

inductive Action (ι : Type*) where
  | enter (i : ι)
  | acquire (i : ι)
  | tryAcquire (i : ι)
  /-- `WaitOnAddress` returns. Nothing writes `m_wait_value`, so it has waited; which of the
  waiting fibers a `WakeByAddress` lets go is left open. -/
  | resume (i : ι)
  | leave (i : ι)
  | wake (i : ι)
  deriving DecidableEq, Repr

variable {ι : Type*}

def start : System ι where
  holder := none
  phase _ := .outside
  releases := []

namespace System

variable [DecidableEq ι]

def goto (s : System ι) (i : ι) (phase : Phase) : System ι :=
  { s with phase := Function.update s.phase i phase }

/-- One round of the loop of `Enter`. The function returns when the result is `false`, as in
the source. -/
def tryAcquire (s : System ι) (i : ι) : System ι :=
  let result := decide (s.holder = none)
  let s := if result then { s with holder := some i } else s
  if result == false then s.goto i .inside else s.goto i .waiting

/-- `ReleaseSRWLockExclusive` frees the lock, whoever calls it. -/
def release (s : System ι) (i : ι) : System ι :=
  { s with holder := none, releases := s.releases ++ [⟨i, s.holder⟩] }

/-- A caller leaves only what it has entered. `isFiber` tells for which callers
`GetCurrentThread` is not null. -/
def next (isFiber : ι → Bool) (s : System ι) : Action ι → Option (System ι)
  | .enter i =>
    if s.phase i = .outside then some (s.goto i (if isFiber i then .trying else .acquiring))
    else none
  | .acquire i =>
    if s.phase i = .acquiring ∧ s.holder = none then
      some ({ s with holder := some i }.goto i .inside)
    else none
  | .tryAcquire i => if s.phase i = .trying then some (s.tryAcquire i) else none
  | .resume i => if s.phase i = .waiting then some (s.goto i .trying) else none
  | .leave i => if s.phase i = .inside then some ((s.release i).goto i .waking) else none
  | .wake i => if s.phase i = .waking then some (s.goto i .outside) else none

end System

end ServiceCriticalSection

end DDFramework
