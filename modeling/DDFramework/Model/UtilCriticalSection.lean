import DDFramework.Library.Machine
import Mathlib.Data.BitVec
import Mathlib.Logic.Function.Basic

/-! `CriticalSection` of `util_critsec.hpp` and `ConditionVariable` of `util_condvar.hpp`, with the
Win32 threads that use one section. The SRW lock is a lock that one thread holds. A step is one
access to the section, or one call on the lock. -/

namespace DDFramework

namespace UtilCriticalSection

/-- A thread by its `GetCurrentThreadId`, which is not zero. -/
structure Thread where
  id : BitVec 32
  id_ne_zero : id ≠ 0
  deriving DecidableEq

/-- `static_cast<size_t>(::GetCurrentThreadId())`. -/
def Thread.word (t : Thread) : BitVec 64 := t.id.setWidth 64

/-- Who calls `IsLockedByCurrentThread`. -/
inductive Check where
  /-- The assertion of `lock`. -/
  | lock
  /-- The assertion of `unlock`. -/
  | unlock
  | query
  deriving DecidableEq, Repr

/-- The access that a thread makes next. -/
inductive Phase where
  /-- Between two calls. -/
  | returned
  /-- In `IsLockedByCurrentThread`: the read of the value to exchange. -/
  | checkRead (check : Check)
  /-- In `IsLockedByCurrentThread`: `InterlockedCompareExchange`. -/
  | checkCompare (check : Check) (exchange : BitVec 64)
  /-- In `lock`: `AcquireSRWLockExclusive`. -/
  | lockAcquire
  | lockSetId
  | unlockClearId
  /-- In `unlock`: `ReleaseSRWLockExclusive`. -/
  | unlockRelease
  /-- In `try_lock`: `TryAcquireSRWLockExclusive`. -/
  | tryAcquire
  | trySetId
  /-- In `Wait` or `TimedWait`: `UnsetId`. -/
  | waitUnsetId
  /-- In `Wait`: `SleepConditionVariableSRW`, which releases the lock and sleeps in one step. -/
  | waitSleep (threadId : BitVec 64)
  | waitAsleep (threadId : BitVec 64)
  /-- In `SleepConditionVariableSRW`, awake again: the lock is taken back. -/
  | waitAcquire (threadId : BitVec 64)
  /-- In `Wait`: `SetId`. -/
  | waitSetId (threadId : BitVec 64)
  /-- The assertion has failed. -/
  | aborted (check : Check)
  deriving DecidableEq, Repr

/-- A return of `IsLockedByCurrentThread`. -/
structure Answer where
  returned : Bool
  inside : Bool
  deriving DecidableEq, Repr

structure System where
  /-- `m_srwlock` as the thread that holds it. -/
  holder : Option Thread
  lockedThreadId : BitVec 64
  phase : Thread → Phase
  /-- The thread has returned from `lock`, `Wait` or a successful `try_lock`, and has neither left
  the section nor started to wait since. Only read by statements. -/
  inside : Thread → Bool
  /-- Only read by statements. -/
  answers : List Answer

inductive Call where
  | lock
  | unlock
  | tryLock
  | isLockedByCurrentThread
  /-- `Wait` or `TimedWait`. -/
  | wait
  deriving DecidableEq, Repr

inductive Action where
  | call (t : Thread) (call : Call)
  | advance (t : Thread)
  /-- A sleeping thread wakes: by `Signal`, by `Broadcast`, by its timeout or for no reason. -/
  | wake (t : Thread)
  deriving DecidableEq

def start : System where
  holder := none
  lockedThreadId := 0
  phase _ := .returned
  inside _ := false
  answers := []

/-- The first access of a call. -/
def Call.phase : Call → Phase
  | .lock => .checkRead .lock
  | .unlock => .checkRead .unlock
  | .tryLock => .tryAcquire
  | .isLockedByCurrentThread => .checkRead .query
  | .wait => .waitUnsetId

namespace System

def goto (s : System) (t : Thread) (phase : Phase) : System :=
  { s with phase := Function.update s.phase t phase }

/-- The id is set, and the call returns. -/
def enter (s : System) (t : Thread) (threadId : BitVec 64) : System :=
  { s with lockedThreadId := threadId, inside := Function.update s.inside t true }.goto t .returned

/-- The id is set to zero. -/
def leave (s : System) (t : Thread) (phase : Phase) : System :=
  { s with lockedThreadId := 0, inside := Function.update s.inside t false }.goto t phase

def take (s : System) (t : Thread) (phase : Phase) : Option System :=
  if s.holder = none then some ({ s with holder := some t }.goto t phase) else none

def release (s : System) (t : Thread) (phase : Phase) : System :=
  { s with holder := none }.goto t phase

/-- `IsLockedByCurrentThread` returns to its caller. -/
def checked (s : System) (t : Thread) (check : Check) (result : Bool) : System :=
  match check with
  | .lock => s.goto t (if result == false then .lockAcquire else .aborted .lock)
  | .unlock => s.goto t (if result == true then .unlockClearId else .aborted .unlock)
  | .query => { s with answers := s.answers ++ [Answer.mk result (s.inside t)] }.goto t .returned

/-- The next access of a thread that is in a call and awake. -/
def advance (s : System) (t : Thread) : Option System :=
  match s.phase t with
  | .returned => none
  | .checkRead check => some (s.goto t (.checkCompare check s.lockedThreadId))
  | .checkCompare check exchange =>
    let result := t.word == s.lockedThreadId
    let s := if result then { s with lockedThreadId := exchange } else s
    some (s.checked t check result)
  | .lockAcquire => s.take t .lockSetId
  | .lockSetId => some (s.enter t t.word)
  | .unlockClearId => some (s.leave t .unlockRelease)
  | .unlockRelease => some (s.release t .returned)
  | .tryAcquire =>
    if s.holder = none then s.take t .trySetId else some (s.goto t .returned)
  | .trySetId => some (s.enter t t.word)
  | .waitUnsetId => some (s.leave t (.waitSleep s.lockedThreadId))
  | .waitSleep threadId => some (s.release t (.waitAsleep threadId))
  | .waitAsleep _ => none
  | .waitAcquire threadId => s.take t (.waitSetId threadId)
  | .waitSetId threadId => some (s.enter t threadId)
  | .aborted _ => none

def next (s : System) : Action → Option System
  | .call t call => if s.phase t = .returned then some (s.goto t call.phase) else none
  | .advance t => s.advance t
  | .wake t =>
    match s.phase t with
    | .waitAsleep threadId => some (s.goto t (.waitAcquire threadId))
    | _ => none

end System

end UtilCriticalSection

end DDFramework
