import DDFramework.Library.Machine
import Mathlib.Logic.Function.Basic

/-! `Event` of `sys_event.hpp` and the threads that use it. Each call holds `m_cs`, so a step is
a call, or what a woken thread does until it waits again or returns. The condition variable is
the list of the threads that wait on it. -/

namespace DDFramework

namespace Event

/-- Where a thread is. In `Wait` it has saved a wake id. -/
inductive Phase where
  | outside
  | inWait (wakeId : BitVec 32)
  deriving DecidableEq, Repr

inductive Action (ι : Type*) where
  /-- In the auto reset mode the condition variable wakes one waiting thread, if there is one.
  The choice is its own. -/
  | signal (woken : Option ι)
  | clear
  | wait (i : ι)
  /-- A woken thread has the critical section again and tests the condition of its loop. -/
  | test (i : ι)
  deriving DecidableEq, Repr

/-- The calls. -/
inductive Call where
  | signal
  | clear
  | wait
  deriving DecidableEq, Repr

/-- A call of `Wait`. -/
structure WaitCall where
  blocked : Bool
  /-- The event was signaled at the call. -/
  signaled : Bool
  deriving DecidableEq, Repr

structure System (ι : Type*) where
  signalState : BitVec 16
  autoResetMode : BitVec 16
  wakeId : BitVec 32
  /-- The threads that wait on `m_cv`. -/
  cv : List ι
  phase : ι → Phase
  /-- What an event is by its specification: whether it is signaled, and which threads in `Wait`
  a signal has released. Only read by statements; so are the calls, the latest one first, and the
  log of the calls of `Wait`. -/
  signaled : Bool
  released : ι → Bool
  calls : List Call
  waits : List WaitCall

variable {ι : Type*}

/-- The constructor `Event(create_signaled, auto_reset)`, which leaves `m_wake_id` as it is. -/
def start (createSignaled autoReset : Bool) (wakeId : BitVec 32) : System ι where
  signalState := if createSignaled then 1 else 0
  autoResetMode := if autoReset then 1 else 0
  wakeId := wakeId
  cv := []
  phase _ := .outside
  signaled := createSignaled
  released _ := false
  calls := []
  waits := []

namespace System

variable [DecidableEq ι]

def logCall (s : System ι) (call : Call) : System ι := { s with calls := call :: s.calls }

/-- `Signal` in the auto reset mode. By the specification it releases the woken thread, and
without one the event becomes signaled. -/
def signalOne (s : System ι) (woken : Option ι) : Option (System ι) :=
  match woken with
  | some i =>
    if i ∈ s.cv then
      some { s with cv := s.cv.erase i, released := Function.update s.released i true }
    else none
  | none => if s.cv = [] then some { s with signaled := true } else none

/-- `Signal` in the manual reset mode. By the specification it releases all the waiting threads,
and the event becomes signaled. -/
def signalAll (s : System ι) : System ι :=
  { s with
    wakeId := s.wakeId + 1
    cv := []
    signaled := true
    released := fun i => s.released i || decide (i ∈ s.cv) }

/-- By the specification `Wait` resets a signaled event in the auto reset mode. -/
def logWait (s : System ι) (blocked : Bool) : System ι :=
  { s with
    signaled := s.signaled && !decide (s.autoResetMode = 1)
    waits := s.waits ++ [⟨blocked, s.signaled⟩] }

/-- The wait on the condition variable, once the thread has saved the wake id. -/
def block (s : System ι) (i : ι) (wakeId : BitVec 32) : System ι :=
  { s with cv := s.cv ++ [i], phase := Function.update s.phase i (.inWait wakeId) }

def wait (s : System ι) (i : ι) : System ι :=
  if s.signalState = 1 then s.logWait false
  else { s.logWait true with released := Function.update s.released i false }.block i s.wakeId

/-- The test of the loop of `Wait`, and what follows it. -/
def test (s : System ι) (i : ι) (wakeId : BitVec 32) : System ι :=
  if wakeId = s.wakeId ∧ s.signalState = 0 then s.block i wakeId
  else
    { s with
      signalState := if s.autoResetMode = 1 then 0 else s.signalState
      phase := Function.update s.phase i .outside }

def next (s : System ι) : Action ι → Option (System ι)
  | .signal woken =>
    let s := s.logCall .signal
    if s.autoResetMode = 1 then s.signalOne woken else some s.signalAll
  | .clear => some { s.logCall .clear with signalState := 0, signaled := false }
  | .wait i => if s.phase i = .outside then some ((s.logCall .wait).wait i) else none
  | .test i =>
    match s.phase i with
    | .outside => none
    | .inWait wakeId => if i ∈ s.cv then none else some (s.test i wakeId)

end System

end Event

end DDFramework
