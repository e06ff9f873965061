import DDFramework.Library.Machine
import Mathlib.Data.BitVec
import Mathlib.Logic.Function.Basic

/-! `ServiceEvent` of `sys_serviceevent.hpp` and its callers, which are fibers and plain Win32
threads. The Win32 event is a manual-reset event. A step is one access to `m_signal_state`, or one
call on the event or on the scheduler. -/

namespace DDFramework

namespace ServiceEvent

/-- The access or the call that a caller makes next. -/
inductive Phase where
  /-- Between two calls. -/
  | returned
  /-- In `Wait`: the read of `m_signal_state`. -/
  | waitCheck
  /-- In `Wait`: `WaitOnAddress` or `WaitForSingleObject`. -/
  | waitCall
  /-- In `Wait`: blocked in one of the two. -/
  | waiting
  /-- In `Signal`: the write of `m_signal_state`. -/
  | signalState
  /-- In `Signal`: `WakeByAddress`. -/
  | signalWake
  /-- In `Signal`: `SetEvent`. -/
  | signalSet
  /-- In `Reset`: `ResetEvent`. -/
  | resetEvent
  /-- In `Reset`: the write of `m_signal_state`. -/
  | resetState
  deriving DecidableEq, Repr

inductive Call where
  | wait
  | signal
  | reset
  deriving DecidableEq, Repr

/-- The first access of a call. -/
def Call.phase : Call → Phase
  | .wait => .waitCheck
  | .signal => .signalState
  | .reset => .resetEvent

/-- In `Signal`, after the first access and before the last. -/
def Phase.Signals (phase : Phase) : Prop := phase = .signalWake ∨ phase = .signalSet
  deriving Decidable

/-- In `Reset`, after the first access and before the last. -/
def Phase.Resets (phase : Phase) : Prop := phase = .resetState
  deriving Decidable

structure System (ι : Type*) where
  signalState : BitVec 32
  /-- The state of `m_win32_event_handle`. -/
  win32Event : Bool
  phase : ι → Phase
  /-- The `Signal` or `Reset` that has made its first access last. Only read by statements. -/
  latest : Option Call
  /-- It began while a call of the other of the two was between its accesses. Only read by
  statements. -/
  overlapped : Prop

inductive Action (ι : Type*) where
  | call (i : ι) (call : Call)
  /-- The next access or call. Only `WakeByAddress` looks at the fibers that the scheduler lets
  go. -/
  | advance (i : ι) (woken : ι → Bool)

variable {ι : Type*}

/-- After `Initialize`, with the state zero. -/
def start : System ι where
  signalState := 0
  win32Event := false
  phase _ := .returned
  latest := none
  overlapped := False

namespace System

/-- The waiting callers with the property return. -/
def resume (s : System ι) (released : ι → Bool) : System ι :=
  { s with phase := fun j =>
    if s.phase j = .waiting ∧ released j then .returned else s.phase j }

variable [DecidableEq ι]

def goto (s : System ι) (i : ι) (phase : Phase) : System ι :=
  { s with phase := Function.update s.phase i phase }

/-- `isFiber` tells for which callers `GetCurrentThread` is not null. -/
def advance (isFiber : ι → Bool) (s : System ι) (i : ι) (woken : ι → Bool) : Option (System ι) :=
  match s.phase i with
  | .returned => none
  | .waitCheck => some (s.goto i (if s.signalState = 1 then .returned else .waitCall))
  | .waitCall =>
    if isFiber i then
      some (s.goto i (if 1 ≤ s.signalState then .returned else .waiting))
    else some (s.goto i (if s.win32Event then .returned else .waiting))
  | .waiting => none
  | .signalState =>
    some ({ s with
      signalState := 1
      latest := some .signal
      overlapped := ∃ j, (s.phase j).Resets }.goto i .signalWake)
  | .signalWake =>
    some ((s.resume fun j => isFiber j && woken j).goto i .signalSet)
  | .signalSet =>
    some (({ s with win32Event := true }.resume fun j => !isFiber j).goto i .returned)
  | .resetEvent =>
    some ({ s with
      win32Event := false
      latest := some .reset
      overlapped := ∃ j, (s.phase j).Signals }.goto i .resetState)
  | .resetState => some ({ s with signalState := 0 }.goto i .returned)

def next (isFiber : ι → Bool) (s : System ι) : Action ι → Option (System ι)
  | .call i call => if s.phase i = .returned then some (s.goto i call.phase) else none
  | .advance i woken => s.advance isFiber i woken

end System

end ServiceEvent

end DDFramework
