import DDFramework.Library.FifoQueue
import DDFramework.Library.Machine

/-! `ThreadBase::Run` of `sys_threadbase.h`, with a message queue that other threads fill. -/

namespace DDFramework

inductive ThreadRunMode where
  | waitForMessage
  | looping
  deriving DecidableEq, Repr

namespace ThreadBase

/-- Where `current_message` comes from. -/
inductive Origin where
  | queue
  /-- One of the values that `Run` makes up. -/
  | idle
  deriving DecidableEq, Repr

/-- A call of `ThreadCalc`. -/
structure Calc where
  message : BitVec 64
  /-- Only read by statements. -/
  origin : Origin
  deriving DecidableEq, Repr

/-- Where the thread is in `Run`. -/
inductive Phase where
  /-- Before `ReceiveMessage` or `TryReceiveMessage`. -/
  | receiving
  /-- Before the test of the loop. -/
  | testing (currentMessage : BitVec 64) (origin : Origin)
  | returned
  deriving DecidableEq, Repr

inductive Action where
  /-- Another thread puts a message into the queue. -/
  | send (message : BitVec 64)
  /-- The thread goes on. -/
  | advance
  deriving DecidableEq, Repr

structure System (Q : Type*) where
  messageQueue : Q
  phase : Phase
  /-- The calls of `ThreadCalc` so far. -/
  calcs : List Calc
  /-- The messages put into the queue so far. Only read by statements. -/
  sent : List (BitVec 64)

variable {Q : Type*} (fifo : FifoQueue Q (BitVec 64)) (runMode : ThreadRunMode)
  (exitMessage : BitVec 64)

/-- `Run` up to the first `ReceiveMessage`, or to the first test of its loop. -/
def start : System Q where
  messageQueue := fifo.empty
  phase :=
    match runMode with
    | .waitForMessage => .receiving
    | .looping => .testing (-1) .idle
  calcs := []
  sent := []

namespace System

/-- `ReceiveMessage` waits for a message, and without one an idle round is made after
`TryReceiveMessage`. -/
def receive (s : System Q) : Option (System Q) :=
  match fifo.receive s.messageQueue, runMode with
  | some (message, q), _ => some { s with messageQueue := q, phase := .testing message .queue }
  | none, .waitForMessage => none
  | none, .looping => some { s with phase := .testing 0 .idle }

def advance (s : System Q) : Option (System Q) :=
  match s.phase with
  | .receiving => s.receive fifo runMode
  | .testing currentMessage origin =>
    if currentMessage ≠ exitMessage then
      some { s with phase := .receiving, calcs := s.calcs ++ [⟨currentMessage, origin⟩] }
    else some { s with phase := .returned }
  | .returned => none

def next (s : System Q) : Action → Option (System Q)
  | .send message =>
    (fifo.send s.messageQueue message).map fun q =>
      { s with messageQueue := q, sent := s.sent ++ [message] }
  | .advance => s.advance fifo runMode exitMessage

end System

end ThreadBase

end DDFramework
