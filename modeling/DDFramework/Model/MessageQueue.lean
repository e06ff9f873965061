import DDFramework.Library.Machine
import DDFramework.Model.Result
import Mathlib.Logic.Function.Basic

/-! The message queues of `util_messagequeue.hpp` and `sys_messagequeue.hpp`. The two
classes have the same code and differ in the types of their lock and of their condition
variables only. -/

namespace DDFramework

structure MessageQueue where
  /-- The `size_t` array that `Initialize` allocates. -/
  messageBuffer : List (BitVec 64)
  maxMessages : BitVec 32
  pendingMessages : BitVec 32
  currentMessage : BitVec 32

namespace MessageQueue

/-- The state after `Initialize` of a queue whose counters are zero. -/
def initialized (buffer : List (BitVec 64)) (maxMessageCount : BitVec 32) : MessageQueue where
  messageBuffer := buffer
  maxMessages := maxMessageCount
  pendingMessages := 0#32
  currentMessage := 0#32

/-- `m_message_buffer[index] = message` with a signed index. -/
def store (q : MessageQueue) (index : BitVec 32) (message : BitVec 64) :
    Except Fault MessageQueue :=
  if 0 ≤ index.toInt ∧ index.toNat < q.messageBuffer.length then
    .ok { q with messageBuffer := q.messageBuffer.set index.toNat message }
  else .error .outOfBounds

def load (q : MessageQueue) (index : BitVec 32) : Except Fault (BitVec 64) :=
  if 0 ≤ index.toInt then
    match q.messageBuffer[index.toNat]? with
    | some message => .ok message
    | none => .error .outOfBounds
  else .error .outOfBounds

/-- The test of the loop of `WaitForMessage`. -/
def waitForMessage (q : MessageQueue) : Bool := q.pendingMessages == 0#32

/-- The test of the loop of `WaitForMessageClear`. -/
def waitForMessageClear (q : MessageQueue) : Bool := q.maxMessages.sle q.pendingMessages

/-- The broadcast at the end wakes threads, which may test their condition at any time
anyway. -/
def sendMessageImpl (q : MessageQueue) (message : BitVec 64) : Except Fault MessageQueue := do
  let index := q.pendingMessages + q.currentMessage
  let index := if q.maxMessages.sle index then index - q.maxMessages else index
  let q ← q.store index message
  .ok { q with pendingMessages := q.pendingMessages + 1#32 }

def recieveMessageImpl (q : MessageQueue) : Except Fault (BitVec 64 × MessageQueue) := do
  let outMessage ← q.load q.currentMessage
  let q := { q with currentMessage := q.currentMessage + 1#32 }
  let q := { q with pendingMessages := q.pendingMessages - 1#32 }
  let offset := if q.maxMessages.sle q.currentMessage then q.maxMessages else 0#32
  .ok (outMessage, { q with currentMessage := q.currentMessage - offset })

def tryReceiveMessage (q : MessageQueue) : Except Fault (Option (BitVec 64) × MessageQueue) :=
  if q.pendingMessages == 0#32 then .ok (none, q)
  else do
    let (outMessage, q) ← q.recieveMessageImpl
    .ok (some outMessage, q)

def trySendMessage (q : MessageQueue) (message : BitVec 64) : Except Fault (Bool × MessageQueue) :=
  if q.maxMessages.sle q.pendingMessages then .ok (false, q)
  else do
    let q ← q.sendMessageImpl message
    .ok (true, q)

/-- `ReceiveMessage` up to its return, or up to the next wait when it returns nothing. -/
def receiveMessage (q : MessageQueue) : Except Fault (Option (BitVec 64) × MessageQueue) :=
  if q.waitForMessage then .ok (none, q)
  else do
    let (outMessage, q) ← q.recieveMessageImpl
    .ok (some outMessage, q)

/-- `SendMessage` up to its return, or up to the next wait when it returns `false`. -/
def sendMessage (q : MessageQueue) (message : BitVec 64) : Except Fault (Bool × MessageQueue) :=
  if q.waitForMessageClear then .ok (false, q)
  else do
    let q ← q.sendMessageImpl message
    .ok (true, q)

/-! ### Threads -/

/-- What a thread does with the queue between two steps. -/
inductive Caller where
  | idle
  /-- In a wait of `SendMessage`. -/
  | sending (message : BitVec 64)
  /-- In a wait of `ReceiveMessage`. -/
  | receiving
  deriving DecidableEq, Repr

/-- A step is what a thread does between taking the lock and releasing it. -/
inductive Action (ι : Type*) where
  | send (i : ι) (message : BitVec 64)
  | trySend (i : ι) (message : BitVec 64)
  | receive (i : ι)
  | tryReceive (i : ι)
  /-- A wait returns, and the thread tests its condition again. -/
  | wake (i : ι)
  deriving DecidableEq, Repr

structure System (ι : Type*) where
  queue : MessageQueue
  caller : ι → Caller
  /-- The messages that have been accepted and received so far. -/
  accepted : List (BitVec 64)
  received : List (BitVec 64)

variable {ι : Type*}

def start (buffer : List (BitVec 64)) (maxMessageCount : BitVec 32) : System ι where
  queue := initialized buffer maxMessageCount
  caller _ := .idle
  accepted := []
  received := []

namespace System

variable [DecidableEq ι]

def send (s : System ι) (i : ι) (message : BitVec 64) : Except Fault (System ι) :=
  (s.queue.sendMessage message).map fun
  | (true, q) => { s with
      queue := q
      caller := Function.update s.caller i .idle
      accepted := s.accepted ++ [message] }
  | (false, q) => { s with
      queue := q
      caller := Function.update s.caller i (.sending message) }

def trySend (s : System ι) (message : BitVec 64) : Except Fault (System ι) :=
  (s.queue.trySendMessage message).map fun
  | (true, q) => { s with queue := q, accepted := s.accepted ++ [message] }
  | (false, q) => { s with queue := q }

def receive (s : System ι) (i : ι) : Except Fault (System ι) :=
  s.queue.receiveMessage.map fun
  | (some message, q) => { s with
      queue := q
      caller := Function.update s.caller i .idle
      received := s.received ++ [message] }
  | (none, q) => { s with
      queue := q
      caller := Function.update s.caller i .receiving }

def tryReceive (s : System ι) : Except Fault (System ι) :=
  s.queue.tryReceiveMessage.map fun
  | (some message, q) => { s with queue := q, received := s.received ++ [message] }
  | (none, q) => { s with queue := q }

/-- A thread starts a call when it is not in another one. -/
def perform (s : System ι) : Action ι → Option (Except Fault (System ι))
  | .send i message => if s.caller i = .idle then some (s.send i message) else none
  | .trySend i message => if s.caller i = .idle then some (s.trySend message) else none
  | .receive i => if s.caller i = .idle then some (s.receive i) else none
  | .tryReceive i => if s.caller i = .idle then some s.tryReceive else none
  | .wake i =>
    match s.caller i with
    | .idle => none
    | .sending message => some (s.send i message)
    | .receiving => some (s.receive i)

/-- A fault ends the program. -/
def next : Except Fault (System ι) → Action ι → Option (Except Fault (System ι))
  | .ok s, a => s.perform a
  | .error _, _ => none

end System

end MessageQueue

end DDFramework
