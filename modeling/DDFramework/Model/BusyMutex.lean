import DDFramework.Library.Machine
import Mathlib.Logic.Function.Basic

/-! `BusyMutex` of `ukern_busymutex.hpp` and the threads that use it. One step is one
access of a thread to `m_counter`. -/

namespace DDFramework

namespace BusyMutex

/-- `m_release_count`, the low half of `m_counter`. -/
def releaseCount (counter : BitVec 32) : BitVec 16 := counter.setWidth 16

/-- `m_lock_count`, the high half of `m_counter`. -/
def lockCount (counter : BitVec 32) : BitVec 16 := counter.extractLsb' 16 16

/-- The condition of the loop of `Enter`. -/
def mustWait (wait : BitVec 32) : Bool :=
  (wait &&& 0xffff#32) != ((wait >>> 16) &&& 0xffff#32)

/-- `InterlockedExchangeAdd` of `Enter`. -/
def addLock (counter : BitVec 32) : BitVec 32 := counter + 0x10000#32

/-- `++m_release_count`, which leaves the other half alone. -/
def addRelease (counter : BitVec 32) : BitVec 32 :=
  lockCount counter ++ (releaseCount counter + 1#16)

/-- Where a thread is: outside, in the loop of `Enter`, or between `Enter` and `Leave`. -/
inductive Phase where
  | outside
  | waiting
  | inside
  deriving DecidableEq, Repr

/-- The phase after the test of the loop on the value `wait`. -/
def testLoop (wait : BitVec 32) : Phase := if mustWait wait then .waiting else .inside

inductive Action (ι : Type*) where
  /-- `Enter` up to the first test of its loop. -/
  | fetchAdd (i : ι)
  /-- One more round of the loop of `Enter`. -/
  | poll (i : ι)
  | leave (i : ι)
  deriving DecidableEq, Repr

variable {ι : Type*}

structure System (ι : Type*) where
  counter : BitVec 32
  phase : ι → Phase
  /-- How many fetch-adds came before the last one of the thread. Only read by statements. -/
  ticket : ι → ℕ
  issued : ℕ

/-- The constructor of the mutex. -/
def start : System ι where
  counter := 0
  phase _ := .outside
  ticket _ := 0
  issued := 0

variable [DecidableEq ι]

namespace System

def fetchAdd (s : System ι) (i : ι) : System ι :=
  let wait := s.counter
  { counter := addLock s.counter
    phase := Function.update s.phase i (testLoop wait)
    ticket := Function.update s.ticket i s.issued
    issued := s.issued + 1 }

/-- `InterlockedAdd` of zero returns the counter. -/
def poll (s : System ι) (i : ι) : System ι :=
  let wait := s.counter + 0#32
  { s with counter := wait, phase := Function.update s.phase i (testLoop wait) }

def leave (s : System ι) (i : ι) : System ι :=
  { s with counter := addRelease s.counter, phase := Function.update s.phase i .outside }

/-- A thread calls `Leave` only while it is inside. -/
def next (s : System ι) : Action ι → Option (System ι)
  | .fetchAdd i => if s.phase i = .outside then some (s.fetchAdd i) else none
  | .poll i => if s.phase i = .waiting then some (s.poll i) else none
  | .leave i => if s.phase i = .inside then some (s.leave i) else none

end System

end BusyMutex

end DDFramework
