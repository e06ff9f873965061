import DDFramework.Model.SchedulerMain
import DDFramework.Verification.Scheduler.SchedulerLists
import DDFramework.Verification.Scheduler.Transfer

/-! # Handing a lock over

`ReleaseLockWaitListUnsafe` gives the lock to the first waiter. With a second waiter the loop
that moves the waiters goes on past the last of them, and the `wait_list` of the old owner is
linked when it ends. -/

namespace DDFramework

/-- The fibers on the lists of the scheduler and on the `wait_list` of each fiber. -/
structure FiberLists where
  listed : Node → List FiberId
  waiters : FiberId → List FiberId

namespace FiberLists

structure Represents (A : FiberLists) (L : Links Node) : Prop where
  coherent : L.Coherent
  listed : ∀ list : Node, list.IsSchedulerList →
    L.Ring list ((A.listed list).map .schedulerListNode)
  waiters : ∀ f, L.Ring (.fiberWaitList f) ((A.waiters f).map .waitListNode)

/-- The lists after `w` has been suspended until `f` hands its lock over. -/
def waitBehind (A : FiberLists) (w f : FiberId) : FiberLists where
  listed list := (A.listed list).erase w ++ if list = .suspendedList then [w] else []
  waiters := Function.update A.waiters f (A.waiters f ++ [w])

/-- The lists of a scheduler without fibers. -/
def empty : FiberLists := ⟨fun _ => [], fun _ => []⟩

end FiberLists

namespace UserScheduler

/-- The caller waits on the `wait_list` of the owner. -/
def waitBehind (s : UserScheduler) (f o : FiberId) (lock : Address) (tag : BitVec 32) :
    UserScheduler :=
  (((s.modifyFiber f fun r => { r with
      waitableObject := some .lockArbiter
      lockAddress := lock
      waitTag := tag
      fiberState := .waiting }).pushBack (.fiberWaitList o) (.waitListNode f)).unlink
    (.schedulerListNode f)).pushBack .suspendedList (.schedulerListNode f)

@[simp] theorem waitBehind_words (s : UserScheduler) (f o : FiberId) (lock : Address)
    (tag : BitVec 32) : (s.waitBehind f o lock tag).words = s.words := rfl

theorem waitBehind_fibers_of_ne {s : UserScheduler} {f o g : FiberId} (hg : g ≠ f) (lock : Address)
    (tag : BitVec 32) : (s.waitBehind f o lock tag).fibers g = s.fibers g := by
  simp [waitBehind, hg]

/-- The record of the waiter that gets the lock. -/
def grantedRecord (r : FiberLocalStorage) : FiberLocalStorage :=
  { endedRecord { r with lockAddress := 0, waitTag := 0 } resultSuccess with
    waitableObject := none }

/-- The only waiter gets the lock and goes to its run list. -/
def grantTo (s : UserScheduler) (w : FiberId) (lock : Address) : UserScheduler :=
  (({ s.unlink (.waitListNode w) with
      words := Function.update s.words lock (s.fibers w).waitTag }.modifyFiber w
    fun r => { r with lockAddress := 0, waitTag := 0 }).endFiberWaitImpl w
      resultSuccess).modifyFiber w fun r => { r with waitableObject := none }

theorem grantTo_fibers (s : UserScheduler) (w : FiberId) (lock : Address) :
    (s.grantTo w lock).fibers = Function.update s.fibers w (grantedRecord (s.fibers w)) := by
  simp [grantTo, endFiberWaitImpl_fibers, grantedRecord]

@[simp] theorem grantTo_words (s : UserScheduler) (w : FiberId) (lock : Address) :
    (s.grantTo w lock).words = Function.update s.words lock (s.fibers w).waitTag := by
  simp [grantTo]

@[simp] theorem grantTo_handleTable (s : UserScheduler) (w : FiberId) (lock : Address) :
    (s.grantTo w lock).handleTable = s.handleTable := by
  simp [grantTo]

theorem grantTo_fibers_of_ne {s : UserScheduler} {w g : FiberId} (hg : g ≠ w) (lock : Address) :
    (s.grantTo w lock).fibers g = s.fibers g := by
  simp [grantTo_fibers, hg]

theorem grantTo_links (s : UserScheduler) (w : FiberId) (lock : Address) :
    (s.grantTo w lock).links =
      pushHome ((s.links.unlink (.waitListNode w)).unlink (.schedulerListNode w))
        (homeList (s.fibers w)) (.schedulerListNode w) := by
  simp [grantTo, endFiberWaitImpl_links, homeList]

theorem releaseLockWaitListUnsafe_of_waiter {s : UserScheduler} {fuel : ℕ} {f w : FiberId}
    {lock : Address} (hlock : lock ≠ 0) (hfuel : 0 < fuel) (hc : s.links.Coherent)
    (hring : s.links.Ring (.fiberWaitList f) [.waitListNode w])
    (haddress : (s.fibers w).lockAddress = lock)
    (hobject : (s.fibers w).waitableObject ≠ none) :
    s.releaseLockWaitListUnsafe fuel f = .ok (s.grantTo w lock) := by
  have hempty : s.links.isEmpty (.fiberWaitList f) = false := by
    rw [hring.isEmpty_eq]
    rfl
  have hrest : (s.links.unlink (.waitListNode w)).next (.fiberWaitList f) = .fiberWaitList f :=
    Links.ring_nil.mp (hring.unlink_front hc)
  obtain ⟨fuel, rfl⟩ := Nat.exists_eq_add_one_of_ne_zero (Nat.ne_of_gt hfuel)
  unfold releaseLockWaitListUnsafe
  simp only [hempty, Bool.false_eq_true, if_false, Links.popFront, hring.next_head,
    waitNodeParent, ok_bind, Links.isEmpty_iff.mpr hrest, if_true, haddress, writeWord,
    if_neg hlock]
  rw [transferWaitList_of_empty hrest, ok_bind, endWait_of_isSome]
  · rfl
  · simpa using hobject

/-! ### The lists after the handover -/

section Lists

variable {A : FiberLists} {L : Links Node} {f g w : FiberId} {ws : List FiberId}

end Lists

/-! ### The handover -/

end UserScheduler

end DDFramework
