import DDFramework.Library.Chain
import DDFramework.Model.SchedulerSystem
import DDFramework.Verification.HandleTable.Refinement
import DDFramework.Verification.Scheduler.SchedulerPass

/-! # Every live fiber has one place

The record of a live fiber names its place: the core it runs on, its run list, or the
suspended list. Each step moves at most one fiber and updates its record with it. -/

namespace DDFramework

open UserScheduler

/-! ### Records and lists -/

/-- The list on which a live fiber with this record is. -/
def recordList (r : FiberLocalStorage) : Option Node :=
  match r.fiberState with
  | .scheduled => (runListOf r.priority).map .runList
  | .suspended => some .suspendedList
  | _ => none

/-- The record of a live fiber between two steps. -/
structure SettledRecord (r : FiberLocalStorage) : Prop where
  priority : (runListOf r.priority).isSome
  noWait : r.waitableObject = none
  state : r.fiberState = .running ∨
    (r.fiberState = .scheduled ∧ r.activityLevel ≠ activityLevelSuspended) ∨
    (r.fiberState = .suspended ∧ r.activityLevel = activityLevelSuspended)

/-- The record after `AddToSchedulerUnsafe`. -/
def homedRecord (r : FiberLocalStorage) : FiberLocalStorage :=
  { r with fiberState := homeState r }

theorem recordList_homedRecord (r : FiberLocalStorage) :
    recordList (homedRecord r) = homeList r := by
  unfold recordList homedRecord homeState homeList
  by_cases h : r.activityLevel = activityLevelSuspended
  · simp [h]
  · simp [h]

theorem SettledRecord.homed {r : FiberLocalStorage} (hpriority : (runListOf r.priority).isSome)
    (hwait : r.waitableObject = none) : SettledRecord (homedRecord r) where
  priority := hpriority
  noWait := hwait
  state := by
    by_cases h : r.activityLevel = activityLevelSuspended
    · exact Or.inr (Or.inr ⟨by simp [homedRecord, homeState, h], h⟩)
    · exact Or.inr (Or.inl ⟨by simp [homedRecord, homeState, h], h⟩)

theorem homedRecord_ne_running (r : FiberLocalStorage) :
    (homedRecord r).fiberState ≠ .running := by
  unfold homedRecord homeState
  split <;> simp

theorem recordList_ne_waitList (r : FiberLocalStorage) :
    recordList r ≠ some .schedulerWaitList := by
  unfold recordList
  split
  · simp
  · simp
  · simp

/-- A record that names a run list belongs to a scheduled fiber of that priority. -/
theorem recordList_eq_runList {r : FiberLocalStorage} {l : RunList}
    (h : recordList r = some (.runList l)) :
    r.fiberState = .scheduled ∧ runListOf r.priority = some l := by
  unfold recordList at h
  split at h
  · rename_i hstate
    exact ⟨hstate, by simpa using h⟩
  · simp at h
  · cases h

theorem recordList_of_running {r : FiberLocalStorage} (h : r.fiberState = .running) :
    recordList r = none := by
  simp [recordList, h]

/-- The priority only matters for the list of a scheduled fiber. -/
theorem recordList_congr {r r' : FiberLocalStorage} (hstate : r'.fiberState = r.fiberState)
    (h : r.fiberState ≠ .scheduled) : recordList r' = recordList r := by
  unfold recordList
  rw [hstate]
  cases hs : r.fiberState with
  | scheduled => exact (h hs).elim
  | running => rfl
  | exiting => rfl
  | waiting => rfl
  | suspended => rfl

namespace SchedulerSystem

/-- The list of a fiber; slots without a live fiber are on no list. -/
def listOf (c : SchedulerSystem) (f : FiberId) : Option Node :=
  if f ∈ c.live then recordList (c.scheduler.fibers f) else none

theorem listOf_of_live {c : SchedulerSystem} {f : FiberId} (h : f ∈ c.live) :
    c.listOf f = recordList (c.scheduler.fibers f) := if_pos h

theorem listOf_of_not_live {c : SchedulerSystem} {f : FiberId} (h : f ∉ c.live) :
    c.listOf f = none := if_neg h

theorem live_of_listOf {c : SchedulerSystem} {f : FiberId} {list : Node}
    (h : c.listOf f = some list) : f ∈ c.live := by
  by_contra hnot
  rw [listOf_of_not_live hnot] at h
  cases h

theorem listOf_ne_waitList (c : SchedulerSystem) (f : FiberId) :
    c.listOf f ≠ some .schedulerWaitList := by
  by_cases h : f ∈ c.live
  · rw [listOf_of_live h]
    exact recordList_ne_waitList _
  · simp [listOf_of_not_live h]

/-- The fibers that run according to the records, each on its `current_core`. -/
def RecordedOn (fibers : FiberId → FiberLocalStorage) (live : Finset FiberId) (core : ℕ)
    (f : FiberId) : Prop :=
  f ∈ live ∧ (fibers f).fiberState = .running ∧ (fibers f).currentCore = core

/-- The free slots of the allocator, in the order of its list. -/
structure FreeSlots (a : FixedObjectAllocator maxThreadCount) (live : Finset FiberId)
    (free : List FiberId) : Prop where
  chain : Chain some a.next none a.freeList free
  nodup : free.Nodup
  notLive : ∀ f ∈ free, f ∉ live
  lt : ∀ f ∈ free, f < maxThreadCount

/-- The invariant of the scheduler without waits. -/
structure Placed (c : SchedulerSystem) : Prop where
  filed : Filed c.scheduler.links c.listOf
  settled : ∀ f ∈ c.live, SettledRecord (c.scheduler.fibers f)
  noWait : ∀ f, (c.scheduler.fibers f).waitableObject = none
  running : ∀ core f,
    c.contexts core = .running f ↔ RecordedOn c.scheduler.fibers c.live core f
  slots : ∃ free, FreeSlots c.scheduler.userFiberLocalAllocator c.live free
  live_lt : ∀ f ∈ c.live, f < maxThreadCount
  handles : ∃ M, HandleTable.Run c.scheduler.handleTable M ∧
    ∀ f ∈ c.live, M.lookup (c.scheduler.fibers f).ukernFiberHandle = some f
  first : c.mainEntered = false → c.contexts 0 = .running c.mainFiber

namespace Placed

variable {c c' : SchedulerSystem}

theorem getFiberByHandle (h : Placed c) {f : FiberId} (hf : f ∈ c.live) :
    c.scheduler.getFiberByHandle (c.scheduler.fibers f).ukernFiberHandle = .ok (some f) := by
  obtain ⟨M, hrun, hlookup⟩ := h.handles
  exact hrun.getObjectByHandle_of_lookup (hlookup f hf)

/-- The record of one live fiber changes and the fiber moves to the list that the new
record names. -/
theorem setRecord (h : Placed c) {f : FiberId} (hf : f ∈ c.live) {r : FiberLocalStorage}
    (hlive : c'.live = c.live)
    (hfibers : c'.scheduler.fibers = Function.update c.scheduler.fibers f r)
    (hlinks : Filed c'.scheduler.links (Function.update c.listOf f (recordList r)))
    (hr : SettledRecord r)
    (hhandle : r.ukernFiberHandle = (c.scheduler.fibers f).ukernFiberHandle)
    (hrunning : ∀ core g, c'.contexts core = .running g ↔
      RecordedOn (Function.update c.scheduler.fibers f r) c.live core g)
    (hallocator : c'.scheduler.userFiberLocalAllocator = c.scheduler.userFiberLocalAllocator)
    (htable : c'.scheduler.handleTable = c.scheduler.handleTable)
    (hfirst : c'.mainEntered = false → c'.contexts 0 = .running c'.mainFiber) : Placed c' := by
  have hlist : c'.listOf = Function.update c.listOf f (recordList r) := by
    funext g
    by_cases hg : g = f
    · simp [listOf, hlive, hfibers, hg, hf]
    · simp [listOf, hlive, hfibers, hg]
  refine ⟨hlist ▸ hlinks, ?_, ?_, ?_, ?_, ?_, ?_, hfirst⟩
  · intro g hg
    rw [hlive] at hg
    rw [hfibers]
    by_cases he : g = f
    · rwa [he, Function.update_self]
    · rw [Function.update_of_ne he]
      exact h.settled g hg
  · intro g
    rw [hfibers]
    by_cases he : g = f
    · rw [he, Function.update_self]
      exact hr.noWait
    · rw [Function.update_of_ne he]
      exact h.noWait g
  · rwa [hfibers, hlive]
  · rw [hallocator, hlive]
    exact h.slots
  · rw [hlive]
    exact h.live_lt
  · obtain ⟨M, hrun, hlookup⟩ := h.handles
    refine ⟨M, by rwa [htable], ?_⟩
    intro g hg
    rw [hlive] at hg
    rw [hfibers]
    by_cases he : g = f
    · rw [he, Function.update_self, hhandle]
      exact hlookup f hf
    · rw [Function.update_of_ne he]
      exact hlookup g hg

/-- A new record that keeps the state and the core keeps who runs where. -/
theorem running_setRecord (h : Placed c) {f : FiberId} {r : FiberLocalStorage}
    (hstate : r.fiberState = .running ↔ (c.scheduler.fibers f).fiberState = .running)
    (hcore : r.currentCore = (c.scheduler.fibers f).currentCore) (core : ℕ) (g : FiberId) :
    c.contexts core = .running g ↔
      RecordedOn (Function.update c.scheduler.fibers f r) c.live core g := by
  rw [h.running]
  unfold RecordedOn
  by_cases he : g = f
  · rw [he, Function.update_self, hstate, hcore]
  · rw [Function.update_of_ne he]

end Placed

end SchedulerSystem

end DDFramework
