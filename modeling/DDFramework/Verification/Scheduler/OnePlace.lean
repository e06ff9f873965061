import DDFramework.Verification.Scheduler.PlacedRuns

/-! # The place of each fiber

What the records say, in terms of the cores and the scheduler lists. -/

namespace DDFramework.SchedulerSystem

open UserScheduler

variable {c : SchedulerSystem} {f : FiberId}

inductive Place where
  | core (core : ℕ)
  | list (list : Node)

/-- The fiber is on the core, or an element of the scheduler list. -/
def At (c : SchedulerSystem) (f : FiberId) : Place → Prop
  | .core core => c.contexts core = .running f
  | .list list => list.IsSchedulerList ∧
      ∃ fs : List FiberId, c.scheduler.links.Ring list (fs.map .schedulerListNode) ∧ f ∈ fs

/-- The fiber is listed once, or not at all when it runs, and its record agrees with the
place. -/
def Fits (c : SchedulerSystem) (f : FiberId) : Place → Prop
  | .core _ => c.scheduler.links.next (.schedulerListNode f) = .schedulerListNode f
  | .list list =>
      (∀ fs : List FiberId, c.scheduler.links.Ring list (fs.map .schedulerListNode) →
        fs.count f = 1) ∧
      match list with
      | .runList l => runListOf (c.scheduler.fibers f).priority = some l ∧
          (c.scheduler.fibers f).fiberState = .scheduled ∧
          (c.scheduler.fibers f).activityLevel ≠ activityLevelSuspended
      | .suspendedList => (c.scheduler.fibers f).fiberState = .suspended ∧
          (c.scheduler.fibers f).activityLevel = activityLevelSuspended
      | _ => False

end DDFramework.SchedulerSystem
