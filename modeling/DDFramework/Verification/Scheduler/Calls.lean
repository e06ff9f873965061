import DDFramework.Library.Machine
import DDFramework.Verification.Scheduler.PlacedRuns

/-! # The scheduler as a machine

Its labels are the calls. They take the same steps, so that what holds in every reachable
state holds in every state of a run. -/

namespace DDFramework.SchedulerSystem

variable {c c' : SchedulerSystem}

theorem runningFiber_eq_some {core : ℕ} {f : FiberId} :
    c.runningFiber core = some f ↔ c.contexts core = .running f := by
  unfold runningFiber
  cases c.contexts core with
  | notStarted => simp
  | running g => simp
  | scheduling => simp
  | resting => simp

/-! ### When a call can be taken -/

theorem perform_createThread {threadFunc : Address} {stackSize : ℕ} {priority : ℤ} {coreId : ℕ} :
    c.perform (.createThread threadFunc stackSize priority coreId) = some c' ↔
      c.lockOwner = none ∧ c.createThread threadFunc stackSize priority coreId = .ok c' := by
  rw [perform, Option.ite_none_right_eq_some, toOption_eq_some]

theorem perform_setCoreMask {f : FiberId} {coreMask : BitVec 64} :
    c.perform (.setCoreMask f coreMask) = some c' ↔
      (c.lockOwner = none ∧ f ∈ c.live) ∧ ∃ result s,
        c.scheduler.setCoreMaskImpl (c.scheduler.fibers f).ukernFiberHandle coreMask =
          .ok (result, s) ∧ { c with scheduler := s } = c' := by
  simp only [perform, Option.ite_none_right_eq_some, Option.map_eq_some_iff, toOption_eq_some,
    Prod.exists]

theorem perform_setActivity {f : FiberId} {activityLevel : BitVec 16} :
    c.perform (.setActivity f activityLevel) = some c' ↔
      (c.lockOwner = none ∧ f ∈ c.live) ∧ ∃ result s,
        c.scheduler.setActivityImpl (c.scheduler.fibers f).ukernFiberHandle activityLevel =
          .ok (result, s) ∧ { c with scheduler := s } = c' := by
  simp only [perform, Option.ite_none_right_eq_some, Option.map_eq_some_iff, toOption_eq_some,
    Prod.exists]

theorem perform_sleepThread {core : ℕ} {absoluteTimeout : BitVec 64} :
    c.perform (.sleepThread core absoluteTimeout) = some c' ↔
      c.lockOwner = none ∧ ∃ f, c.contexts core = .running f ∧
        c.sleepThread f absoluteTimeout = .ok c' := by
  simp only [perform, Option.ite_none_right_eq_some, Option.bind_eq_some_iff, toOption_eq_some,
    runningFiber_eq_some]

theorem perform_exitFiber {core : ℕ} :
    c.perform (.exitFiber core) = some c' ↔
      c.lockOwner = none ∧ ∃ f, c.contexts core = .running f ∧ f ≠ c.mainFiber ∧
        c.exitFiber f = .ok c' := by
  simp only [perform, Option.ite_none_right_eq_some, Option.bind_eq_some_iff, toOption_eq_some,
    runningFiber_eq_some]

theorem perform_pass {core : ℕ} {tick : BitVec 64} :
    c.perform (.pass core tick) = some c' ↔
      (c.lockOwner = some core ∧ c.contexts core = .scheduling) ∧ c.pass core tick = .ok c' := by
  rw [perform, Option.ite_none_right_eq_some, toOption_eq_some]

theorem perform_startCore {core : ℕ} :
    c.perform (.startCore core) = some c' ↔
      (c.lockOwner = none ∧ c.contexts core = .notStarted ∧ 0 < core ∧
        core < c.scheduler.coreCount) ∧
      { c with
        contexts := Function.update c.contexts core .scheduling
        lockOwner := some core } = c' := by
  rw [perform, Option.ite_none_right_eq_some, Option.some.injEq]

theorem perform_wakeCore {core : ℕ} :
    c.perform (.wakeCore core) = some c' ↔
      (c.lockOwner = none ∧ c.contexts core = .resting) ∧
      { c with
        scheduler := { c.scheduler with activeCores := c.scheduler.activeCores + 1 }
        contexts := Function.update c.contexts core .scheduling
        lockOwner := some core } = c' := by
  rw [perform, Option.ite_none_right_eq_some, Option.some.injEq]

/-! ### Steps and calls -/

theorem Step.of_perform {call : SchedulerCall} (h : c.perform call = some c') : Step c c' := by
  cases call with
  | createThread threadFunc stackSize priority coreId =>
      obtain ⟨unlocked, call⟩ := perform_createThread.mp h
      exact .createThread threadFunc stackSize priority coreId unlocked call
  | setCoreMask f coreMask =>
      obtain ⟨⟨unlocked, live⟩, result, s, call, rfl⟩ := perform_setCoreMask.mp h
      exact .setCoreMask coreMask unlocked live call
  | setActivity f activityLevel =>
      obtain ⟨⟨unlocked, live⟩, result, s, call, rfl⟩ := perform_setActivity.mp h
      exact .setActivity activityLevel unlocked live call
  | sleepThread core absoluteTimeout =>
      obtain ⟨unlocked, f, current, call⟩ := perform_sleepThread.mp h
      exact .sleepThread absoluteTimeout unlocked current call
  | exitFiber core =>
      obtain ⟨unlocked, f, current, user, call⟩ := perform_exitFiber.mp h
      exact .exitFiber unlocked current user call
  | pass core tick =>
      obtain ⟨⟨locked, current⟩, call⟩ := perform_pass.mp h
      exact .pass tick locked current call
  | startCore core =>
      obtain ⟨⟨unlocked, current, worker, core_lt⟩, rfl⟩ := perform_startCore.mp h
      exact .startCore unlocked current worker core_lt
  | wakeCore core =>
      obtain ⟨⟨unlocked, current⟩, rfl⟩ := perform_wakeCore.mp h
      exact .wakeCore unlocked current

theorem Step.exists_perform (h : Step c c') : ∃ call, c.perform call = some c' := by
  cases h with
  | createThread threadFunc stackSize priority coreId unlocked call =>
      exact ⟨_, perform_createThread.mpr ⟨unlocked, call⟩⟩
  | setCoreMask coreMask unlocked live call =>
      exact ⟨_, perform_setCoreMask.mpr ⟨⟨unlocked, live⟩, _, _, call, rfl⟩⟩
  | setActivity activityLevel unlocked live call =>
      exact ⟨_, perform_setActivity.mpr ⟨⟨unlocked, live⟩, _, _, call, rfl⟩⟩
  | sleepThread absoluteTimeout unlocked current call =>
      exact ⟨_, perform_sleepThread.mpr ⟨unlocked, _, current, call⟩⟩
  | exitFiber unlocked current user call =>
      exact ⟨_, perform_exitFiber.mpr ⟨unlocked, _, current, user, call⟩⟩
  | pass tick locked current call =>
      exact ⟨_, perform_pass.mpr ⟨⟨locked, current⟩, call⟩⟩
  | startCore unlocked current worker core_lt =>
      exact ⟨_, perform_startCore.mpr ⟨⟨unlocked, current, worker, core_lt⟩, rfl⟩⟩
  | wakeCore unlocked current =>
      exact ⟨_, perform_wakeCore.mpr ⟨⟨unlocked, current⟩, rfl⟩⟩

/-- The states of the runs are the reachable states. -/
theorem reaches_iff_reachable {words : Address → BitVec 32} {coreMask : BitVec 64}
    {start : SchedulerSystem} (hstart : initialSystem words coreMask = .ok start) :
    Machine.Reaches perform start c ↔ Reachable words coreMask c := by
  constructor
  · intro h
    exact h.invariant (.start hstart) fun hs _ htaken => hs.step (.of_perform htaken)
  · intro h
    induction h with
    | start initial =>
        rw [hstart] at initial
        cases initial
        exact .start
    | step reachable step ih =>
        obtain ⟨call, htaken⟩ := step.exists_perform
        exact .step ih trivial htaken

end DDFramework.SchedulerSystem
