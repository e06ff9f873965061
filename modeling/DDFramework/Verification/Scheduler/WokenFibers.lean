import DDFramework.Verification.Scheduler.WakeCalls

/-! # Fibers between the end of a wait and their next dispatch

Ending a wait leaves `timeout` and `waitable_object` in the record. The next
scheduler pass reads them as if the fiber were still waiting. -/

namespace DDFramework.UserScheduler

/-- The record keeps what the wait has stored; its priority, its core mask and its
activity level may have been set meanwhile. -/
structure KeepsWait (r r' : FiberLocalStorage) : Prop where
  object : r'.waitableObject = r.waitableObject
  timeout : r'.timeout = r.timeout
  state : r'.fiberState = r.fiberState
  lastResult : r'.lastResult = r.lastResult

theorem KeepsWait.refl (r : FiberLocalStorage) : KeepsWait r r := ⟨rfl, rfl, rfl, rfl⟩

/-- The pass finds the fiber runnable, and its wait call returns a success. -/
def Served (fuel : ℕ) (s : UserScheduler) (f : FiberId) (core : ℕ) (tick : BitVec 64) : Prop :=
  ∃ s', s.isSchedulable fuel f core tick = .ok (true, s') ∧
    resumedResult s' f resultSuccess = resultSuccess

theorem WaitCall.run_record {call : WaitCall} {fuel : ℕ} {s s' : UserScheduler} {f : FiberId}
    (h : call.run fuel s f = .ok (.switches resultSuccess, s')) :
    (s'.fibers f).waitableObject = some .waitAddressArbiter ∧
      (s'.fibers f).fiberState = .waiting := by
  obtain ⟨t, ht⟩ := call.run_eq_switches h
  rw [blockOnAddress_fibers ht]
  exact ⟨rfl, rfl⟩

/-- As long as the arbiter is in the record, a pass either refuses the fiber or turns
its result into a timeout. -/
theorem not_served_of_waitAddressArbiter {fuel : ℕ} {s : UserScheduler} {f : FiberId}
    (h : (s.fibers f).waitableObject = some .waitAddressArbiter) (core : ℕ) (tick : BitVec 64) :
    ¬ Served fuel s f core tick := by
  rintro ⟨s', hs', hresult⟩
  simp only [isSchedulable] at hs'
  split_ifs at hs' with hstate hmask hlate hlate'
  · simp at hs'
  · simp at hs'
  · obtain ⟨t, ht, hs'⟩ := bind_eq_ok_iff.mp hs'
    simp only [cancelWait, h, Except.ok.injEq] at ht
    simp only [Except.ok.injEq, Prod.mk.injEq, true_and] at hs'
    subst t s'
    rw [resumedResult, if_pos rfl, endFiberWaitImpl_fibers_self] at hresult
    exact resultTimeout_ne_success hresult
  · exact hlate ⟨by simp [h], hlate'⟩
  · simp at hs'

/-- A fiber that blocked on an address and was woken is not served by any later pass,
neither before nor after its deadline. -/
theorem woken_fiber_not_served {wait : WaitCall} {wake : WakeCall} {n m k : ℕ}
    {s₀ s₁ s₂ s₃ s₄ : UserScheduler} {f : FiberId} {result : Result}
    (hwait : wait.run n s₀ f = .ok (.switches resultSuccess, s₁))
    (hasleep : KeepsWait (s₁.fibers f) (s₂.fibers f))
    (hactivity : (s₂.fibers f).activityLevel = activityLevelSchedulable)
    (hwake : wake.run m s₂ = .ok (result, s₃)) (hended : (s₃.fibers f).fiberState ≠ .waiting)
    (hlater : KeepsWait (s₃.fibers f) (s₄.fibers f)) (core : ℕ) (tick : BitVec 64) :
    (s₄.fibers f).fiberState = .scheduled ∧ (s₄.fibers f).lastResult = resultSuccess ∧
      ¬ Served k s₄ f core tick := by
  obtain ⟨hobject, hstate⟩ := wait.run_record hwait
  rcases wake.run_keptOrEnded hwake f with hkept | hrecord
  · rw [hkept, hasleep.state, hstate] at hended
    exact (hended rfl).elim
  · rw [hrecord] at hlater
    refine ⟨?_, hlater.lastResult, ?_⟩
    · rw [hlater.state]
      simp [endedRecord, homeState, hactivity, activityLevelSchedulable, activityLevelSuspended]
    · apply not_served_of_waitAddressArbiter
      rw [hlater.object]
      exact hasleep.object.trans hobject

/-- The main fiber runs on core 0. -/
def mainRunning : UserScheduler :=
  (staticInstance fun _ => 0).modifyFiber 0 fun r => { r with
    priority := 2
    coreMask := 1
    activityLevel := activityLevelSchedulable
    fiberState := .running }

/-- The main fiber blocks with the deadline 5 and another fiber wakes it. -/
theorem mainRunning_woken : ∃ s₁ s₂,
    (WaitCall.ifEqual 16 0 5).run 1 mainRunning 0 = .ok (.switches resultSuccess, s₁) ∧
    (WakeCall.wakeByAddress 16 1).run 2 s₁ = .ok (resultSuccess, s₂) ∧
    (s₁.fibers 0).activityLevel = activityLevelSchedulable ∧
    (s₂.fibers 0).fiberState = .scheduled ∧ (s₂.fibers 0).coreMask = 1 := by
  exact ⟨_, _, rfl, rfl, rfl, rfl, rfl⟩

theorem woken_fiber_not_served_mainRunning : ∃ s : UserScheduler,
    (s.fibers 0).fiberState = .scheduled ∧ (s.fibers 0).lastResult = resultSuccess ∧
      ¬ Served 1 s 0 0 9 := by
  obtain ⟨s₁, s₂, hwait, hwake, hactivity, hstate, -⟩ := mainRunning_woken
  exact ⟨s₂, woken_fiber_not_served hwait (.refl _) hactivity hwake (by simp [hstate]) (.refl _) 0 9⟩

/-- At tick 3 the woken main fiber is refused; at tick 9 its wait returns a timeout. -/
theorem woken_main_fiber_times_out : ∃ s₁ s₂ s₃ : UserScheduler,
    (WaitCall.ifEqual 16 0 5).run 1 mainRunning 0 = .ok (.switches resultSuccess, s₁) ∧
    (WakeCall.wakeByAddress 16 1).run 2 s₁ = .ok (resultSuccess, s₂) ∧
    (s₂.fibers 0).coreMask &&& coreBit 0 ≠ 0 ∧
    s₂.isSchedulable 1 0 0 3 = .ok (false, s₂) ∧ ¬ Served 1 s₂ 0 0 3 ∧
    s₂.isSchedulable 1 0 0 9 = .ok (true, s₃) ∧ ¬ Served 1 s₂ 0 0 9 ∧
    resumedResult s₃ 0 resultSuccess = resultTimeout := by
  refine ⟨_, _, _, rfl, rfl, by decide, rfl, ?_, rfl, ?_, rfl⟩
  · exact not_served_of_waitAddressArbiter rfl 0 3
  · exact not_served_of_waitAddressArbiter rfl 0 9

end DDFramework.UserScheduler
