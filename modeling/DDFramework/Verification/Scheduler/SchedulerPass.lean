import DDFramework.Model.SchedulerMain
import DDFramework.Verification.Scheduler.SchedulerLists

/-! # The choice of a fiber in a scheduler pass

Without waits a pass changes nothing before `Dispatch`: it reads the run lists and
stops at the first fiber that may run. -/

namespace DDFramework.UserScheduler

variable {s : UserScheduler} {place : FiberId → Option Node} {fuel : ℕ}

/-- The tests of `IsSchedulable` on a fiber without a waitable object. -/
structure Eligible (s : UserScheduler) (core : ℕ) (tick : BitVec 64) (f : FiberId) : Prop where
  scheduled : (s.fibers f).fiberState = .scheduled
  inMask : (s.fibers f).coreMask &&& coreBit core ≠ 0
  elapsed : (s.fibers f).timeout < tick

theorem eligible_iff (s : UserScheduler) (core : ℕ) (tick : BitVec 64) (f : FiberId) :
    ((s.fibers f).fiberState = .scheduled ∧ (s.fibers f).coreMask &&& coreBit core ≠ 0 ∧
      (s.fibers f).timeout < tick) ↔ s.Eligible core tick f :=
  ⟨fun ⟨h₁, h₂, h₃⟩ => ⟨h₁, h₂, h₃⟩, fun ⟨h₁, h₂, h₃⟩ => ⟨h₁, h₂, h₃⟩⟩

instance (s : UserScheduler) (core : ℕ) (tick : BitVec 64) :
    DecidablePred (s.Eligible core tick) :=
  fun f => decidable_of_iff _ (s.eligible_iff core tick f)

/-- Without a waitable object `IsSchedulable` is a test of the record. -/
theorem isSchedulable_of_noWait {f : FiberId} (h : (s.fibers f).waitableObject = none)
    (core : ℕ) (tick : BitVec 64) :
    s.isSchedulable fuel f core tick = .ok (decide (s.Eligible core tick f), s) := by
  simp only [isSchedulable, h, Option.isSome_none, Bool.false_eq_true, false_and, if_false]
  by_cases hf : s.Eligible core tick f
  · simp only [hf.scheduled, hf.inMask, hf.elapsed, hf, ne_eq, not_true_eq_false, if_true,
      if_false, decide_true]
  · simp only [hf, decide_false]
    split_ifs with hstate hmask helapsed
    · rfl
    · rfl
    · exact (hf ⟨not_not.mp hstate, hmask, helapsed⟩).elim
    · rfl

theorem findSchedulableStep_of_noWait {f : FiberId} (h : (s.fibers f).waitableObject = none)
    (core : ℕ) (tick : BitVec 64) (o : Option FiberId) :
    findSchedulableStep fuel core tick (.schedulerListNode f) (s, o) =
      if s.Eligible core tick f then .ok (.stop (s, some f)) else .ok (.next (s, none)) := by
  simp only [findSchedulableStep, schedulerNodeParent, ok_bind, isSchedulable_of_noWait h,
    decide_eq_true_eq]

theorem visit_findSchedulableStep (h : ∀ f, (s.fibers f).waitableObject = none)
    (core : ℕ) (tick : BitVec 64) (fs : List FiberId) :
    visit (findSchedulableStep fuel core tick) (fs.map .schedulerListNode) .ok (s, none) =
      .ok (s, fs.find? (s.Eligible core tick ·)) := by
  induction fs with
  | nil => rfl
  | cons f fs ih =>
      have hb : findSchedulableStep fuel core tick (.schedulerListNode f) (s, none) = _ :=
        findSchedulableStep_of_noWait (h f) core tick none
      rw [List.map_cons]
      by_cases hf : s.Eligible core tick f
      · rw [if_pos hf] at hb
        rw [visit_stop hb, List.find?_cons_of_pos (by simpa using hf)]
      · rw [if_neg hf] at hb
        rw [visit_next hb, List.find?_cons_of_neg (by simpa using hf), ih]

/-- A list of distinct slots is not longer than the slot array. -/
theorem length_le_maxThreadCount {fs : List FiberId} (hnodup : fs.Nodup)
    (hlt : ∀ f ∈ fs, f < maxThreadCount) : fs.length ≤ maxThreadCount := by
  have hsub : fs ⊆ List.range maxThreadCount := fun f hf => List.mem_range.mpr (hlt f hf)
  simpa using (hnodup.subperm hsub).length_le

/-- The loop over a run list finds the first fiber of the list that may run. -/
theorem Filed.findSchedulable (h : Filed s.links place)
    (hwait : ∀ f, (s.fibers f).waitableObject = none)
    (hlt : ∀ f, place f ≠ none → f < maxThreadCount) (hfuel : maxThreadCount < fuel)
    {l : RunList} {fs : List FiberId}
    (hr : s.links.Ring (.runList l) (fs.map .schedulerListNode))
    (hmem : ∀ f, f ∈ fs ↔ place f = some (.runList l)) (core : ℕ) (tick : BitVec 64) :
    s.findSchedulable fuel l core tick = .ok (s, fs.find? (s.Eligible core tick ·)) := by
  have hlength : (fs.map Node.schedulerListNode).length < fuel := by
    have hnodup : fs.Nodup := (List.nodup_cons.mp hr.nodup).2.of_map
    have hle := length_le_maxThreadCount hnodup
      (fun f hf => hlt f (by simp [(hmem f).mp hf]))
    rw [List.length_map]
    omega
  have hkeep : ∀ x ∈ fs.map Node.schedulerListNode, ∀ p p' : UserScheduler × Option FiberId,
      p = (s, none) → findSchedulableStep fuel core tick x p = .ok (.next p') →
        p'.1.links = p.1.links ∧ p' = (s, none) := by
    intro x hx p p' hp hb
    obtain ⟨f, -, rfl⟩ := List.mem_map.mp hx
    subst hp
    rw [findSchedulableStep_of_noWait (hwait f)] at hb
    split at hb
    · cases hb
    · cases hb
      exact ⟨rfl, rfl⟩
  rw [UserScheduler.findSchedulable,
    rangeFor_eq_visit (fun p => p = (s, none)) h.coherent hr hlength hkeep rfl,
    visit_findSchedulableStep hwait]

/-- The scans of some run lists are one scan of their fibers. -/
theorem Filed.findRunnable (h : Filed s.links place)
    (hwait : ∀ f, (s.fibers f).waitableObject = none)
    (hlt : ∀ f, place f ≠ none → f < maxThreadCount) (hfuel : maxThreadCount < fuel)
    {queue : RunList → List FiberId}
    (hr : ∀ l, s.links.Ring (.runList l) ((queue l).map .schedulerListNode))
    (hmem : ∀ l f, f ∈ queue l ↔ place f = some (.runList l))
    (lists : List RunList) (core : ℕ) (tick : BitVec 64) :
    findRunnable fuel core tick lists s =
      .ok (s, (lists.flatMap queue).find? (s.Eligible core tick ·)) := by
  induction lists with
  | nil => rfl
  | cons l lists ih =>
      simp only [UserScheduler.findRunnable,
        h.findSchedulable hwait hlt hfuel (hr l) (hmem l) core tick, ok_bind, List.flatMap_cons,
        List.find?_append]
      cases (queue l).find? (s.Eligible core tick ·) with
      | none => simpa using ih
      | some f => simp

/-- A pass dispatches the first fiber of the run lists that may run, or lets the core
rest. -/
theorem Filed.schedulerPass (h : Filed s.links place)
    (hwait : ∀ f, (s.fibers f).waitableObject = none)
    (hnobody : ∀ f, place f ≠ some .schedulerWaitList)
    (hlt : ∀ f, place f ≠ none → f < maxThreadCount) (hfuel : maxThreadCount < fuel)
    {queue : RunList → List FiberId}
    (hr : ∀ l, s.links.Ring (.runList l) ((queue l).map .schedulerListNode))
    (hmem : ∀ l f, f ∈ queue l ↔ place f = some (.runList l))
    (core : ℕ) (tick : BitVec 64) :
    s.schedulerPass fuel core tick =
      match (runListOrder.flatMap queue).find? (s.Eligible core tick ·) with
      | some f => (s.dispatch f core).map (·, some f)
      | none => s.restCore.map (·, none) := by
  obtain ⟨fuel, rfl⟩ := Nat.exists_eq_add_one_of_ne_zero (Nat.ne_of_gt (Nat.zero_lt_of_lt hfuel))
  have hscan : s.timeoutScan (fuel + 1) core tick = .ok s :=
    rangeFor_nil (h.next_list trivial hnobody)
  unfold UserScheduler.schedulerPass
  rw [hscan, ok_bind, h.findRunnable hwait hlt hfuel hr hmem, ok_bind]
  cases (runListOrder.flatMap queue).find? (s.Eligible core tick ·) with
  | none =>
      change (s.restCore >>= fun t => .ok (t, none)) = s.restCore.map (·, none)
      cases s.restCore <;> rfl
  | some f =>
      change (s.dispatch f core >>= fun t => .ok (t, some f)) =
        (s.dispatch f core).map (·, some f)
      cases s.dispatch f core <;> rfl

end DDFramework.UserScheduler
