import DDFramework.Model.ServiceCriticalSection

/-! # Who is inside a `ServiceCriticalSection`

The test of the loop of `Enter` is inverted: a fiber that takes the lock waits, and one that
finds the lock held goes inside. Callers exclude each other as long as the fibers find the
lock free, or held by themselves. -/

namespace DDFramework.ServiceCriticalSection.System

variable {ι : Type*} [DecidableEq ι] {isFiber : ι → Bool} {s s' : System ι} {i : ι}
  {a : Action ι}

/-- At most one caller is inside, and every release was a release by the holder. -/
structure Exclusive (s : System ι) : Prop where
  inside : ∀ i j, s.phase i = .inside → s.phase j = .inside → i = j
  releases : ∀ r ∈ s.releases, r.holder = some r.caller

/-- A fiber that tries to take the lock finds it free, or holds it already. -/
def FindsFree (s : System ι) (a : Action ι) : Prop :=
  ∀ i, a = .tryAcquire i → s.holder = none ∨ s.holder = some i

/-- The callers inside hold the lock. -/
structure Held (s : System ι) : Prop where
  inside : ∀ i, s.phase i = .inside → s.holder = some i
  releases : ∀ r ∈ s.releases, r.holder = some r.caller

omit [DecidableEq ι] in
theorem Held.exclusive (h : Held s) : Exclusive s where
  inside i j hi hj := by
    have hholder := h.inside i hi
    rw [h.inside j hj] at hholder
    exact (Option.some.inj hholder).symm
  releases := h.releases

/-! ### One step -/

theorem tryAcquire_of_free (h : s.holder = none) :
    s.tryAcquire i = { s with holder := some i }.goto i .waiting := by
  simp [tryAcquire, h]

theorem tryAcquire_of_held (h : s.holder ≠ none) : s.tryAcquire i = s.goto i .inside := by
  simp [tryAcquire, h]

theorem Held.goto (h : Held s) {phase : Phase} (hphase : phase = .inside → s.holder = some i) :
    Held (s.goto i phase) where
  inside j hj := by
    by_cases hji : j = i
    · simp only [System.goto, hji, Function.update_self] at hj ⊢
      exact hphase hj
    · simp only [System.goto, Function.update_of_ne hji] at hj
      exact h.inside j hj
  releases := h.releases

omit [DecidableEq ι] in
/-- A free lock may be taken by anybody. -/
theorem Held.take (h : Held s) (hfree : s.holder = none) : Held { s with holder := some i } where
  inside j hj := by
    have hholder := h.inside j hj
    rw [hfree] at hholder
    cases hholder
  releases := h.releases

theorem Held.release (h : Held s) (hi : s.phase i = .inside) :
    Held ((s.release i).goto i .waking) where
  inside j hj := by
    have hj' : s.phase j = .inside ∧ j ≠ i := by
      by_cases hji : j = i
      · simp [System.goto, hji] at hj
      · exact ⟨by simpa [System.goto, System.release, hji] using hj, hji⟩
    exact (hj'.2 (h.exclusive.inside j i hj'.1 hi)).elim
  releases r hr := by
    simp only [System.goto, System.release, List.mem_append, List.mem_singleton] at hr
    rcases hr with hr | rfl
    · exact h.releases r hr
    · exact h.inside i hi

theorem Held.next (h : Held s) (hfree : FindsFree s a) (htaken : s.next isFiber a = some s') :
    Held s' := by
  cases a with
  | enter i =>
      simp only [System.next, Option.ite_none_right_eq_some, Option.some.injEq] at htaken
      obtain ⟨-, rfl⟩ := htaken
      refine h.goto fun hphase => ?_
      split at hphase <;> cases hphase
  | acquire i =>
      simp only [System.next, Option.ite_none_right_eq_some, Option.some.injEq] at htaken
      obtain ⟨⟨-, hnone⟩, rfl⟩ := htaken
      exact (h.take hnone).goto fun _ => rfl
  | tryAcquire i =>
      simp only [System.next, Option.ite_none_right_eq_some, Option.some.injEq] at htaken
      obtain ⟨-, rfl⟩ := htaken
      rcases hfree i rfl with hnone | hown
      · rw [tryAcquire_of_free hnone]
        exact (h.take hnone).goto fun hphase => nomatch hphase
      · rw [tryAcquire_of_held (by simp [hown])]
        exact h.goto fun _ => hown
  | resume i =>
      simp only [System.next, Option.ite_none_right_eq_some, Option.some.injEq] at htaken
      obtain ⟨-, rfl⟩ := htaken
      exact h.goto fun hphase => nomatch hphase
  | leave i =>
      simp only [System.next, Option.ite_none_right_eq_some, Option.some.injEq] at htaken
      obtain ⟨hi, rfl⟩ := htaken
      exact h.release hi
  | wake i =>
      simp only [System.next, Option.ite_none_right_eq_some, Option.some.injEq] at htaken
      obtain ⟨-, rfl⟩ := htaken
      exact h.goto fun hphase => nomatch hphase

/-! ### Runs -/

theorem reachable_held (h : Machine.Reachable (next isFiber) FindsFree start s) : Held s := by
  refine h.invariant ⟨?_, ?_⟩ fun hs hfree htaken => hs.next hfree htaken
  · intro i hi
    cases hi
  · intro r hr
    cases hr

/-- A fiber that finds the lock held by another caller goes inside without it, and its
`Leave` releases the lock of the other one. -/
theorem leave_after_contended_try (htrying : s.phase i = .trying)
    (hheld : ¬ FindsFree s (.tryAcquire i)) :
    ∃ s' s'', s.next isFiber (.tryAcquire i) = some s' ∧
      s'.next isFiber (.leave i) = some s'' ∧ ¬ Exclusive s'' := by
  have hholder : s.holder ≠ none ∧ s.holder ≠ some i := by
    constructor
    · exact fun hnone => hheld fun j _ => Or.inl hnone
    · intro hown
      refine hheld fun j hj => Or.inr ?_
      cases hj
      exact hown
  refine ⟨s.goto i .inside, ((s.goto i .inside).release i).goto i .waking, ?_, ?_, ?_⟩
  · simp [System.next, htrying, tryAcquire_of_held hholder.1]
  · simp [System.next, System.goto]
  · intro h
    exact hholder.2 (h.releases ⟨i, s.holder⟩ (by simp [System.goto, System.release]))

/-- In the runs in which every try of a fiber finds the lock free or held by that fiber, at
most one caller is inside and only holders release the lock. Any other try can be followed
by a release by a caller that does not hold the lock. -/
theorem enter_exclusive_runs (isFiber : ι → Bool) :
    (∀ s, Machine.Reachable (next isFiber) FindsFree start s → Exclusive s) ∧
      ∀ s i, Machine.Reachable (next isFiber) FindsFree start s → s.phase i = .trying →
        ¬ FindsFree s (.tryAcquire i) →
        ∃ s' s'', s.next isFiber (.tryAcquire i) = some s' ∧
          s'.next isFiber (.leave i) = some s'' ∧ ¬ Exclusive s'' := by
  constructor
  · exact fun s hs => (reachable_held hs).exclusive
  · exact fun s i _ htrying hheld => leave_after_contended_try htrying hheld

/-- A Win32 thread is inside when a fiber enters. -/
theorem enter_not_exclusive : ∃ s : System (Fin 2),
    Machine.Reaches (next fun i => i == 1) start s ∧ s.phase 0 = .inside ∧ s.phase 1 = .inside ∧
      ¬ Exclusive s := by
  let as : List (Action (Fin 2)) := [.enter 0, .acquire 0, .enter 1, .tryAcquire 1]
  have hrun : (Machine.run (next fun i => i == 1) start as).any (fun s =>
      s.phase 0 = .inside ∧ s.phase 1 = .inside) = true := by decide
  obtain ⟨s, hs, hphase⟩ := (Option.any_eq_true _ _).mp hrun
  simp only [decide_eq_true_eq] at hphase
  refine ⟨s, .of_run hs, hphase.1, hphase.2, fun h => ?_⟩
  exact absurd (h.inside 0 1 hphase.1 hphase.2) (by decide)

end DDFramework.ServiceCriticalSection.System
