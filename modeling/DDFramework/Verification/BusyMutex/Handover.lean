import DDFramework.Verification.BusyMutex.MutualExclusion
import Mathlib.Data.Finset.Max

/-! # Handing a `BusyMutex` over

A poll compares the release count with the lock count of the same moment, which counts the
polling thread itself. So no poll ever passes, and the mutex stays closed once a thread
leaves it while another one waits. -/

namespace DDFramework.BusyMutex.System

variable {ι : Type*} [DecidableEq ι] {s s' : System ι} {i j : ι}

/-- The next poll of the thread ends its loop. -/
def PollPasses (s : System ι) (i : ι) : Prop :=
  ∃ s', s.next (.poll i) = some s' ∧ s'.phase i = .inside

/-- The thread waits, and no waiting thread did its fetch-add before. -/
def FirstInLine (s : System ι) (i : ι) : Prop :=
  s.phase i = .waiting ∧ ∀ j, s.phase j = .waiting → s.ticket i ≤ s.ticket j

/-- When nobody is inside, the poll of the first thread in line passes and no other one. -/
def HandsOver (s : System ι) : Prop :=
  (∀ i, s.phase i ≠ .inside) → ∀ i, s.phase i = .waiting → (s.PollPasses i ↔ s.FirstInLine i)

/-- Nobody waits when a thread leaves. -/
def LeavesUncontended (s : System ι) (a : Action ι) : Prop :=
  ∀ i, a = .leave i → ∀ j, s.phase j ≠ .waiting

variable [Fintype ι]

theorem Counted.not_pollPasses (h : Counted s) (hcard : Fintype.card ι < 65536) :
    ¬ s.PollPasses i := by
  rintro ⟨s', hnext, hinside⟩
  simp only [System.next, Option.ite_none_right_eq_some, Option.some.injEq] at hnext
  obtain ⟨hi, rfl⟩ := hnext
  rw [phase_poll h hcard hi, hi] at hinside
  cases hinside

omit [DecidableEq ι] in
theorem exists_firstInLine (hi : s.phase i = .waiting) : ∃ j, s.FirstInLine j := by
  obtain ⟨j, hj, hmin⟩ := Finset.exists_min_image
    (Finset.univ.filter (fun j => s.phase j = .waiting)) s.ticket ⟨i, by simpa using hi⟩
  refine ⟨j, by simpa using hj, fun k hk => hmin k ?_⟩
  simpa using hk

theorem Counted.handsOver_iff (h : Counted s) (hcard : Fintype.card ι < 65536) :
    s.HandsOver ↔ (∃ i, s.phase i = .inside) ∨ ∀ i, s.phase i ≠ .waiting := by
  constructor
  · intro hands
    by_contra hclosed
    push Not at hclosed
    obtain ⟨hnobody, i, hi⟩ := hclosed
    obtain ⟨j, hj⟩ := exists_firstInLine hi
    exact h.not_pollPasses hcard ((hands hnobody j hj.1).mpr hj)
  · rintro (⟨i, hi⟩ | hnone) hnobody j hj
    · exact absurd hi (hnobody i)
    · exact absurd hj (hnone j)

/-! ### One step -/

theorem handsOver_fetchAdd (h : Counted s) (hcard : Fintype.card ι < 65536)
    (hi : s.phase i = .outside) (hands : s.HandsOver) : (s.fetchAdd i).HandsOver := by
  rw [h.handsOver_iff hcard] at hands
  rw [(h.fetchAdd hcard hi).handsOver_iff hcard]
  left
  cases htest : testLoop s.counter with
  | outside => exact absurd htest (testLoop_ne_outside _)
  | inside => exact ⟨i, by simp [fetchAdd, htest]⟩
  | waiting =>
      have hbusy : s.busy.Nonempty := by
        rw [← h.mustWait_iff_busy hcard]
        by_contra hpass
        simp [testLoop, hpass] at htest
      obtain ⟨j, hj⟩ : ∃ j, s.phase j = .inside := by
        rcases hands with hinside | hnone
        · exact hinside
        · obtain ⟨j, hj⟩ := hbusy
          refine ⟨j, ?_⟩
          cases hphase : s.phase j with
          | outside => exact absurd hphase (mem_busy.mp hj)
          | waiting => exact absurd hphase (hnone j)
          | inside => rfl
      have hji : j ≠ i := by
        rintro rfl
        rw [hi] at hj
        cases hj
      exact ⟨j, by simpa [fetchAdd, hji] using hj⟩

theorem handsOver_poll (h : Counted s) (hcard : Fintype.card ι < 65536)
    (hi : s.phase i = .waiting) (hands : s.HandsOver) : (s.poll i).HandsOver := by
  rw [h.handsOver_iff hcard] at hands
  rw [(h.poll hcard hi).handsOver_iff hcard, phase_poll h hcard hi]
  exact hands

theorem handsOver_leave (h : Counted s) (hcard : Fintype.card ι < 65536)
    (hi : s.phase i = .inside) :
    (s.leave i).HandsOver ↔ ∀ j, s.phase j ≠ .waiting := by
  have hnobody : ¬ ∃ j, (s.leave i).phase j = .inside := by
    rintro ⟨j, hj⟩
    by_cases hji : j = i
    · simp [leave, hji] at hj
    · refine hji (h.exclusive j i ?_ hi)
      simpa [leave, hji] using hj
  rw [(h.leave hi).handsOver_iff hcard, or_iff_right hnobody]
  refine forall_congr' fun j => ?_
  by_cases hji : j = i
  · simp [leave, hji, hi]
  · simp [leave, hji]

theorem handsOver_next {a : Action ι} (h : Counted s) (hcard : Fintype.card ι < 65536)
    (hands : s.HandsOver) (hnext : s.next a = some s') :
    s'.HandsOver ↔ s.LeavesUncontended a := by
  rcases next_cases hnext with ⟨i, rfl, hi, rfl⟩ | ⟨i, rfl, hi, rfl⟩ | ⟨i, rfl, hi, rfl⟩
  · exact iff_of_true (handsOver_fetchAdd h hcard hi hands) (fun _ ha => nomatch ha)
  · exact iff_of_true (handsOver_poll h hcard hi hands) (fun _ ha => nomatch ha)
  · rw [handsOver_leave h hcard hi]
    exact ⟨fun hnone _ _ => hnone, fun hleave => hleave i rfl⟩

/-- A run hands the mutex over in all its states exactly when nobody waits whenever a
thread leaves. -/
theorem enter_handsOver_iff (hcard : Fintype.card ι < 65536) (as : List (Action ι)) :
    Machine.Always next HandsOver start as ↔
      Machine.EveryStep next LeavesUncontended start as := by
  refine Machine.always_iff_everyStep ?_ ?_ as
  · intro _ i hi
    cases hi
  · intro s s' a hreach hands hnext
    exact handsOver_next (reachable_counted hcard hreach) hcard hands hnext

theorem enter_handsOver_uncontended :
    Machine.Always next HandsOver (start : System (Fin 2)) [.fetchAdd 0, .leave 0, .fetchAdd 1] := by
  rw [enter_handsOver_iff (by decide)]
  have hsteps : ∀ bs ∈ [.fetchAdd 0, .leave 0, .fetchAdd 1].inits, ∀ i : Fin 2,
      ∀ s ∈ Machine.run next (start : System (Fin 2)) bs, s.phase i ≠ .waiting := by decide
  intro bs a t t' hbs hrun _ i _ j
  exact hsteps bs ((List.mem_inits _ _).mpr ((List.prefix_append bs [a]).trans hbs)) j t hrun

/-- Thread 1 waits when thread 0 leaves: nobody is inside, and the poll of thread 1, the
first in line, does not pass. -/
theorem enter_not_handsOver : ∃ s : System (Fin 2), Machine.Reaches next start s ∧
    (∀ i, s.phase i ≠ .inside) ∧ s.FirstInLine 1 ∧ ¬ s.PollPasses 1 ∧ ¬ s.HandsOver := by
  let as : List (Action (Fin 2)) := [.fetchAdd 0, .fetchAdd 1, .leave 0]
  have hrun : (Machine.run next start as).any (fun s => (∀ i, s.phase i ≠ .inside) ∧
      s.phase 0 = .outside ∧ s.phase 1 = .waiting) = true := by decide
  obtain ⟨s, hs, hphase⟩ := (Option.any_eq_true _ _).mp hrun
  simp only [decide_eq_true_eq] at hphase
  obtain ⟨hnobody, h0, h1⟩ := hphase
  have hreach := Machine.Reaches.of_run hs
  have hpoll := (reachable_counted (by decide) hreach).not_pollPasses (i := 1) (by decide)
  have hfirst : s.FirstInLine 1 := by
    refine ⟨h1, fun j hj => ?_⟩
    match j with
    | 0 => exact absurd hj (by rw [h0]; decide)
    | 1 => exact le_refl _
  exact ⟨s, hreach, hnobody, hfirst, hpoll,
    fun hands => hpoll ((hands hnobody 1 h1).mpr hfirst)⟩

end DDFramework.BusyMutex.System
