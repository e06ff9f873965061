import DDFramework.Model.UtilCriticalSection

/-! # Who has locked a section

The id in a section is the id of the thread inside it, also across waits on a condition variable.
So the assertions tell a thread that is inside from one that is not, whatever the others do. -/

namespace DDFramework.UtilCriticalSection

theorem Thread.word_injective : Function.Injective Thread.word := by
  intro t u h
  have hid : t.id = u.id := by
    have hnat := congrArg BitVec.toNat h
    simp only [Thread.word, BitVec.toNat_setWidth] at hnat
    apply BitVec.eq_of_toNat_eq
    omega
  cases t
  cases u
  cases hid
  rfl

theorem Thread.word_ne_zero (t : Thread) : t.word ≠ 0 := by
  intro h
  apply t.id_ne_zero
  have hnat := congrArg BitVec.toNat h
  simp only [Thread.word, BitVec.toNat_setWidth] at hnat
  apply BitVec.eq_of_toNat_eq
  have hlt := t.id.isLt
  simp at hnat ⊢
  omega

/-- What the place of a thread says about the lock and about who is inside. -/
def Phase.Agrees (t : Thread) (holds inside : Bool) : Phase → Prop
  | .returned | .checkRead _ | .tryAcquire => holds = inside
  | .checkCompare _ exchange => holds = inside ∧ (inside = true → exchange = t.word)
  | .lockAcquire => holds = false ∧ inside = false
  | .lockSetId | .trySetId | .unlockRelease => holds = true ∧ inside = false
  | .unlockClearId | .waitUnsetId => holds = true ∧ inside = true
  | .waitSleep threadId | .waitSetId threadId =>
      holds = true ∧ inside = false ∧ threadId = t.word
  | .waitAsleep threadId | .waitAcquire threadId =>
      holds = false ∧ inside = false ∧ threadId = t.word
  | .aborted .lock => holds = true ∧ inside = true
  | .aborted .unlock => holds = false ∧ inside = false
  | .aborted .query => False

theorem Phase.Agrees.holds {t : Thread} {holds : Bool} {phase : Phase}
    (h : phase.Agrees t holds true) : holds = true := by
  cases phase with
  | returned => exact h
  | checkRead => exact h
  | checkCompare => exact h.1
  | lockAcquire => cases h.2
  | lockSetId => cases h.2
  | unlockClearId => exact h.1
  | unlockRelease => cases h.2
  | tryAcquire => exact h
  | trySetId => cases h.2
  | waitUnsetId => exact h.1
  | waitSleep => cases h.2.1
  | waitAsleep => cases h.2.1
  | waitAcquire => cases h.2.1
  | waitSetId => cases h.2.1
  | aborted check =>
      cases check with
      | lock => exact h.1
      | unlock => cases h.2
      | query => exact h.elim

namespace System

variable {s s' : System} {t u : Thread} {a : Action}

/-- A thread waits only while it is inside. -/
def WaitsInside (s : System) (a : Action) : Prop :=
  ∀ t, a = .call t .wait → s.inside t = true

/-- The specification of the section. -/
structure Exact (s : System) : Prop where
  exclusive : ∀ t u, s.inside t = true → s.inside u = true → t = u
  lockedThreadId : ∀ t, s.lockedThreadId = t.word ↔ s.inside t = true
  lock_aborts : ∀ t, s.phase t = .aborted .lock → s.inside t = true
  lock_passes : ∀ t, s.phase t = .lockAcquire → s.inside t = false
  unlock_aborts : ∀ t, s.phase t = .aborted .unlock → s.inside t = false
  unlock_passes : ∀ t, s.phase t = .unlockClearId → s.inside t = true
  answers : ∀ a ∈ s.answers, a.returned = a.inside

structure Owned (s : System) : Prop where
  agrees : ∀ t, (s.phase t).Agrees t (s.holder == some t) (s.inside t)
  lockedThreadId : ∀ t, s.lockedThreadId = t.word ↔ s.inside t = true
  answers : ∀ a ∈ s.answers, a.returned = a.inside

theorem Owned.holder (h : Owned s) (ht : s.inside t = true) : s.holder = some t := by
  have hagrees := h.agrees t
  rw [ht] at hagrees
  exact beq_iff_eq.mp hagrees.holds

theorem Owned.exclusive (h : Owned s) (ht : s.inside t = true) (hu : s.inside u = true) : t = u :=
  Option.some.inj ((h.holder ht).symm.trans (h.holder hu))

theorem Owned.exact (h : Owned s) : Exact s where
  exclusive _ _ ht hu := h.exclusive ht hu
  lockedThreadId := h.lockedThreadId
  lock_aborts t ht := by
    have hagrees := h.agrees t
    rw [ht] at hagrees
    exact hagrees.2
  lock_passes t ht := by
    have hagrees := h.agrees t
    rw [ht] at hagrees
    exact hagrees.2
  unlock_aborts t ht := by
    have hagrees := h.agrees t
    rw [ht] at hagrees
    exact hagrees.2
  unlock_passes t ht := by
    have hagrees := h.agrees t
    rw [ht] at hagrees
    exact hagrees.2
  answers := h.answers

/-! ### One step -/

/-- A step of `t` that leaves the places of the other threads as they are. -/
theorem Owned.goto (h : Owned s) {phase : Phase}
    (hphase : phase.Agrees t (s.holder == some t) (s.inside t)) : Owned (s.goto t phase) where
  agrees u := by
    by_cases hu : u = t
    · simp only [System.goto, hu, Function.update_self]
      exact hphase
    · simp only [System.goto, Function.update_of_ne hu]
      exact h.agrees u
  lockedThreadId := h.lockedThreadId
  answers := h.answers

/-- The lock is taken or released by `t`, who is the only one to have it. -/
theorem Owned.hold (h : Owned s) {holder : Option Thread} {phase : Phase}
    (hbefore : ∀ u, u ≠ t → s.holder ≠ some u) (hafter : ∀ u, u ≠ t → holder ≠ some u)
    (hphase : phase.Agrees t (holder == some t) (s.inside t)) :
    Owned ({ s with holder := holder }.goto t phase) where
  agrees u := by
    by_cases hu : u = t
    · simp only [System.goto, hu, Function.update_self]
      exact hphase
    · have hbeq : (holder == some u) = (s.holder == some u) := by
        rw [beq_false_of_ne (hafter u hu), beq_false_of_ne (hbefore u hu)]
      simp only [System.goto, Function.update_of_ne hu, hbeq]
      exact h.agrees u
  lockedThreadId := h.lockedThreadId
  answers := h.answers

theorem Owned.take (h : Owned s) {phase : Phase} (htaken : s.take t phase = some s')
    (hinside : s.inside t = false) (hphase : phase.Agrees t true false) : Owned s' := by
  rw [System.take, Option.ite_none_right_eq_some] at htaken
  rw [← Option.some.inj htaken.2]
  refine h.hold ?_ ?_ ?_
  · intro u _
    rw [htaken.1]
    exact nofun
  · exact fun u hu heq => hu (Option.some.inj heq).symm
  · rw [hinside, beq_self_eq_true]
    exact hphase

theorem Owned.release (h : Owned s) {phase : Phase} (hholder : s.holder = some t)
    (hphase : phase.Agrees t false (s.inside t)) : Owned (s.release t phase) := by
  refine h.hold ?_ (fun _ _ => nofun) hphase
  intro u hu heq
  exact hu (Option.some.inj (hholder.symm.trans heq)).symm

theorem Owned.enter (h : Owned s) (hholder : s.holder = some t) : Owned (s.enter t t.word) where
  agrees u := by
    by_cases hu : u = t
    · simp only [System.enter, System.goto, hu, Function.update_self]
      exact beq_iff_eq.mpr hholder
    · simp only [System.enter, System.goto, Function.update_of_ne hu]
      exact h.agrees u
  lockedThreadId u := by
    by_cases hu : u = t
    · simp [System.enter, System.goto, hu]
    · simp only [System.enter, System.goto, Function.update_of_ne hu]
      refine iff_of_false (fun heq => hu (Thread.word_injective heq).symm) ?_
      exact fun hinside => hu (Option.some.inj (hholder.symm.trans (h.holder hinside))).symm
  answers := h.answers

theorem Owned.leave (h : Owned s) {phase : Phase} (hinside : s.inside t = true)
    (hphase : phase.Agrees t true false) : Owned (s.leave t phase) where
  agrees u := by
    by_cases hu : u = t
    · simp only [System.leave, System.goto, hu, Function.update_self, h.holder hinside,
        beq_self_eq_true]
      exact hphase
    · simp only [System.leave, System.goto, Function.update_of_ne hu]
      exact h.agrees u
  lockedThreadId u := by
    refine iff_of_false (fun heq => u.word_ne_zero heq.symm) ?_
    by_cases hu : u = t
    · simp [System.leave, System.goto, hu]
    · simp only [System.leave, System.goto, Function.update_of_ne hu]
      exact fun hother => hu (h.exclusive hother hinside)
  answers := h.answers

/-- The answer of `IsLockedByCurrentThread` is whether the thread is inside. -/
theorem Owned.compare (h : Owned s) {check : Check} {exchange : BitVec 64}
    (hphase : s.phase t = .checkCompare check exchange) :
    Owned (({ s with lockedThreadId :=
      if t.word == s.lockedThreadId then exchange else s.lockedThreadId } : System).checked t check
        (t.word == s.lockedThreadId)) := by
  have hagrees := h.agrees t
  rw [hphase] at hagrees
  have hinside : (t.word == s.lockedThreadId) = s.inside t := by
    rw [Bool.eq_iff_iff, beq_iff_eq, eq_comm]
    exact h.lockedThreadId t
  -- What is written is the id that stands there.
  have hwrite : (if t.word == s.lockedThreadId then exchange else s.lockedThreadId) =
      s.lockedThreadId := by
    split
    next heq => rw [hagrees.2 (hinside.symm.trans heq), ← beq_iff_eq.mp heq]
    next => rfl
  rw [hwrite, hinside]
  cases check with
  | lock =>
      refine h.goto ?_
      cases hin : s.inside t with
      | false => exact ⟨hagrees.1.trans hin, rfl⟩
      | true => exact ⟨hagrees.1.trans hin, rfl⟩
  | unlock =>
      refine h.goto ?_
      cases hin : s.inside t with
      | false => exact ⟨hagrees.1.trans hin, rfl⟩
      | true => exact ⟨hagrees.1.trans hin, rfl⟩
  | query =>
      have hanswered : Owned { s with
          answers := s.answers ++ [Answer.mk (s.inside t) (s.inside t)] } := by
        refine ⟨h.agrees, h.lockedThreadId, ?_⟩
        rw [List.forall_mem_append, List.forall_mem_singleton]
        exact ⟨h.answers, rfl⟩
      exact hanswered.goto hagrees.1

theorem Owned.advance (h : Owned s) (htaken : s.advance t = some s') : Owned s' := by
  have hagrees := h.agrees t
  unfold System.advance at htaken
  cases hphase : s.phase t with
  | returned => simp [hphase] at htaken
  | checkRead check =>
      simp only [hphase, Option.some.injEq] at htaken hagrees
      rw [← htaken]
      refine h.goto ⟨hagrees, fun hinside => ?_⟩
      exact (h.lockedThreadId t).mpr hinside
  | checkCompare check exchange =>
      simp only [hphase, Option.some.injEq] at htaken
      rw [← htaken]
      have hcompared := h.compare hphase
      split
      next heq =>
        rw [if_pos heq] at hcompared
        exact hcompared
      next hne =>
        rw [if_neg hne] at hcompared
        exact hcompared
  | lockAcquire =>
      simp only [hphase] at htaken hagrees
      exact h.take htaken hagrees.2 ⟨rfl, rfl⟩
  | lockSetId =>
      simp only [hphase, Option.some.injEq] at htaken hagrees
      rw [← htaken]
      exact h.enter (beq_iff_eq.mp hagrees.1)
  | unlockClearId =>
      simp only [hphase, Option.some.injEq] at htaken hagrees
      rw [← htaken]
      exact h.leave hagrees.2 ⟨rfl, rfl⟩
  | unlockRelease =>
      simp only [hphase, Option.some.injEq] at htaken hagrees
      rw [← htaken]
      exact h.release (beq_iff_eq.mp hagrees.1) hagrees.2.symm
  | tryAcquire =>
      simp only [hphase] at htaken hagrees
      split at htaken
      next hfree =>
        have hinside : s.inside t = false := by
          rw [← hagrees, hfree]
          rfl
        exact h.take htaken hinside ⟨rfl, rfl⟩
      next =>
        rw [← Option.some.inj htaken]
        exact h.goto hagrees
  | trySetId =>
      simp only [hphase, Option.some.injEq] at htaken hagrees
      rw [← htaken]
      exact h.enter (beq_iff_eq.mp hagrees.1)
  | waitUnsetId =>
      simp only [hphase, Option.some.injEq] at htaken hagrees
      rw [← htaken]
      exact h.leave hagrees.2 ⟨rfl, rfl, (h.lockedThreadId t).mpr hagrees.2⟩
  | waitSleep threadId =>
      simp only [hphase, Option.some.injEq] at htaken hagrees
      rw [← htaken]
      exact h.release (beq_iff_eq.mp hagrees.1) ⟨rfl, hagrees.2⟩
  | waitAsleep => simp [hphase] at htaken
  | waitAcquire threadId =>
      simp only [hphase] at htaken hagrees
      exact h.take htaken hagrees.2.1 ⟨rfl, rfl, hagrees.2.2⟩
  | waitSetId threadId =>
      simp only [hphase, Option.some.injEq] at htaken hagrees
      rw [← htaken, hagrees.2.2]
      exact h.enter (beq_iff_eq.mp hagrees.1)
  | aborted => simp [hphase] at htaken

theorem Owned.next (h : Owned s) (hwaits : WaitsInside s a) (htaken : s.next a = some s') :
    Owned s' := by
  cases a with
  | call t call =>
      simp only [System.next, Option.ite_none_right_eq_some, Option.some.injEq] at htaken
      obtain ⟨hphase, rfl⟩ := htaken
      have hagrees : (s.holder == some t) = s.inside t := by
        have hplace := h.agrees t
        rw [hphase] at hplace
        exact hplace
      refine h.goto ?_
      cases call with
      | lock => exact hagrees
      | unlock => exact hagrees
      | tryLock => exact hagrees
      | isLockedByCurrentThread => exact hagrees
      | wait =>
          have hinside := hwaits t rfl
          exact ⟨hagrees.trans hinside, hinside⟩
  | advance t => exact h.advance htaken
  | wake t =>
      have hagrees := h.agrees t
      unfold System.next at htaken
      cases hphase : s.phase t with
      | waitAsleep threadId =>
          simp only [hphase, Option.some.injEq] at htaken hagrees
          rw [← htaken]
          exact h.goto hagrees
      | _ => simp [hphase] at htaken

/-! ### Runs -/

theorem owned_start : Owned start := by
  refine ⟨fun _ => rfl, fun t => iff_of_false ?_ Bool.false_ne_true, nofun⟩
  exact fun h => t.word_ne_zero h.symm

theorem reachable_owned (h : Machine.Reachable next WaitsInside start s) : Owned s :=
  h.invariant owned_start fun hs hwaits htaken => hs.next hwaits htaken

/-- A thread that waits without being inside takes the id of the thread that is, and the assertion
of the `unlock` of that one fails. -/
theorem unlock_aborts_after_wait (hu : s.inside u = true) (hreturned : s.phase u = .returned)
    (ht : s.phase t = .returned) (hne : t ≠ u) :
    ∃ s', Machine.run next s
        [.call t .wait, .advance t, .call u .unlock, .advance u, .advance u] = some s' ∧
      s'.phase u = .aborted .unlock ∧ s'.inside u = true := by
  have hword : ¬ u.word = 0#64 := u.word_ne_zero
  simp [Machine.run, System.next, System.advance, System.goto, System.leave, System.checked,
    Call.phase, Function.update_of_ne hne.symm, ht, hreturned, hword, hu]

/-- In the runs in which only threads inside wait, one thread at most is inside, its id is in the
section, and `IsLockedByCurrentThread` and the assertions tell it from the others. Any other wait
can be followed by an `unlock` of the thread inside that fails. -/
theorem criticalSection_exact_runs :
    (∀ s, Machine.Reachable next WaitsInside start s → Exact s) ∧
      ∀ s t u, Machine.Reachable next WaitsInside start s → s.inside u = true →
        s.phase u = .returned → s.phase t = .returned → ¬ WaitsInside s (.call t .wait) →
        ∃ s', Machine.run next s
            [.call t .wait, .advance t, .call u .unlock, .advance u, .advance u] = some s' ∧
          s'.phase u = .aborted .unlock ∧ s'.inside u = true := by
  constructor
  · exact fun s hs => (reachable_owned hs).exact
  · intro s t u _ hu hreturned ht hwaits
    refine unlock_aborts_after_wait hu hreturned ht ?_
    intro heq
    apply hwaits
    intro v hv
    cases hv
    exact heq ▸ hu

end System

end DDFramework.UtilCriticalSection
