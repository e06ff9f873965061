import DDFramework.Model.ServiceEvent

/-! # The two halves of a service event

`Signal` sets `m_signal_state` first and the Win32 event last, `Reset` the other way round. So the
two halves agree between the calls, unless a `Signal` and a `Reset` have overlapped. -/

namespace DDFramework.ServiceEvent.System

variable {ι : Type*} {isFiber : ι → Bool} {s s' : System ι} {i j : ι}

/-- No `Signal` and no `Reset` is between its accesses. -/
def Quiescent (s : System ι) : Prop := ∀ i, ¬ (s.phase i).Signals ∧ ¬ (s.phase i).Resets

/-- The latest call was a `Signal` that overlapped no `Reset` when it began. -/
def StateShown (s : System ι) : Prop := s.latest = some .signal ∧ ¬ s.overlapped

/-- The latest call was a `Signal`, or a `Reset` that overlapped one when it began. -/
def EventShown (s : System ι) : Prop := s.latest = some .signal ∨ s.overlapped

structure Kept (s : System ι) : Prop where
  state_one : s.StateShown → s.signalState = 1 ∧ ∀ i, ¬ (s.phase i).Resets
  state_zero : ¬ s.StateShown → s.signalState = 0 ∨ ∃ i, (s.phase i).Resets
  event_set : s.EventShown → s.win32Event = true ∨ ∃ i, (s.phase i).Signals
  event_unset : ¬ s.EventShown → s.win32Event = false ∧ ∀ i, ¬ (s.phase i).Signals

theorem kept_start : Kept (start : System ι) where
  state_one h := by cases h.1
  state_zero _ := Or.inl rfl
  event_set h := by
    rcases h with h | h
    · cases h
    · exact h.elim
  event_unset _ := ⟨rfl, fun _ h => by rcases h with h | h <;> cases h⟩

/-- Between the calls each half has the value that the latest call tells. -/
theorem Kept.quiescent (h : Kept s) (hq : s.Quiescent) :
    (s.signalState = 1 ↔ s.StateShown) ∧ (s.win32Event = true ↔ s.EventShown) := by
  constructor
  · refine ⟨fun hone => ?_, fun hshown => (h.state_one hshown).1⟩
    by_contra hnot
    rcases h.state_zero hnot with hzero | ⟨i, hi⟩
    · exact absurd (hone.symm.trans hzero) (by decide)
    · exact (hq i).2 hi
  · refine ⟨fun hset => ?_, fun hshown => ?_⟩
    · by_contra hnot
      exact Bool.false_ne_true ((h.event_unset hnot).1.symm.trans hset)
    · rcases h.event_set hshown with hset | ⟨i, hi⟩
      · exact hset
      · exact ((hq i).1 hi).elim

/-! ### One step -/

theorem resume_signals {released : ι → Bool} :
    ((s.resume released).phase j).Signals ↔ (s.phase j).Signals := by
  simp only [resume]
  split
  next h => simp [Phase.Signals, h.1]
  next => exact Iff.rfl

theorem resume_resets {released : ι → Bool} :
    ((s.resume released).phase j).Resets ↔ (s.phase j).Resets := by
  simp only [resume]
  split
  next h => simp [Phase.Resets, h.1]
  next => exact Iff.rfl

/-- A step that changes neither half nor who is between two accesses. -/
theorem Kept.congr (h : Kept s) (hstate : s'.signalState = s.signalState)
    (hevent : s'.win32Event = s.win32Event) (hlatest : s'.latest = s.latest)
    (hoverlapped : s'.overlapped = s.overlapped)
    (hsignals : ∀ j, (s'.phase j).Signals ↔ (s.phase j).Signals)
    (hresets : ∀ j, (s'.phase j).Resets ↔ (s.phase j).Resets) : Kept s' := by
  have hshown : s'.StateShown ↔ s.StateShown := by rw [StateShown, hlatest, hoverlapped, StateShown]
  have hset : s'.EventShown ↔ s.EventShown := by rw [EventShown, hlatest, hoverlapped, EventShown]
  constructor
  · simpa only [hshown, hstate, hresets] using h.state_one
  · simpa only [hshown, hstate, hresets] using h.state_zero
  · simpa only [hset, hevent, hsignals] using h.event_set
  · simpa only [hset, hevent, hsignals] using h.event_unset

variable [DecidableEq ι]

theorem goto_phase {phase : Phase} : (s.goto i phase).phase j =
    if j = i then phase else s.phase j := by
  simp [goto, Function.update_apply]

theorem Kept.goto (h : Kept s) {phase : Phase} (hsignals : phase.Signals ↔ (s.phase i).Signals)
    (hresets : phase.Resets ↔ (s.phase i).Resets) : Kept (s.goto i phase) := by
  refine h.congr rfl rfl rfl rfl (fun j => ?_) fun j => ?_
  · rw [goto_phase]
    split
    next hj => rw [hj, hsignals]
    next => exact Iff.rfl
  · rw [goto_phase]
    split
    next hj => rw [hj, hresets]
    next => exact Iff.rfl

/-- The first access of `Signal`. -/
theorem Kept.signalState (hphase : s.phase i = .signalState) :
    Kept ({ s with
      signalState := 1
      latest := some .signal
      overlapped := ∃ j, (s.phase j).Resets }.goto i .signalWake) := by
  have hself : (({ s with
      signalState := 1
      latest := some .signal
      overlapped := ∃ j, (s.phase j).Resets } : System ι).goto i .signalWake).phase i =
        .signalWake := by
    rw [goto_phase, if_pos rfl]
  constructor
  · intro hshown
    refine ⟨rfl, fun j hj => hshown.2 ⟨j, ?_⟩⟩
    rw [goto_phase] at hj
    split at hj
    next => cases hj
    next => exact hj
  · intro hnot
    have hover : ∃ j, (s.phase j).Resets := by
      by_contra hno
      exact hnot ⟨rfl, hno⟩
    obtain ⟨j, hj⟩ := hover
    have hne : j ≠ i := by
      rintro rfl
      rw [hphase] at hj
      cases hj
    refine Or.inr ⟨j, ?_⟩
    rw [goto_phase, if_neg hne]
    exact hj
  · intro _
    exact Or.inr ⟨i, Or.inl hself⟩
  · intro hnot
    exact (hnot (Or.inl rfl)).elim

/-- The first access of `Reset`. -/
theorem Kept.resetEvent (hphase : s.phase i = .resetEvent) :
    Kept ({ s with
      win32Event := false
      latest := some .reset
      overlapped := ∃ j, (s.phase j).Signals }.goto i .resetState) := by
  have hself : (({ s with
      win32Event := false
      latest := some .reset
      overlapped := ∃ j, (s.phase j).Signals } : System ι).goto i .resetState).phase i =
        .resetState := by
    rw [goto_phase, if_pos rfl]
  constructor
  · intro hshown
    cases hshown.1
  · intro _
    exact Or.inr ⟨i, hself⟩
  · intro hshown
    rcases hshown with hlatest | ⟨j, hj⟩
    · cases hlatest
    · have hne : j ≠ i := by
        rintro rfl
        rw [hphase] at hj
        rcases hj with hj | hj
        · cases hj
        · cases hj
      refine Or.inr ⟨j, ?_⟩
      rw [goto_phase, if_neg hne]
      exact hj
  · intro hnot
    refine ⟨rfl, fun j hj => hnot (Or.inr ⟨j, ?_⟩)⟩
    rw [goto_phase] at hj
    split at hj
    next =>
      rcases hj with hj | hj
      · cases hj
      · cases hj
    next => exact hj

/-- The last access of `Signal`. -/
theorem Kept.signalSet (h : Kept s) (hphase : s.phase i = .signalSet) {released : ι → Bool} :
    Kept (({ s with win32Event := true }.resume released).goto i .returned) := by
  have hresets : ∀ j, (((({ s with win32Event := true } : System ι).resume released).goto i
      .returned).phase j).Resets ↔ (s.phase j).Resets := by
    intro j
    rw [goto_phase]
    split
    next hj => simp [Phase.Resets, hj, hphase]
    next => exact resume_resets
  constructor
  · intro hshown
    have hone := h.state_one hshown
    exact ⟨hone.1, fun j hj => hone.2 j ((hresets j).mp hj)⟩
  · intro hnot
    exact (h.state_zero hnot).imp_right fun ⟨j, hj⟩ => ⟨j, (hresets j).mpr hj⟩
  · exact fun _ => Or.inl rfl
  · intro hnot
    exact ((h.event_unset hnot).2 i (hphase ▸ Or.inr rfl)).elim

/-- The last access of `Reset`. -/
theorem Kept.resetState (h : Kept s) (hphase : s.phase i = .resetState) :
    Kept ({ s with signalState := 0 }.goto i .returned) := by
  have hsignals : ∀ j, ((({ s with signalState := 0 } : System ι).goto i
      .returned).phase j).Signals ↔ (s.phase j).Signals := by
    intro j
    rw [goto_phase]
    split
    next hj => simp [Phase.Signals, hj, hphase]
    next => exact Iff.rfl
  constructor
  · intro hshown
    exact ((h.state_one hshown).2 i hphase).elim
  · exact fun _ => Or.inl rfl
  · intro hshown
    exact (h.event_set hshown).imp_right fun ⟨j, hj⟩ => ⟨j, (hsignals j).mpr hj⟩
  · intro hnot
    have hunset := h.event_unset hnot
    exact ⟨hunset.1, fun j hj => hunset.2 j ((hsignals j).mp hj)⟩

/-- A step of a caller that is in neither call, or stays in its call. -/
theorem Kept.advance_within (h : Kept s) {phase : Phase} (hbefore : ¬ (s.phase i).Signals)
    (hbefore' : ¬ (s.phase i).Resets) (hafter : ¬ phase.Signals) (hafter' : ¬ phase.Resets) :
    Kept (s.goto i phase) :=
  h.goto (iff_of_false hafter hbefore) (iff_of_false hafter' hbefore')

theorem Kept.advance (h : Kept s) {woken : ι → Bool} (hstep : s.advance isFiber i woken = some s') :
    Kept s' := by
  unfold System.advance at hstep
  cases hphase : s.phase i with
  | returned => simp [hphase] at hstep
  | waitCheck =>
      simp only [hphase, Option.some.injEq] at hstep
      refine hstep ▸ h.advance_within (hphase ▸ by decide) (hphase ▸ by decide) ?_ ?_
      · split <;> decide
      · split <;> decide
  | waitCall =>
      have hwithin : ∀ released : Prop, ∀ [Decidable released],
          Kept (s.goto i (if released then .returned else .waiting)) := by
        intro released _
        refine h.advance_within (hphase ▸ by decide) (hphase ▸ by decide) ?_ ?_
        · split <;> decide
        · split <;> decide
      simp only [hphase] at hstep
      split at hstep
      · exact Option.some.inj hstep ▸ hwithin _
      · exact Option.some.inj hstep ▸ hwithin _
  | waiting => simp [hphase] at hstep
  | signalState =>
      simp only [hphase, Option.some.injEq] at hstep
      exact hstep ▸ Kept.signalState hphase
  | signalWake =>
      simp only [hphase, Option.some.injEq] at hstep
      have hresumed : Kept (s.resume fun j => isFiber j && woken j) :=
        h.congr rfl rfl rfl rfl (fun _ => resume_signals) fun _ => resume_resets
      refine hstep ▸ hresumed.goto ?_ ?_
      · rw [resume_signals]
        simp [Phase.Signals, hphase]
      · rw [resume_resets]
        simp [Phase.Resets, hphase]
  | signalSet =>
      simp only [hphase, Option.some.injEq] at hstep
      exact hstep ▸ h.signalSet hphase
  | resetEvent =>
      simp only [hphase, Option.some.injEq] at hstep
      exact hstep ▸ Kept.resetEvent hphase
  | resetState =>
      simp only [hphase, Option.some.injEq] at hstep
      exact hstep ▸ h.resetState hphase

theorem Kept.next (h : Kept s) {a : Action ι} (hstep : s.next isFiber a = some s') : Kept s' := by
  cases a with
  | call i call =>
      simp only [System.next, Option.ite_none_right_eq_some, Option.some.injEq] at hstep
      obtain ⟨hphase, rfl⟩ := hstep
      refine h.advance_within (hphase ▸ by decide) (hphase ▸ by decide) ?_ ?_
      · cases call <;> decide
      · cases call <;> decide
  | advance i woken => exact h.advance hstep

theorem reaches_kept (h : Machine.Reaches (next isFiber) start s) : Kept s :=
  h.invariant kept_start fun hs _ hstep => hs.next hstep

/-! ### Who waits -/

/-- `WakeByAddress` with the count `-1` lets all waiting fibers go. -/
def WakesAll (isFiber : ι → Bool) (s : System ι) (a : Action ι) : Prop :=
  ∀ i woken, a = .advance i woken → s.phase i = .signalWake →
    ∀ j, isFiber j = true → s.phase j = .waiting → woken j = true

/-- A fiber waits only while the state is zero or a `WakeByAddress` is due, and a thread only while
the event is not set. -/
structure Waits (isFiber : ι → Bool) (s : System ι) : Prop where
  fiber : ∀ i, isFiber i = true → s.phase i = .waiting →
    s.signalState = 0 ∨ ∃ j, s.phase j = .signalWake
  thread : ∀ i, isFiber i = false → s.phase i = .waiting → s.win32Event = false

omit [DecidableEq ι] in
theorem resume_waiting {released : ι → Bool} :
    (s.resume released).phase j = .waiting ↔ s.phase j = .waiting ∧ released j = false := by
  simp only [resume]
  split
  next h => simp [h.2]
  next h =>
    constructor
    · intro hj
      exact ⟨hj, Bool.eq_false_iff.mpr fun hr => h ⟨hj, hr⟩⟩
    · exact And.left

/-- A step that leaves the halves alone, of a caller that has no `WakeByAddress` due. -/
theorem Waits.goto (h : Waits isFiber s) {phase : Phase} (hdue : s.phase i ≠ .signalWake)
    (hfiber : isFiber i = true → phase = .waiting → s.signalState = 0)
    (hthread : isFiber i = false → phase = .waiting → s.win32Event = false) :
    Waits isFiber (s.goto i phase) where
  fiber j hj hwaiting := by
    rw [goto_phase] at hwaiting
    split at hwaiting
    next heq => exact Or.inl (hfiber (heq ▸ hj) hwaiting)
    next =>
      refine (h.fiber j hj hwaiting).imp_right fun ⟨k, hk⟩ => ⟨k, ?_⟩
      rw [goto_phase, if_neg fun heq : k = i => hdue (heq ▸ hk)]
      exact hk
  thread j hj hwaiting := by
    rw [goto_phase] at hwaiting
    split at hwaiting
    next heq => exact hthread (heq ▸ hj) hwaiting
    next => exact h.thread j hj hwaiting

omit [DecidableEq ι] in
/-- A step after which no more callers wait than before. -/
theorem Waits.of_waiting (h : Waits isFiber s)
    (hwaiting : ∀ j, s'.phase j = .waiting → s.phase j = .waiting)
    (hfiber : s'.signalState = 0 ∨ (∃ j, s'.phase j = .signalWake) ∨
      (∀ j, isFiber j = true → s'.phase j ≠ .waiting) ∨ s'.signalState = s.signalState ∧
        ∀ j, s.phase j = .signalWake → s'.phase j = .signalWake)
    (hthread : s'.win32Event = false ∨ (∀ j, isFiber j = false → s'.phase j ≠ .waiting) ∨
      s'.win32Event = s.win32Event) : Waits isFiber s' where
  fiber j hj hw := by
    rcases hfiber with hzero | hdue | hnone | ⟨hstate, hdue⟩
    · exact Or.inl hzero
    · exact Or.inr hdue
    · exact absurd hw (hnone j hj)
    · rw [hstate]
      exact (h.fiber j hj (hwaiting j hw)).imp_right fun ⟨k, hk⟩ => ⟨k, hdue k hk⟩
  thread j hj hw := by
    rcases hthread with hunset | hnone | hevent
    · exact hunset
    · exact absurd hw (hnone j hj)
    · exact hevent ▸ h.thread j hj (hwaiting j hw)

theorem goto_waiting {phase : Phase} (hphase : phase ≠ .waiting)
    (h : (s.goto i phase).phase j = .waiting) : s.phase j = .waiting := by
  rw [goto_phase] at h
  split at h
  next => exact absurd h hphase
  next => exact h

theorem goto_due {phase : Phase} (hi : s.phase i ≠ .signalWake) (h : s.phase j = .signalWake) :
    (s.goto i phase).phase j = .signalWake := by
  rw [goto_phase, if_neg fun heq : j = i => hi (heq ▸ h)]
  exact h

omit [DecidableEq ι] in
theorem resume_due {released : ι → Bool} (h : s.phase j = .signalWake) :
    (s.resume released).phase j = .signalWake := by
  simp [resume, h]

theorem Waits.advance (h : Waits isFiber s) {woken : ι → Bool}
    (hall : WakesAll isFiber s (.advance i woken))
    (hstep : s.advance isFiber i woken = some s') : Waits isFiber s' := by
  unfold System.advance at hstep
  cases hphase : s.phase i with
  | returned => simp [hphase] at hstep
  | waitCheck =>
      simp only [hphase, Option.some.injEq] at hstep
      refine hstep ▸ h.goto (hphase ▸ by decide) ?_ ?_
      · intro _
        split <;> exact nofun
      · intro _
        split <;> exact nofun
  | waitCall =>
      have hdue : s.phase i ≠ .signalWake := hphase ▸ by decide
      simp only [hphase] at hstep
      split at hstep
      next hfiber =>
        refine Option.some.inj hstep ▸ h.goto hdue (fun _ hw => ?_) fun hthread => ?_
        · by_contra hne
          rw [if_pos (by bv_omega)] at hw
          cases hw
        · exact absurd (hfiber.symm.trans hthread) (by decide)
      next hthread =>
        refine Option.some.inj hstep ▸ h.goto hdue (fun hfiber => absurd hfiber hthread) ?_
        intro _ hw
        by_contra hne
        rw [if_pos (Bool.eq_true_of_not_eq_false hne)] at hw
        cases hw
  | waiting => simp [hphase] at hstep
  | signalState =>
      simp only [hphase, Option.some.injEq] at hstep
      refine hstep ▸ h.of_waiting (fun j => goto_waiting (by decide)) ?_ (Or.inr (Or.inr rfl))
      exact Or.inr (Or.inl ⟨i, by rw [goto_phase, if_pos rfl]⟩)
  | signalWake =>
      simp only [hphase, Option.some.injEq] at hstep
      refine hstep ▸ h.of_waiting ?_ ?_ (Or.inr (Or.inr rfl))
      · exact fun j hw => (resume_waiting.mp (goto_waiting (by decide) hw)).1
      · refine Or.inr (Or.inr (Or.inl fun j hj hw => ?_))
        have hresumed := resume_waiting.mp (goto_waiting (by decide) hw)
        have hwoken := hall i woken rfl hphase j hj hresumed.1
        simp [hj, hwoken] at hresumed
  | signalSet =>
      simp only [hphase, Option.some.injEq] at hstep
      refine hstep ▸ h.of_waiting ?_ (Or.inr (Or.inr (Or.inr ⟨rfl, ?_⟩))) (Or.inr (Or.inl ?_))
      · exact fun j hw => (resume_waiting.mp (goto_waiting (by decide) hw)).1
      · intro j hj
        refine goto_due ?_ (resume_due hj)
        simp [resume, hphase]
      · intro j hj hw
        have hresumed := resume_waiting.mp (goto_waiting (by decide) hw)
        simp [hj] at hresumed
  | resetEvent =>
      simp only [hphase, Option.some.injEq] at hstep
      refine hstep ▸ h.of_waiting (fun j => goto_waiting (by decide)) ?_ (Or.inl rfl)
      refine Or.inr (Or.inr (Or.inr ⟨rfl, fun j hj => ?_⟩))
      exact goto_due (hphase ▸ by decide) hj
  | resetState =>
      simp only [hphase, Option.some.injEq] at hstep
      exact hstep ▸ h.of_waiting (fun j => goto_waiting (by decide)) (Or.inl rfl)
        (Or.inr (Or.inr rfl))

theorem Waits.next (h : Waits isFiber s) {a : Action ι} (hall : WakesAll isFiber s a)
    (hstep : s.next isFiber a = some s') : Waits isFiber s' := by
  cases a with
  | call i call =>
      simp only [System.next, Option.ite_none_right_eq_some, Option.some.injEq] at hstep
      obtain ⟨hphase, rfl⟩ := hstep
      refine h.goto (hphase ▸ by decide) ?_ ?_
      · cases call <;> exact fun _ => nofun
      · cases call <;> exact fun _ => nofun
  | advance i woken => exact h.advance hall hstep

omit [DecidableEq ι] in
theorem waits_start : Waits isFiber (start : System ι) where
  fiber _ _ h := by cases h
  thread _ _ h := by cases h

/-! ### Runs -/

/-- Whenever no `Signal` and no `Reset` is between its accesses, the state is 1 exactly if the
latest of them was a `Signal` that overlapped no `Reset` when it began, and the Win32 event is set
exactly if it was a `Signal` or overlapped one. So after an overlap fibers block where threads pass.
If `WakeByAddress` lets all fibers go, a caller still waits only if its half is not set. -/
theorem quiescent_runs (isFiber : ι → Bool) :
    (∀ s, Machine.Reaches (next isFiber) start s → s.Quiescent →
      (s.signalState = 1 ↔ s.StateShown) ∧ (s.win32Event = true ↔ s.EventShown)) ∧
    ∀ s, Machine.Reachable (next isFiber) (WakesAll isFiber) start s → s.Quiescent →
      ∀ i, s.phase i = .waiting → if isFiber i then ¬ s.StateShown else ¬ s.EventShown := by
  constructor
  · intro s hs hq
    exact (reaches_kept hs).quiescent hq
  · intro s hs hq i hwaiting
    have hwaits : Waits isFiber s :=
      hs.invariant waits_start fun hs hall hstep => hs.next hall hstep
    have hvalues := (reaches_kept (hs.mono fun _ _ _ => trivial)).quiescent hq
    split
    next hfiber =>
      intro hshown
      rcases hwaits.fiber i hfiber hwaiting with hzero | ⟨j, hj⟩
      · exact absurd ((hvalues.1.mpr hshown).symm.trans hzero) (by decide)
      · exact (hq j).1 (Or.inl hj)
    next hthread =>
      intro hshown
      have hunset := hwaits.thread i (Bool.eq_false_iff.mpr hthread) hwaiting
      exact Bool.false_ne_true (hunset.symm.trans (hvalues.2.mpr hshown))

end DDFramework.ServiceEvent.System
