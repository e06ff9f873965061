import DDFramework.Model.Event

/-! # Events and their specification

`Signal` never sets `m_signal_state`. A thread that waits when a manual reset event is signaled
is woken through the wake id; a thread that comes later blocks, and no signal of an auto reset
event ends a wait. -/

namespace DDFramework.Event.System

variable {ι : Type*} [DecidableEq ι] {s s' : System ι} {i : ι} {w : BitVec 32} {a : Action ι}

/-- The next test of the thread ends its `Wait`. -/
def Returns (s : System ι) (i : ι) : Prop :=
  ∃ s', s.next (.test i) = some s' ∧ s'.phase i = .outside

/-- `Wait` blocks only on an unsignaled event, and an auto reset event lets only those pass that
find it signaled. -/
structure Justified (autoResetMode : BitVec 16) (call : WaitCall) : Prop where
  blocks : call.blocked = true → call.signaled = false
  passes : autoResetMode = 1 → call.blocked = false → call.signaled = true

/-- The event does what its specification says. -/
structure MeetsSpec (s : System ι) : Prop where
  waits : ∀ call ∈ s.waits, Justified s.autoResetMode call
  /-- The threads that a signal has released return. -/
  released : ∀ i w, s.phase i = .inWait w → s.released i = true → s.Returns i
  /-- From an auto reset event no others do. -/
  once : s.autoResetMode = 1 → ∀ i w, s.phase i = .inWait w → s.released i = false → ¬ s.Returns i

/-- The event was created signaled, and nothing has cleared it. -/
def CreatedSignaled (createSignaled : Bool) (calls : List Call) : Prop :=
  createSignaled = true ∧ .clear ∉ calls

instance (createSignaled : Bool) (calls : List Call) :
    Decidable (CreatedSignaled createSignaled calls) :=
  inferInstanceAs (Decidable (_ ∧ _))

/-- The call has been made since the latest `mark`, or since the creation if there is none. -/
def Since (mark call : Call) (calls : List Call) : Prop := call ∈ calls.takeWhile (· ≠ mark)

/-- The condition under which a call is right. In the manual reset mode a signal must not bring
the wake id back to the value that a thread still waits with. -/
def Conforms (createSignaled : Bool) (s : System ι) : Action ι → Prop
  | .signal _ =>
    if s.autoResetMode = 1 then s.cv = [] else ∀ i w, s.phase i = .inWait w → s.wakeId + 1 ≠ w
  | .wait _ =>
    if CreatedSignaled createSignaled s.calls then
      s.autoResetMode = 1 → ¬ Since .signal .wait s.calls
    else ¬ Since .clear .signal s.calls
  | _ => True

theorem returns_iff (hphase : s.phase i = .inWait w) :
    s.Returns i ↔ i ∉ s.cv ∧ ¬ (w = s.wakeId ∧ s.signalState = 0) := by
  by_cases hcv : i ∈ s.cv
  · simp [Returns, System.next, hphase, hcv]
  · have hnext : s.next (.test i) = some (s.test i w) := by
      simp [System.next, hphase, hcv]
    by_cases hblock : w = s.wakeId ∧ s.signalState = 0
    · rw [System.test, if_pos hblock] at hnext
      refine iff_of_false ?_ fun h => h.2 hblock
      rintro ⟨t, ht, houtside⟩
      rw [hnext] at ht
      cases ht
      simp [System.block] at houtside
    · rw [System.test, if_neg hblock] at hnext
      exact iff_of_true ⟨_, hnext, Function.update_self ..⟩ ⟨hcv, hblock⟩

/-! ### What the threads in `Wait` have saved -/

structure Tracked (s : System ι) : Prop where
  state : s.signalState = 0 ∨ s.signalState = 1
  inCv : ∀ i ∈ s.cv, ∃ w, s.phase i = .inWait w
  unsignaled : ∀ i w, s.phase i = .inWait w → s.signalState = 0
  waiting : ∀ i w, s.phase i = .inWait w → i ∈ s.cv → w = s.wakeId ∧ s.released i = false
  woken : ∀ i w, s.phase i = .inWait w → i ∉ s.cv →
    s.autoResetMode ≠ 1 ∧ s.released i = true ∧ w ≠ s.wakeId

namespace Tracked

/-- What is left of the specification are the calls of `Wait`. -/
theorem meetsSpec (h : Tracked s) (hwaits : ∀ call ∈ s.waits, Justified s.autoResetMode call) :
    MeetsSpec s where
  waits := hwaits
  released i w hphase hreleased := by
    have hcv : i ∉ s.cv := by
      intro hcv
      rw [(h.waiting i w hphase hcv).2] at hreleased
      cases hreleased
    exact (returns_iff hphase).mpr ⟨hcv, fun hblock => (h.woken i w hphase hcv).2.2 hblock.1⟩
  once hauto i w hphase _ hreturns := by
    have hcv := ((returns_iff hphase).mp hreturns).1
    exact (h.woken i w hphase hcv).1 hauto

omit [DecidableEq ι] in
theorem logCall (h : Tracked s) (call : Call) : Tracked (s.logCall call) :=
  ⟨h.state, h.inCv, h.unsignaled, h.waiting, h.woken⟩

omit [DecidableEq ι] in
theorem clear (h : Tracked s) : Tracked { s with signalState := 0, signaled := false } :=
  ⟨Or.inl rfl, h.inCv, fun _ _ _ => rfl, h.waiting, h.woken⟩

theorem signalAll (h : Tracked s) (hmanual : s.autoResetMode ≠ 1)
    (hwake : ∀ i w, s.phase i = .inWait w → s.wakeId + 1 ≠ w) : Tracked s.signalAll where
  state := h.state
  inCv := nofun
  unsignaled := h.unsignaled
  waiting := nofun
  woken i w hphase _ := by
    refine ⟨hmanual, ?_, (hwake i w hphase).symm⟩
    by_cases hcv : i ∈ s.cv
    · simp [System.signalAll, hcv]
    · simp [System.signalAll, (h.woken i w hphase hcv).2.1]

omit [DecidableEq ι] in
theorem pass (h : Tracked s) : Tracked (s.logWait false) :=
  ⟨h.state, h.inCv, h.unsignaled, h.waiting, h.woken⟩

theorem block (h : Tracked s) (hstate : s.signalState ≠ 1) (hi : s.phase i = .outside) :
    Tracked ({ s.logWait true with
      released := Function.update s.released i false }.block i s.wakeId) := by
  have hzero : s.signalState = 0 := h.state.resolve_right hstate
  have hphase : ∀ j v, Function.update s.phase i (.inWait s.wakeId) j = .inWait v →
      (j = i ∧ v = s.wakeId) ∨ (j ≠ i ∧ s.phase j = .inWait v) := by
    intro j v hj
    by_cases hji : j = i
    · rw [hji, Function.update_self] at hj
      cases hj
      exact Or.inl ⟨hji, rfl⟩
    · rw [Function.update_of_ne hji] at hj
      exact Or.inr ⟨hji, hj⟩
  refine ⟨h.state, ?_, ?_, ?_, ?_⟩
  · intro j hj
    simp only [System.block, System.logWait, List.mem_append, List.mem_singleton] at hj ⊢
    by_cases hji : j = i
    · exact ⟨s.wakeId, by rw [hji, Function.update_self]⟩
    · rw [Function.update_of_ne hji]
      exact h.inCv j (hj.resolve_right hji)
  · exact fun _ _ _ => hzero
  · intro j v hj hcv
    simp only [System.block, System.logWait, List.mem_append, List.mem_singleton] at hj hcv ⊢
    rcases hphase j v hj with ⟨rfl, rfl⟩ | ⟨hji, hj⟩
    · exact ⟨rfl, Function.update_self ..⟩
    · rw [Function.update_of_ne hji]
      exact h.waiting j v hj (hcv.resolve_right hji)
  · intro j v hj hcv
    simp only [System.block, System.logWait, List.mem_append, List.mem_singleton, not_or] at hj hcv ⊢
    rcases hphase j v hj with ⟨rfl, rfl⟩ | ⟨hji, hj⟩
    · exact (hcv.2 rfl).elim
    · rw [Function.update_of_ne hji]
      exact h.woken j v hj hcv.1

/-- The test of a woken thread ends its `Wait`. -/
theorem test (h : Tracked s) (hi : s.phase i = .inWait w) (hcv : i ∉ s.cv) :
    Tracked (s.test i w) ∧
      s.test i w = { s with phase := Function.update s.phase i .outside } := by
  obtain ⟨hmanual, -, hwake⟩ := h.woken i w hi hcv
  have htest : s.test i w = { s with phase := Function.update s.phase i .outside } := by
    rw [System.test, if_neg fun hblock => hwake hblock.1, if_neg hmanual]
  have hphase : ∀ j v, Function.update s.phase i .outside j = .inWait v → s.phase j = .inWait v := by
    intro j v hj
    by_cases hji : j = i
    · rw [hji, Function.update_self] at hj
      cases hj
    · rwa [Function.update_of_ne hji] at hj
  rw [htest]
  refine ⟨⟨h.state, ?_, ?_, ?_, ?_⟩, rfl⟩
  · intro j hj
    have hji : j ≠ i := fun he => hcv (he ▸ hj)
    simpa only [Function.update_of_ne hji] using h.inCv j hj
  · exact fun j v hj => h.unsignaled j v (hphase j v hj)
  · exact fun j v hj => h.waiting j v (hphase j v hj)
  · exact fun j v hj => h.woken j v (hphase j v hj)

end Tracked

/-! ### One step -/

theorem signalOne_cases {woken : Option ι} (h : s.signalOne woken = some s') :
    (s.cv = [] ∧ s' = { s with signaled := true }) ∨
      ∃ i ∈ s.cv, s' = { s with
        cv := s.cv.erase i, released := Function.update s.released i true } := by
  cases woken with
  | none =>
      simp only [System.signalOne, Option.ite_none_right_eq_some, Option.some.injEq] at h
      exact Or.inl ⟨h.1, h.2.symm⟩
  | some i =>
      simp only [System.signalOne, Option.ite_none_right_eq_some, Option.some.injEq] at h
      exact Or.inr ⟨i, h.1, h.2.symm⟩

theorem next_cases (h : s.next a = some s') :
    (∃ woken, a = .signal woken ∧ s.autoResetMode = 1 ∧
      (s.logCall .signal).signalOne woken = some s') ∨
    (∃ woken, a = .signal woken ∧ s.autoResetMode ≠ 1 ∧ s' = (s.logCall .signal).signalAll) ∨
    (a = .clear ∧ s' = { s.logCall .clear with signalState := 0, signaled := false }) ∨
    (∃ i, a = .wait i ∧ s.phase i = .outside ∧ s' = (s.logCall .wait).wait i) ∨
    ∃ i w, a = .test i ∧ s.phase i = .inWait w ∧ i ∉ s.cv ∧ s' = s.test i w := by
  cases a with
  | signal woken =>
      simp only [System.next] at h
      split at h
      · next hauto => exact Or.inl ⟨woken, rfl, hauto, h⟩
      · next hmanual => exact Or.inr (Or.inl ⟨woken, rfl, hmanual, (Option.some.inj h).symm⟩)
  | clear => exact Or.inr (Or.inr (Or.inl ⟨rfl, (Option.some.inj h).symm⟩))
  | wait i =>
      simp only [System.next, Option.ite_none_right_eq_some, Option.some.injEq] at h
      exact Or.inr (Or.inr (Or.inr (Or.inl ⟨i, rfl, h.1, h.2.symm⟩)))
  | test i =>
      cases hphase : s.phase i with
      | outside => simp [System.next, hphase] at h
      | inWait w =>
          simp only [System.next, hphase, Option.ite_none_left_eq_some, Option.some.injEq] at h
          exact Or.inr (Or.inr (Or.inr (Or.inr ⟨i, w, rfl, hphase, h.1, h.2.symm⟩)))

theorem waits_wait (s : System ι) (i : ι) :
    (s.wait i).waits = s.waits ++ [⟨decide (s.signalState ≠ 1), s.signaled⟩] ∧
      (s.wait i).autoResetMode = s.autoResetMode := by
  by_cases h : s.signalState = 1
  · rw [System.wait, if_pos h, decide_eq_false (not_not.mpr h)]
    exact ⟨rfl, rfl⟩
  · rw [System.wait, if_neg h, decide_eq_true h]
    exact ⟨rfl, rfl⟩

theorem Tracked.wait (h : Tracked s) (hi : s.phase i = .outside) : Tracked (s.wait i) := by
  by_cases hstate : s.signalState = 1
  · rw [System.wait, if_pos hstate]
    exact h.pass
  · rw [System.wait, if_neg hstate]
    exact h.block hstate hi

theorem meetsSpec_wait_iff (h : Tracked s)
    (hold : ∀ call ∈ s.waits, Justified s.autoResetMode call) (hi : s.phase i = .outside) :
    MeetsSpec (s.wait i) ↔
      Justified s.autoResetMode ⟨decide (s.signalState ≠ 1), s.signaled⟩ := by
  obtain ⟨hwaits, hmode⟩ := waits_wait s i
  constructor
  · intro hspec
    rw [← hmode]
    exact hspec.waits _ (by simp [hwaits])
  · intro hcall
    refine (h.wait hi).meetsSpec fun call hmem => ?_
    rw [hwaits, List.mem_append, List.mem_singleton] at hmem
    rw [hmode]
    rcases hmem with hmem | rfl
    · exact hold call hmem
    · exact hcall

theorem meetsSpec_signalAll_iff (h : Tracked s)
    (hold : ∀ call ∈ s.waits, Justified s.autoResetMode call) (hmanual : s.autoResetMode ≠ 1) :
    MeetsSpec s.signalAll ↔ ∀ i w, s.phase i = .inWait w → s.wakeId + 1 ≠ w := by
  constructor
  · intro hspec i w hphase hwake
    have hreleased : s.signalAll.released i = true := by
      by_cases hcv : i ∈ s.cv
      · simp [System.signalAll, hcv]
      · simp [System.signalAll, (h.woken i w hphase hcv).2.1]
    have hreturns := (returns_iff (s := s.signalAll) hphase).mp
      (hspec.released i w hphase hreleased)
    exact hreturns.2 ⟨hwake.symm, h.unsignaled i w hphase⟩
  · exact fun hwake => (h.signalAll hmanual hwake).meetsSpec hold

/-- A signal of an auto reset event is right when nobody waits. -/
theorem meetsSpec_signalOne_iff (h : Tracked s)
    (hold : ∀ call ∈ s.waits, Justified s.autoResetMode call) {woken : Option ι}
    (hsignal : s.signalOne woken = some s') : MeetsSpec s' ↔ s.cv = [] := by
  rcases signalOne_cases hsignal with ⟨hcv, rfl⟩ | ⟨i, hcv, rfl⟩
  · have htracked : Tracked { s with signaled := true } :=
      ⟨h.state, h.inCv, h.unsignaled, h.waiting, h.woken⟩
    exact iff_of_true (htracked.meetsSpec hold) hcv
  · obtain ⟨w, hphase⟩ := h.inCv i hcv
    refine iff_of_false (fun hspec => ?_) (List.ne_nil_of_mem hcv)
    have hreturns := (returns_iff (s := { s with
      cv := s.cv.erase i, released := Function.update s.released i true }) hphase).mp
      (hspec.released i w hphase (Function.update_self ..))
    exact hreturns.2 ⟨(h.waiting i w hphase hcv).1, h.unsignaled i w hphase⟩

/-! ### What the calls so far tell -/

section Calls

variable {mark call other : Call} {calls : List Call} {createSignaled : Bool}

@[simp] theorem not_since_mark : ¬ Since mark call (mark :: calls) := by
  simp [Since]

theorem since_self (h : call ≠ mark) : Since mark call (call :: calls) := by
  simp [Since, h]

theorem since_cons (hmark : other ≠ mark) (hcall : other ≠ call) :
    Since mark call (other :: calls) ↔ Since mark call calls := by
  simp [Since, hmark, hcall.symm]

/-- Calls other than `Clear` leave an event that was created signaled as it is. -/
theorem createdSignaled_cons (h : call ≠ .clear) :
    CreatedSignaled createSignaled (call :: calls) ↔ CreatedSignaled createSignaled calls := by
  simp [CreatedSignaled, h.symm]

/-- Only a signaled creation sets `m_signal_state`, and by the specification it is the calls that
say whether the event is signaled. -/
structure Recorded (createSignaled : Bool) (s : System ι) : Prop where
  state : s.signalState = if CreatedSignaled createSignaled s.calls then 1 else 0
  signaled : s.signaled = true ↔
    if CreatedSignaled createSignaled s.calls then
      s.autoResetMode = 1 → ¬ Since .signal .wait s.calls
    else Since .clear .signal s.calls

omit [DecidableEq ι] in
/-- The entry that a call of `Wait` adds to the log. -/
theorem Recorded.justified_wait_iff (h : Recorded createSignaled s) :
    Justified s.autoResetMode ⟨decide (s.signalState ≠ 1), s.signaled⟩ ↔
      s.Conforms createSignaled (.wait i) := by
  obtain ⟨hstate, hsignaled⟩ := h
  rw [Conforms]
  by_cases hcreated : CreatedSignaled createSignaled s.calls
  · rw [if_pos hcreated] at hstate hsignaled ⊢
    constructor
    · rintro ⟨-, hpasses⟩ hauto
      exact hsignaled.mp (hpasses hauto (by simp [hstate])) hauto
    · exact fun hcond => ⟨by simp [hstate], fun _ _ => hsignaled.mpr hcond⟩
  · rw [if_neg hcreated] at hstate hsignaled ⊢
    constructor
    · rintro ⟨hblocks, -⟩ hsince
      have hfalse : s.signaled = false := hblocks (by simp [hstate])
      rw [hsignaled.mpr hsince] at hfalse
      cases hfalse
    · intro hsince
      have hfalse : s.signaled = false := by simpa using hsignaled.not.mpr hsince
      exact ⟨fun _ => hfalse, by simp [hstate]⟩

omit [DecidableEq ι] in
theorem Recorded.signal (h : Recorded createSignaled s) (hcalls : s'.calls = .signal :: s.calls)
    (hstate : s'.signalState = s.signalState) (hsignaled : s'.signaled = true) :
    Recorded createSignaled s' := by
  have hsince : Since .clear .signal (.signal :: s.calls) := since_self (by decide)
  refine ⟨?_, ?_⟩
  · rw [hstate, h.state, hcalls]
    simp only [createdSignaled_cons (show Call.signal ≠ .clear by decide)]
  · rw [hsignaled, hcalls]
    simp [hsince]

omit [DecidableEq ι] in
theorem Recorded.clear (createSignaled : Bool) (s : System ι) :
    Recorded createSignaled { s.logCall .clear with signalState := 0, signaled := false } := by
  have hcreated : ¬ CreatedSignaled createSignaled (.clear :: s.calls) := by
    simp [CreatedSignaled]
  exact ⟨(if_neg hcreated).symm, by simp [System.logCall, hcreated]⟩

/-- A call of `Wait` that finds an auto reset event as the calls say leaves it unsignaled. -/
theorem Recorded.wait (h : Recorded createSignaled s)
    (hconforms : s.Conforms createSignaled (.wait i)) :
    Recorded createSignaled ((s.logCall .wait).wait i) := by
  have hfields : ((s.logCall .wait).wait i).signalState = s.signalState ∧
      ((s.logCall .wait).wait i).calls = .wait :: s.calls ∧
      ((s.logCall .wait).wait i).autoResetMode = s.autoResetMode ∧
      ((s.logCall .wait).wait i).signaled = (s.signaled && !decide (s.autoResetMode = 1)) := by
    rw [System.wait]
    split
    · exact ⟨rfl, rfl, rfl, rfl⟩
    · exact ⟨rfl, rfl, rfl, rfl⟩
  obtain ⟨hstate, hcalls, hmode, hsignaled⟩ := hfields
  have hcreated : CreatedSignaled createSignaled (.wait :: s.calls) ↔
      CreatedSignaled createSignaled s.calls := createdSignaled_cons (by decide)
  have hsince : Since .signal .wait (.wait :: s.calls) := since_self (by decide)
  have hsignal : Since .clear .signal (.wait :: s.calls) ↔ Since .clear .signal s.calls :=
    since_cons (by decide) (by decide)
  refine ⟨?_, ?_⟩
  · rw [hstate, h.state, hcalls]
    simp only [hcreated]
  · rw [hsignaled, hcalls, hmode]
    simp only [hcreated, hsignal, Bool.and_eq_true, h.signaled]
    rw [Conforms] at hconforms
    split at hconforms
    · next hc => simp +contextual [hc, hsince]
    · next hc => simp [hc, hconforms]

end Calls

/-! ### One step of a run -/

/-- A step leads to a state that meets the specification exactly if it meets the condition. -/
theorem meetsSpec_next_iff {createSignaled : Bool} (h : Tracked s)
    (hrecorded : Recorded createSignaled s) (hspec : MeetsSpec s) (hnext : s.next a = some s') :
    MeetsSpec s' ↔ s.Conforms createSignaled a := by
  rcases next_cases hnext with ⟨woken, rfl, hauto, hsignal⟩ | ⟨woken, rfl, hmanual, rfl⟩ |
    ⟨rfl, rfl⟩ | ⟨i, rfl, hi, rfl⟩ | ⟨i, w, rfl, hphase, hcv, rfl⟩
  · rw [Conforms, if_pos hauto]
    exact meetsSpec_signalOne_iff (s := s.logCall .signal) (h.logCall .signal) hspec.waits hsignal
  · rw [Conforms, if_neg hmanual]
    exact meetsSpec_signalAll_iff (h.logCall .signal) hspec.waits hmanual
  · exact iff_of_true ((h.logCall .clear).clear.meetsSpec hspec.waits) trivial
  · rw [← hrecorded.justified_wait_iff]
    exact meetsSpec_wait_iff (h.logCall .wait) hspec.waits hi
  · obtain ⟨htracked, htest⟩ := h.test hphase hcv
    refine iff_of_true (htracked.meetsSpec ?_) trivial
    rw [htest]
    exact hspec.waits

theorem Tracked.next {createSignaled : Bool} (h : Tracked s)
    (hconforms : s.Conforms createSignaled a) (hnext : s.next a = some s') : Tracked s' := by
  rcases next_cases hnext with ⟨woken, rfl, hauto, hsignal⟩ | ⟨woken, rfl, hmanual, rfl⟩ |
    ⟨rfl, rfl⟩ | ⟨i, rfl, hi, rfl⟩ | ⟨i, w, rfl, hphase, hcv, rfl⟩
  · rw [Conforms, if_pos hauto] at hconforms
    rcases signalOne_cases hsignal with ⟨-, rfl⟩ | ⟨i, hcv, rfl⟩
    · exact ⟨h.state, h.inCv, h.unsignaled, h.waiting, h.woken⟩
    · simp [System.logCall, hconforms] at hcv
  · rw [Conforms, if_neg hmanual] at hconforms
    exact (h.logCall .signal).signalAll hmanual hconforms
  · exact (h.logCall .clear).clear
  · exact (h.logCall .wait).wait hi
  · exact (h.test hphase hcv).1

theorem Recorded.next {createSignaled : Bool} (h : Recorded createSignaled s) (htracked : Tracked s)
    (hconforms : s.Conforms createSignaled a) (hnext : s.next a = some s') :
    Recorded createSignaled s' := by
  rcases next_cases hnext with ⟨woken, rfl, hauto, hsignal⟩ | ⟨woken, rfl, hmanual, rfl⟩ |
    ⟨rfl, rfl⟩ | ⟨i, rfl, hi, rfl⟩ | ⟨i, w, rfl, hphase, hcv, rfl⟩
  · rw [Conforms, if_pos hauto] at hconforms
    rcases signalOne_cases hsignal with ⟨-, rfl⟩ | ⟨i, hcv, rfl⟩
    · exact h.signal rfl rfl rfl
    · simp [System.logCall, hconforms] at hcv
  · exact h.signal rfl rfl rfl
  · exact .clear createSignaled s
  · exact h.wait hconforms
  · rw [(htracked.test hphase hcv).2]
    exact ⟨h.state, h.signaled⟩

/-! ### Runs -/

omit [DecidableEq ι] in
theorem start_tracked (createSignaled autoReset : Bool) (wakeId : BitVec 32) :
    Tracked (start createSignaled autoReset wakeId : System ι) where
  state := by
    cases createSignaled with
    | false => exact Or.inl rfl
    | true => exact Or.inr rfl
  inCv := nofun
  unsignaled := nofun
  waiting := nofun
  woken := nofun

omit [DecidableEq ι] in
theorem start_recorded (createSignaled autoReset : Bool) (wakeId : BitVec 32) :
    Recorded createSignaled (start createSignaled autoReset wakeId : System ι) := by
  cases createSignaled with
  | false => exact ⟨rfl, by simp [start, CreatedSignaled, Since]⟩
  | true => exact ⟨rfl, by simp [start, CreatedSignaled, Since]⟩

/-- A run of any number of threads meets the specification in all its states exactly when all
its calls meet the condition. -/
theorem event_meetsSpec_iff (createSignaled autoReset : Bool) (wakeId : BitVec 32)
    (as : List (Action ι)) :
    Machine.Always next MeetsSpec (start createSignaled autoReset wakeId) as ↔
      Machine.EveryStep next (Conforms createSignaled) (start createSignaled autoReset wakeId)
        as := by
  refine Machine.always_iff_everyStep ?_ ?_ as
  · exact (start_tracked createSignaled autoReset wakeId).meetsSpec nofun
  · intro s s' a hreach hspec hnext
    have hinvariant := hreach.invariant (P := fun s => Tracked s ∧ Recorded createSignaled s)
      ⟨start_tracked createSignaled autoReset wakeId,
        start_recorded createSignaled autoReset wakeId⟩
      fun hs hconforms htaken => ⟨hs.1.next hconforms htaken, hs.2.next hs.1 hconforms htaken⟩
    exact meetsSpec_next_iff hinvariant.1 hinvariant.2 hspec hnext

/-- A thread blocks on a manual reset event that has been signaled, and the signal of an auto
reset event leaves its one waiting thread in `Wait`. -/
theorem event_not_meetsSpec :
    (∃ s : System (Fin 1), Machine.Reaches next (start false false 0) s ∧
      s.waits = [⟨true, true⟩] ∧ ¬ MeetsSpec s) ∧
    ∃ s : System (Fin 1), Machine.Reaches next (start false true 0) s ∧
      s.released 0 = true ∧ s.phase 0 = .inWait 0 ∧ 0 ∈ s.cv ∧ ¬ MeetsSpec s := by
  constructor
  · have hrun : (Machine.run next (start false false 0 : System (Fin 1))
        [.signal none, .wait 0]).any (fun s => s.waits = [⟨true, true⟩]) = true := by decide
    obtain ⟨s, hs, hwaits⟩ := (Option.any_eq_true _ _).mp hrun
    simp only [decide_eq_true_eq] at hwaits
    refine ⟨s, .of_run hs, hwaits, fun h => ?_⟩
    exact absurd ((h.waits ⟨true, true⟩ (by simp [hwaits])).blocks rfl) (by decide)
  · have hrun : (Machine.run next (start false true 0 : System (Fin 1))
        [.wait 0, .signal (some 0), .test 0]).any (fun s => s.released 0 = true ∧
          s.phase 0 = .inWait 0 ∧ 0 ∈ s.cv) = true := by decide
    obtain ⟨s, hs, hstate⟩ := (Option.any_eq_true _ _).mp hrun
    simp only [decide_eq_true_eq] at hstate
    obtain ⟨hreleased, hphase, hcv⟩ := hstate
    refine ⟨s, .of_run hs, hreleased, hphase, hcv, fun h => ?_⟩
    exact ((returns_iff hphase).mp (h.released 0 0 hphase hreleased)).1 hcv

end DDFramework.Event.System
