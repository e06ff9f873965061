import DDFramework.Model.Mutex
import Mathlib.Data.Fintype.Basic
import Mathlib.Data.BitVec

/-! # When `Mutex` is a recursive mutex

`Enter` takes the internal lock only after it has read a zero count, and `TryEnter` never
succeeds on its own. Without a nonzero count read by a thread that does not own the lock, the
count is the depth of the owner. -/

namespace DDFramework.Mutex.System

variable {ι : Type*} {s s' : System ι} {i j : ι}

/-- A recursive mutex: one holder, whose depth is counted, who owns the lock until the
outermost `Leave` returns; and `TryEnter` returns what it should. -/
structure Recursive (s : System ι) : Prop where
  exclusive : ∀ i j, 0 < s.depth i → 0 < s.depth j → i = j
  counted : ∀ i, s.phase i = .outside → 0 < s.depth i → s.lockCount.toNat = s.depth i
  released : ∀ i, s.phase i = .outside → (s.owner = some i ↔ 0 < s.depth i)
  tries : ∀ t ∈ s.tries, t.returned = t.available

/-- What holds before the next access of the thread. -/
def Assertion (s : System ι) (i : ι) : Prop :=
  match s.phase i with
  | .outside | .enterTest =>
    (s.owner = some i ↔ 0 < s.depth i) ∧ (s.owner = some i → s.lockCount.toNat = s.depth i)
  | .enterOwner | .enterLock => s.owner ≠ some i ∧ s.depth i = 0
  | .enterRead => s.owner = some i ∧ s.lockCount.toNat = s.depth i ∧ s.depth i < 4294967295
  | .enterWrite count =>
    s.owner = some i ∧ count.toNat = s.depth i ∧ s.depth i < 4294967295
  | .tryTest | .tryOwner => s.owner ≠ some i ∧ s.depth i = 0 ∧ s.available i = false
  | .tryLock | .tryRead | .tryWrite _ => False
  | .leaveRead => s.owner = some i ∧ s.lockCount.toNat = s.depth i ∧ 0 < s.depth i
  | .leaveWrite count => s.owner = some i ∧ count.toNat = s.depth i ∧ 0 < s.depth i
  | .leaveTest => s.owner = some i ∧ s.lockCount.toNat + 1 = s.depth i
  | .leaveUnlock => s.owner = some i ∧ s.lockCount = 0#32 ∧ s.depth i = 1

/-- The steps of the others leave the assertion of a thread alone. -/
theorem Assertion.frame (h : s.Assertion j) (hphase : s'.phase j = s.phase j)
    (hdepth : s'.depth j = s.depth j) (havailable : s'.available j = s.available j)
    (howner : s'.owner = some j ↔ s.owner = some j)
    (hcount : s.owner = some j → s'.lockCount = s.lockCount) : s'.Assertion j := by
  rw [Assertion, hphase]
  rw [Assertion] at h
  split <;> grind

structure Ordered (s : System ι) : Prop where
  assertion : ∀ i, s.Assertion i
  free : s.owner = none → s.lockCount = 0#32
  tries : ∀ t ∈ s.tries, t.returned = t.available

theorem start_ordered : Ordered (start : System ι) where
  assertion i := by simp [Assertion, start]
  free _ := rfl
  tries := by simp [start]

/-- A thread with a depth owns the lock, also during its calls. -/
theorem Assertion.owner_eq (h : s.Assertion i) (hdepth : 0 < s.depth i) : s.owner = some i := by
  rw [Assertion] at h
  split at h <;> grind

theorem Ordered.recursive (h : Ordered s) : Recursive s where
  exclusive i j hi hj := by
    have howner := (h.assertion i).owner_eq hi
    rw [(h.assertion j).owner_eq hj] at howner
    exact (Option.some.inj howner).symm
  counted i hi hdepth := by
    have hann := h.assertion i
    rw [Assertion, hi] at hann
    exact hann.2 (hann.1.mpr hdepth)
  released i hi := by
    have hann := h.assertion i
    rw [Assertion, hi] at hann
    exact hann.1
  tries := h.tries

/-! ### Steps -/

variable [DecidableEq ι]

/-- `Enter` reads the count only while it is zero or the caller owns the lock and can still be
counted once more, and `TryEnter` is called only while another thread owns the lock. -/
def Guarded (s : System ι) : Action ι → Prop
  | .enter _ => True
  | .leave _ => True
  | .tryEnter i => s.isAvailable i = false
  | .advance i => s.phase i = .enterTest →
    (s.lockCount = 0#32 ∨ s.owner = some i) ∧ s.lockCount ≠ 4294967295#32

instance (s : System ι) : (a : Action ι) → Decidable (s.Guarded a)
  | .enter _ => inferInstanceAs (Decidable True)
  | .leave _ => inferInstanceAs (Decidable True)
  | .tryEnter i => inferInstanceAs (Decidable (s.isAvailable i = false))
  | .advance i => inferInstanceAs (Decidable (s.phase i = .enterTest →
    (s.lockCount = 0#32 ∨ s.owner = some i) ∧ s.lockCount ≠ 4294967295#32))

/-- A step of thread `i` that takes the lock from nobody else and writes the count only as its
owner. -/
theorem Ordered.of_step (h : Ordered s) (hown : s'.Assertion i)
    (hphase : ∀ j, j ≠ i → s'.phase j = s.phase j) (hdepth : ∀ j, j ≠ i → s'.depth j = s.depth j)
    (havailable : ∀ j, j ≠ i → s'.available j = s.available j)
    (howner : ∀ j, j ≠ i → (s'.owner = some j ↔ s.owner = some j))
    (hcount : s'.lockCount = s.lockCount ∨ s.owner = some i)
    (hfree : s'.owner = none → s'.lockCount = 0#32)
    (htries : ∀ t ∈ s'.tries, t.returned = t.available) : Ordered s' := by
  refine ⟨fun j => ?_, hfree, htries⟩
  by_cases hji : j = i
  · exact hji ▸ hown
  · refine (h.assertion j).frame (hphase j hji) (hdepth j hji) (havailable j hji) (howner j hji) ?_
    intro hj
    rcases hcount with hcount | hi
    · exact hcount
    · rw [hi] at hj
      exact absurd (Option.some.inj hj).symm hji

/-- A step that changes nothing but the phase of its thread. -/
theorem Ordered.goto (h : Ordered s) {phase : Phase} (hown : (s.goto i phase).Assertion i) :
    Ordered (s.goto i phase) :=
  h.of_step hown (fun _ hj => Function.update_of_ne hj _ _) (fun _ _ => rfl) (fun _ _ => rfl)
    (fun _ _ => Iff.rfl) (.inl rfl) h.free h.tries

theorem Ordered.enter (h : Ordered s) (hi : s.phase i = .outside) :
    Ordered (s.goto i .enterTest) := by
  have hann := h.assertion i
  rw [Assertion, hi] at hann
  exact h.goto (by simpa [Assertion, System.goto] using hann)

theorem Ordered.tryEnter (h : Ordered s) (hi : s.phase i = .outside)
    (htaken : s.isAvailable i = false) :
    Ordered ({ s with available := Function.update s.available i (s.isAvailable i) }.goto i
      .tryTest) := by
  have hann := h.assertion i
  rw [Assertion, hi] at hann
  have howner : s.owner ≠ some i := by
    rintro he
    simp [isAvailable, he] at htaken
  refine h.of_step (i := i) ?_ ?_ (fun _ _ => rfl) ?_ (fun _ _ => Iff.rfl) (.inl rfl) h.free h.tries
  · have hdepth : s.depth i = 0 := by
      by_contra hne
      exact howner (hann.1.mpr (Nat.pos_of_ne_zero hne))
    simp [Assertion, System.goto, htaken, howner, hdepth]
  · exact fun j hj => Function.update_of_ne hj _ _
  · exact fun j hj => Function.update_of_ne hj _ _

theorem Ordered.leave (h : Ordered s) (hi : s.phase i = .outside) (hdepth : 0 < s.depth i) :
    Ordered (s.goto i .leaveRead) := by
  have hann := h.assertion i
  rw [Assertion, hi] at hann
  have howner := hann.1.mpr hdepth
  exact h.goto (by simpa [Assertion, System.goto, howner, hdepth] using hann.2 howner)

/-- `TryEnter` returns `false` to a thread that does not own the lock. -/
theorem Ordered.tried (h : Ordered s) (howner : s.owner ≠ some i) (hdepth : s.depth i = 0)
    (hi : s.available i = false) : Ordered ((s.tried i false).goto i .outside) := by
  refine h.of_step (i := i) ?_ ?_ (fun _ _ => rfl) (fun _ _ => rfl) (fun _ _ => Iff.rfl) (.inl rfl)
    h.free ?_
  · simp [Assertion, System.goto, System.tried, howner, hdepth]
  · exact fun j hj => Function.update_of_ne hj _ _
  · intro t ht
    simp only [System.goto, System.tried, List.mem_append, List.mem_singleton] at ht
    rcases ht with ht | rfl
    · exact h.tries t ht
    · exact hi.symm

theorem Ordered.enterTest (h : Ordered s) (hi : s.phase i = .enterTest)
    (hread : s.lockCount = 0#32 ∨ s.owner = some i) (hmax : s.lockCount ≠ 4294967295#32) :
    Ordered (s.goto i (if s.lockCount = 0#32 then .enterOwner else .enterRead)) := by
  have hann := h.assertion i
  rw [Assertion, hi] at hann
  refine h.goto ?_
  by_cases hzero : s.lockCount = 0#32
  · have howner : s.owner ≠ some i := by
      intro he
      have hcount := hann.2 he
      rw [hzero] at hcount
      exact Nat.ne_of_gt (hann.1.mp he) hcount.symm
    have hdepth : s.depth i = 0 := by
      by_contra hne
      exact howner (hann.1.mpr (Nat.pos_of_ne_zero hne))
    simp [Assertion, System.goto, hzero, howner, hdepth]
  · have howner := hread.resolve_left hzero
    have hcount := hann.2 howner
    have hlt : s.depth i < 4294967295 := by
      have hbound := s.lockCount.isLt
      have hne : s.lockCount.toNat ≠ 4294967295 := fun he => hmax (BitVec.eq_of_toNat_eq he)
      omega
    simp [Assertion, System.goto, hzero, howner, hcount, hlt]

theorem Ordered.enterLock (h : Ordered s) (hi : s.phase i = .enterLock) (hfree : s.owner = none) :
    Ordered ({ s with owner := some i }.goto i .enterRead) := by
  have hann := h.assertion i
  rw [Assertion, hi] at hann
  refine h.of_step (i := i) ?_ ?_ (fun _ _ => rfl) (fun _ _ => rfl) ?_ (.inl rfl) nofun h.tries
  · simp [Assertion, System.goto, hann.2, h.free hfree]
  · exact fun j hj => Function.update_of_ne hj _ _
  · intro j hj
    simp [System.goto, hfree, hj.symm]

theorem Ordered.enterWrite (h : Ordered s) {count : BitVec 32}
    (hi : s.phase i = .enterWrite count) :
    Ordered ({ s with lockCount := count + 1#32 }.entered i) := by
  have hann := h.assertion i
  rw [Assertion, hi] at hann
  obtain ⟨howner, hcount, hlt⟩ := hann
  refine h.of_step (i := i) ?_ ?_ ?_ (fun _ _ => rfl) (fun _ _ => Iff.rfl) (.inr howner) ?_ h.tries
  · have hadd : (count + 1#32).toNat = s.depth i + 1 := by
      rw [BitVec.toNat_add, hcount]
      exact Nat.mod_eq_of_lt (by simp; omega)
    simp [Assertion, System.entered, System.goto, howner, hadd]
  · exact fun j hj => Function.update_of_ne hj _ _
  · exact fun j hj => Function.update_of_ne hj _ _
  · exact fun hfree => nomatch howner.symm.trans hfree

theorem Ordered.leaveWrite (h : Ordered s) {count : BitVec 32}
    (hi : s.phase i = .leaveWrite count) :
    Ordered ({ s with lockCount := count - 1#32 }.goto i .leaveTest) := by
  have hann := h.assertion i
  rw [Assertion, hi] at hann
  obtain ⟨howner, hcount, hpos⟩ := hann
  refine h.of_step (i := i) ?_ ?_ (fun _ _ => rfl) (fun _ _ => rfl) (fun _ _ => Iff.rfl)
    (.inr howner) ?_ h.tries
  · have hsub : (count - 1#32).toNat + 1 = s.depth i := by
      rw [BitVec.toNat_sub_of_le (by rw [BitVec.le_def, hcount]; exact hpos), hcount]
      exact Nat.sub_add_cancel hpos
    simp [Assertion, System.goto, howner, hsub, -BitVec.toNat_sub]
  · exact fun j hj => Function.update_of_ne hj _ _
  · exact fun hfree => nomatch howner.symm.trans hfree

/-- A nested `Leave` returns and keeps the lock. -/
theorem Ordered.leaveTest (h : Ordered s) (hi : s.phase i = .leaveTest)
    (hne : s.lockCount ≠ 0#32) : Ordered (s.left i) := by
  have hann := h.assertion i
  rw [Assertion, hi] at hann
  obtain ⟨howner, hcount⟩ := hann
  refine h.of_step (i := i) ?_ ?_ ?_ (fun _ _ => rfl) (fun _ _ => Iff.rfl) (.inl rfl) h.free h.tries
  · have hpos : 0 < s.lockCount.toNat :=
      Nat.pos_of_ne_zero fun he => hne (BitVec.eq_of_toNat_eq he)
    simp [Assertion, System.left, System.goto, howner, ← hcount, hpos]
  · exact fun j hj => Function.update_of_ne hj _ _
  · exact fun j hj => Function.update_of_ne hj _ _

theorem Ordered.leaveUnlock (h : Ordered s) (hi : s.phase i = .leaveUnlock) :
    Ordered ({ s with owner := none }.left i) := by
  have hann := h.assertion i
  rw [Assertion, hi] at hann
  obtain ⟨howner, hzero, hdepth⟩ := hann
  refine h.of_step (i := i) ?_ ?_ ?_ (fun _ _ => rfl) ?_ (.inl rfl) (fun _ => hzero) h.tries
  · simp [Assertion, System.left, System.goto, hdepth]
  · exact fun j hj => Function.update_of_ne hj _ _
  · exact fun j hj => Function.update_of_ne hj _ _
  · intro j hj
    simp [System.left, System.goto, howner, hj.symm]

theorem Ordered.advance (h : Ordered s) (hguard : s.Guarded (.advance i))
    (hnext : s.advance i = some s') : Ordered s' := by
  have hann := h.assertion i
  rw [Assertion] at hann
  rw [System.advance] at hnext
  cases hi : s.phase i with
  | outside => simp [hi] at hnext
  | enterTest =>
      simp only [hi, Option.some.injEq] at hnext
      obtain ⟨hread, hmax⟩ := hguard hi
      exact hnext ▸ h.enterTest hi hread hmax
  | enterOwner =>
      simp only [hi, Option.some.injEq] at hann hnext
      subst hnext
      exact h.goto (by simp [Assertion, System.goto, hann])
  | enterLock =>
      simp only [hi, Option.ite_none_right_eq_some, Option.some.injEq] at hnext
      exact hnext.2 ▸ h.enterLock hi hnext.1
  | enterRead =>
      simp only [hi, Option.some.injEq] at hann hnext
      subst hnext
      exact h.goto (by simpa [Assertion, System.goto] using hann)
  | enterWrite count =>
      simp only [hi, Option.some.injEq] at hnext
      exact hnext ▸ h.enterWrite hi
  | tryTest =>
      simp only [hi] at hann hnext
      obtain ⟨howner, hdepth, havailable⟩ := hann
      split at hnext
      · cases hnext
        exact h.tried howner hdepth havailable
      · cases hnext
        exact h.goto (by simp [Assertion, System.goto, howner, hdepth, havailable])
  | tryOwner =>
      simp only [hi] at hann hnext
      obtain ⟨howner, hdepth, havailable⟩ := hann
      rw [if_neg howner] at hnext
      cases hnext
      exact h.tried howner hdepth havailable
  -- a guarded `TryEnter` does not get past the test of the owner
  | tryLock => simp [hi] at hann
  | tryRead => simp [hi] at hann
  | tryWrite count => simp [hi] at hann
  | leaveRead =>
      simp only [hi, Option.some.injEq] at hann hnext
      subst hnext
      exact h.goto (by simpa [Assertion, System.goto] using hann)
  | leaveWrite count =>
      simp only [hi, Option.some.injEq] at hnext
      exact hnext ▸ h.leaveWrite hi
  | leaveTest =>
      simp only [hi] at hann hnext
      split at hnext
      · next hne =>
        cases hnext
        exact h.leaveTest hi hne
      · next hzero =>
        cases hnext
        rw [not_not] at hzero
        rw [hzero] at hann
        exact h.goto (by simp [Assertion, System.goto, hann.1, hzero, ← hann.2])
  | leaveUnlock =>
      simp only [hi, Option.some.injEq] at hnext
      exact hnext ▸ h.leaveUnlock hi

theorem Ordered.next {a : Action ι} (h : Ordered s) (hguard : s.Guarded a)
    (hnext : s.next a = some s') : Ordered s' := by
  cases a with
  | enter i =>
      simp only [System.next, Option.ite_none_right_eq_some, Option.some.injEq] at hnext
      exact hnext.2 ▸ h.enter hnext.1
  | tryEnter i =>
      simp only [System.next, Option.ite_none_right_eq_some, Option.some.injEq] at hnext
      exact hnext.2 ▸ h.tryEnter hnext.1 hguard
  | leave i =>
      simp only [System.next, Option.ite_none_right_eq_some, Option.some.injEq] at hnext
      exact hnext.2 ▸ h.leave hnext.1.1 hnext.1.2
  | advance i => exact h.advance hguard hnext

/-- In every state of every run whose steps are guarded, the mutex is a recursive mutex. -/
theorem mutex_recursive (h : Machine.Reachable next Guarded start s) : Recursive s :=
  (h.invariant start_ordered fun hs hguard hnext => hs.next hguard hnext).recursive

/-- The thread makes `n` accesses. -/
def advances (n : ℕ) (i : ι) : List (Action ι) := List.replicate n (.advance i)

/-- Thread 1 waits for the lock that thread 0 enters twice, and thread 2 tries in vain. -/
theorem mutex_recursive_nested : ∃ s : System (Fin 3), Machine.Reachable next Guarded start s ∧
    s.depth 0 = 2 ∧ s.phase 1 = .enterLock ∧ s.tries = [⟨false, false⟩] ∧ Recursive s := by
  let as : List (Action (Fin 3)) := [.enter 0, .enter 1] ++ advances 2 1 ++ advances 5 0 ++
    [.enter 0] ++ advances 3 0 ++ [.tryEnter 2] ++ advances 2 2
  have hrun : (Machine.run (fun s a => if s.Guarded a then s.next a else none) start as).any
      (fun s => s.depth 0 = 2 ∧ s.phase 1 = .enterLock ∧ s.tries = [⟨false, false⟩]) = true := by
    decide +kernel
  obtain ⟨s, hs, hstate⟩ := (Option.any_eq_true _ _).mp hrun
  have hreach := Machine.Reachable.of_run hs
  simp only [decide_eq_true_eq] at hstate
  exact ⟨s, hreach, hstate.1, hstate.2.1, hstate.2.2, mutex_recursive hreach⟩

/-- A second thread that enters is a second holder, and `TryEnter` fails on a free mutex and
for the holder. -/
theorem mutex_not_recursive :
    (∃ s : System (Fin 2), Machine.Reaches next start s ∧
      (∀ i, s.phase i = .outside ∧ s.depth i = 1) ∧ ¬ Recursive s) ∧
    (∃ s : System (Fin 2), Machine.Reaches next start s ∧
      s.tries = [⟨false, true⟩, ⟨false, true⟩] ∧ ¬ Recursive s) := by
  constructor
  · let as : List (Action (Fin 2)) := [.enter 0] ++ advances 5 0 ++ [.enter 1] ++ advances 3 1
    have hrun : (Machine.run next start as).any
        (fun s => ∀ i, s.phase i = .outside ∧ s.depth i = 1) = true := by decide +kernel
    obtain ⟨s, hs, hstate⟩ := (Option.any_eq_true _ _).mp hrun
    simp only [decide_eq_true_eq] at hstate
    refine ⟨s, Machine.Reaches.of_run hs, hstate, fun h => ?_⟩
    have hsame := h.exclusive 0 1 (by rw [(hstate 0).2]; decide) (by rw [(hstate 1).2]; decide)
    exact absurd hsame (by decide)
  · let as : List (Action (Fin 2)) := [.tryEnter 0] ++ advances 1 0 ++ [.enter 0] ++
      advances 5 0 ++ [.tryEnter 0] ++ advances 3 0
    have hrun : (Machine.run next start as).any
        (fun s => s.tries = [⟨false, true⟩, ⟨false, true⟩]) = true := by decide +kernel
    obtain ⟨s, hs, hstate⟩ := (Option.any_eq_true _ _).mp hrun
    simp only [decide_eq_true_eq] at hstate
    refine ⟨s, Machine.Reaches.of_run hs, hstate, fun h => ?_⟩
    have hfirst := h.tries ⟨false, true⟩ (by simp [hstate])
    exact absurd hfirst (by decide)

end DDFramework.Mutex.System
