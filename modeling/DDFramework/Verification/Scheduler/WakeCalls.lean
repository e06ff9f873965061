import DDFramework.Verification.Scheduler.WaitQueues

/-! # The wait and wake calls

The calls of a family share their effect on the fibers: a wait stores what ends it,
and a wake leaves every record as it was or ends the wait in it. -/

namespace DDFramework.UserScheduler

/-- A call of one of the two functions that block on an address. -/
inductive WaitCall where
  | ifEqual (address : Address) (value : BitVec 32) (deadline : BitVec 64)
  | ifLessThan (address : Address) (value : BitVec 32) (deadline : BitVec 64)
      (doDecrement : Bool)

namespace WaitCall

def address : WaitCall → Address
  | ifEqual address _ _ => address
  | ifLessThan address _ _ _ => address

def deadline : WaitCall → BitVec 64
  | ifEqual _ _ deadline => deadline
  | ifLessThan _ _ deadline _ => deadline

def run (fuel : ℕ) (s : UserScheduler) (current : FiberId) :
    WaitCall → Except Fault (CallExit × UserScheduler)
  | ifEqual address value deadline =>
      s.waitForAddressIfEqualImpl fuel current address value deadline
  | ifLessThan address value deadline doDecrement =>
      s.waitForAddressIfLessThanImpl fuel current address value deadline doDecrement

end WaitCall

/-- A call of one of the three functions that wake by address. -/
inductive WakeCall where
  | wakeByAddress (address : Address) (count : BitVec 32)
  | incrementEqual (address : Address) (value count : BitVec 32)
  | modifyLessThan (address : Address) (value count : BitVec 32)

namespace WakeCall

def address : WakeCall → Address
  | wakeByAddress address _ => address
  | incrementEqual address _ _ => address
  | modifyLessThan address _ _ => address

def count : WakeCall → BitVec 32
  | wakeByAddress _ count => count
  | incrementEqual _ _ count => count
  | modifyLessThan _ _ count => count

/-- The value test of the call passes. -/
def TestPasses (s : UserScheduler) : WakeCall → Prop
  | wakeByAddress _ _ => True
  | incrementEqual address value _ => s.words address = value
  | modifyLessThan address value _ => s.words address = value

def run (fuel : ℕ) (s : UserScheduler) : WakeCall → Except Fault (Result × UserScheduler)
  | wakeByAddress address count => s.wakeByAddressImpl fuel address count
  | incrementEqual address value count => s.wakeByAddressIncrementEqualImpl fuel address value count
  | modifyLessThan address value count => s.wakeByAddressModifyLessThanImpl fuel address value count

end WakeCall

/-! ### Waits -/

/-- A call that blocks leaves the arbiter and the deadline in the record. -/
theorem blockOnAddress_fibers {s s' : UserScheduler} {current : FiberId} {address : Address}
    {deadline : BitVec 64} {fuel : ℕ} (h : s.blockOnAddress fuel current address deadline = .ok s') :
    s'.fibers current = { s.fibers current with
      waitableObject := some .waitAddressArbiter
      waitAddress := address
      fiberState := .waiting
      timeout := deadline } := by
  unfold blockOnAddress at h
  obtain ⟨found, -, h⟩ := bind_eq_ok_iff.mp h
  cases found with
  | none =>
      cases h
      simp
  | some addressFiber =>
      cases h
      simp

theorem resultInvalidWaitAddressValue_ne_success : resultInvalidWaitAddressValue ≠ resultSuccess :=
  declareResult_ukern_ne_success 10

theorem resultTimeout_ne_success : resultTimeout ≠ resultSuccess :=
  declareResult_ukern_ne_success 1

/-- A switch with a success comes from the branch that blocks. -/
theorem WaitCall.run_eq_switches {call : WaitCall} {fuel : ℕ} {s s' : UserScheduler}
    {current : FiberId} (h : call.run fuel s current = .ok (.switches resultSuccess, s')) :
    ∃ t : UserScheduler, t.blockOnAddress fuel current call.address call.deadline = .ok s' := by
  cases call with
  | ifEqual address value deadline =>
      simp only [WaitCall.run, waitForAddressIfEqualImpl] at h
      split_ifs at h
      · simp at h
      · simp [resultInvalidWaitAddressValue_ne_success] at h
      · simp [resultTimeout_ne_success] at h
      · obtain ⟨t, ht, h⟩ := bind_eq_ok_iff.mp h
        simp only [Except.ok.injEq, Prod.mk.injEq, true_and] at h
        exact ⟨s, h ▸ ht⟩
  | ifLessThan address value deadline doDecrement =>
      simp only [WaitCall.run, waitForAddressIfLessThanImpl] at h
      split at h
      · simp at h
      · obtain ⟨t, -, h⟩ := bind_eq_ok_iff.mp h
        split_ifs at h
        · simp [resultInvalidWaitAddressValue_ne_success] at h
        · simp [resultTimeout_ne_success] at h
        · obtain ⟨u, hu, h⟩ := bind_eq_ok_iff.mp h
          simp only [Except.ok.injEq, Prod.mk.injEq, true_and] at h
          exact ⟨t, h ▸ hu⟩

/-! ### Wakes -/

/-- From `s` to `s'` each record is kept, or its wait has ended with a success. -/
def KeptOrEnded (s s' : UserScheduler) : Prop :=
  ∀ f, s'.fibers f = s.fibers f ∨ s'.fibers f = endedRecord (s.fibers f) resultSuccess

theorem KeptOrEnded.refl (s : UserScheduler) : KeptOrEnded s s := fun _ => Or.inl rfl

theorem endedRecord_idem (r : FiberLocalStorage) (result : Result) :
    endedRecord (endedRecord r result) result = endedRecord r result := rfl

theorem KeptOrEnded.endFiberWaitImpl {s t : UserScheduler} (h : KeptOrEnded s t) (w : FiberId) :
    KeptOrEnded s (t.endFiberWaitImpl w resultSuccess) := by
  intro f
  by_cases hf : f = w
  · subst f
    rw [endFiberWaitImpl_fibers_self]
    rcases h w with he | he
    · exact Or.inr (by rw [he])
    · exact Or.inr (by rw [he, endedRecord_idem])
  · rw [endFiberWaitImpl_fibers_of_ne t hf]
    exact h f

theorem KeptOrEnded.wakeStep {s : UserScheduler} {count : BitVec 32} {node : Node}
    {p p' : UserScheduler × BitVec 32} (h : KeptOrEnded s p.1)
    (hstep : wakeStep count node p = .ok (.next p') ∨ wakeStep count node p = .ok (.stop p')) :
    KeptOrEnded s p'.1 := by
  unfold UserScheduler.wakeStep at hstep
  split at hstep
  · simp only [Except.ok.injEq, reduceCtorEq, LoopExit.stop.injEq, false_or] at hstep
    exact hstep ▸ h
  · rcases hstep with hstep | hstep
    · obtain ⟨w, -, hstep⟩ := bind_eq_ok_iff.mp hstep
      obtain ⟨t, ht, hstep⟩ := bind_eq_ok_iff.mp hstep
      obtain ⟨-, rfl⟩ := endWait_eq_ok ht
      simp only [Except.ok.injEq, LoopExit.next.injEq] at hstep
      subst hstep
      exact h.endFiberWaitImpl w
    · obtain ⟨w, -, hstep⟩ := bind_eq_ok_iff.mp hstep
      obtain ⟨t, -, hstep⟩ := bind_eq_ok_iff.mp hstep
      cases hstep

/-- The loop wakes the children of a waiter that has been released. -/
theorem releaseWaiters_eq_ok {s s' : UserScheduler} {w : FiberId} {count : BitVec 32} {fuel : ℕ}
    (h : s.releaseWaiters fuel (some w) count = .ok s') :
    ∃ p, rangeFor (fun p : UserScheduler × BitVec 32 => p.1.links) (.fiberWaitList w)
        (wakeStep count) fuel (s.endFiberWaitImpl w resultSuccess, 1) = .ok p ∧
      p.1.promoteWaiter fuel w = .ok s' := by
  obtain ⟨t, ht, h⟩ := bind_eq_ok_iff.mp h
  obtain ⟨-, rfl⟩ := endWait_eq_ok ht
  obtain ⟨u, hu, h⟩ := bind_eq_ok_iff.mp h
  obtain ⟨p, hp, hu⟩ := bind_eq_ok_iff.mp hu
  simp only [Except.ok.injEq] at hu
  subst u
  exact ⟨p, hp, h⟩

theorem releaseWaiters_keptOrEnded {s s' : UserScheduler} {addressFiber : Option FiberId}
    {count : BitVec 32} {fuel : ℕ} (h : s.releaseWaiters fuel addressFiber count = .ok s') :
    KeptOrEnded s s' := by
  cases addressFiber with
  | none => cases h
  | some w =>
      obtain ⟨p, hp, h⟩ := releaseWaiters_eq_ok h
      have hloop : KeptOrEnded s p.1 := by
        apply rangeFor_preserves (P := fun p => KeptOrEnded s p.1) _ _ hp
        · exact fun x p p' hs hstep => hs.wakeStep hstep
        · exact (KeptOrEnded.refl s).endFiberWaitImpl w
      exact promoteWaiter_preserves (P := KeptOrEnded s) (fun _ _ ht => ht) hloop h

/-- A wake call writes nothing, or it succeeds after it has written at most its word and has
released the waiter that it found. -/
theorem WakeCall.run_cases {call : WakeCall} {fuel : ℕ} {s s' : UserScheduler} {result : Result}
    (h : call.run fuel s = .ok (result, s')) :
    s' = s ∨ result = resultSuccess ∧ ∃ searched words found,
      { s with words := searched }.findWaiter fuel call.address = .ok found ∧
      { s with words := words }.releaseWaiters fuel found call.count = .ok s' := by
  cases call with
  | wakeByAddress address count =>
      simp only [WakeCall.run, wakeByAddressImpl] at h
      split_ifs at h
      · cases h
        exact .inl rfl
      · cases h
        exact .inl rfl
      · obtain ⟨found, hfound, h⟩ := bind_eq_ok_iff.mp h
        split_ifs at h
        · cases h
          exact .inl rfl
        · obtain ⟨t, ht, h⟩ := bind_eq_ok_iff.mp h
          cases h
          exact .inr ⟨rfl, s.words, s.words, found, hfound, ht⟩
  | incrementEqual address value count =>
      simp only [WakeCall.run, wakeByAddressIncrementEqualImpl] at h
      split_ifs at h
      · cases h
        exact .inl rfl
      · cases h
        exact .inl rfl
      · obtain ⟨t, ht, h⟩ := bind_eq_ok_iff.mp h
        obtain ⟨-, rfl⟩ := writeWord_eq_ok ht
        obtain ⟨found, hfound, h⟩ := bind_eq_ok_iff.mp h
        obtain ⟨u, hu, h⟩ := bind_eq_ok_iff.mp h
        cases h
        exact .inr ⟨rfl, _, _, found, hfound, hu⟩
  | modifyLessThan address value count =>
      simp only [WakeCall.run, wakeByAddressModifyLessThanImpl] at h
      split_ifs at h
      · cases h
        exact .inl rfl
      · cases h
        exact .inl rfl
      · obtain ⟨found, hfound, h⟩ := bind_eq_ok_iff.mp h
        obtain ⟨signal, -, h⟩ := bind_eq_ok_iff.mp h
        obtain ⟨t, ht, h⟩ := bind_eq_ok_iff.mp h
        obtain ⟨u, hu, h⟩ := bind_eq_ok_iff.mp h
        cases h
        split_ifs at ht
        · obtain ⟨-, rfl⟩ := writeWord_eq_ok ht
          exact .inr ⟨rfl, s.words, _, found, hfound, hu⟩
        · cases ht
          exact .inr ⟨rfl, s.words, s.words, found, hfound, hu⟩

/-- A wake call keeps or ends the wait of every fiber. -/
theorem WakeCall.run_keptOrEnded {call : WakeCall} {fuel : ℕ} {s s' : UserScheduler}
    {result : Result} (h : call.run fuel s = .ok (result, s')) : KeptOrEnded s s' := by
  rcases run_cases h with rfl | ⟨-, searched, words, found, -, hrelease⟩
  · exact .refl _
  · intro f
    exact releaseWaiters_keptOrEnded hrelease f

end DDFramework.UserScheduler
