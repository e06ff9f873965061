import DDFramework.Model.SchedulerMain
import DDFramework.Verification.Scheduler.WakeCalls

/-! # Refused calls

A call that returns from one of its checks has written nothing. The decrementing wait
writes its word before the check. -/

namespace DDFramework.UserScheduler

variable {fuel : ℕ} {s s' : UserScheduler} {current : FiberId} {result : Result}

/-! ### Calls that return from a check -/

/-- A call of the lock, condition variable or wake interface. -/
inductive CheckedCall where
  | arbitrateLock (handle : UKernHandle) (lockAddress : Address) (tag : BitVec 32)
  | arbitrateUnlock (lockAddress : Address)
  | waitKey (lockAddress cvKey : Address) (tag : BitVec 32) (absoluteTimeout : BitVec 64)
  | signalKey (cvKey : Address) (signalCount : BitVec 32)
  | wake (call : WakeCall)

/-- A call that returns to its caller, as an exit. -/
def returning (call : Except Fault (Result × UserScheduler)) :
    Except Fault (CallExit × UserScheduler) :=
  call.map fun p => (.returns p.1, p.2)

def CheckedCall.run (fuel : ℕ) (s : UserScheduler) (current : FiberId) :
    CheckedCall → Except Fault (CallExit × UserScheduler)
  | arbitrateLock handle lockAddress tag => s.arbitrateLockImpl current handle lockAddress tag
  | arbitrateUnlock lockAddress => returning (s.arbitrateUnlockImpl fuel current lockAddress)
  | waitKey lockAddress cvKey tag absoluteTimeout =>
      s.waitKeyImpl fuel current lockAddress cvKey tag absoluteTimeout
  | signalKey cvKey signalCount => returning (s.signalKeyImpl fuel cvKey signalCount)
  | wake call => returning (call.run fuel s)

theorem returning_eq_ok {call : Except Fault (Result × UserScheduler)}
    (h : returning call = .ok (.returns result, s')) : call = .ok (result, s') := by
  cases call with
  | error fault => cases h
  | ok p =>
      cases h
      rfl

theorem arbitrateLockImpl_returns {handle : UKernHandle} {lockAddress : Address} {tag : BitVec 32}
    (h : s.arbitrateLockImpl current handle lockAddress tag = .ok (.returns result, s')) :
    s' = s := by
  unfold arbitrateLockImpl at h
  split at h
  · cases h
    rfl
  · obtain ⟨found, -, h⟩ := bind_eq_ok_iff.mp h
    cases found with
    | none =>
        cases h
        rfl
    | some handleFiber =>
        dsimp only at h
        split_ifs at h
        · cases h
          rfl
        · cases h
          rfl
        · cases h

theorem arbitrateUnlockImpl_refused {lockAddress : Address}
    (h : s.arbitrateUnlockImpl fuel current lockAddress = .ok (result, s'))
    (herror : result ≠ resultSuccess) : s' = s := by
  unfold arbitrateUnlockImpl at h
  split_ifs at h
  · cases h
    rfl
  · cases h
    rfl
  · cases h
    rfl
  · obtain ⟨t, -, h⟩ := bind_eq_ok_iff.mp h
    cases h
    exact absurd rfl herror

/-- A wait that has released the lock switches to the scheduler. -/
theorem waitKeyImpl_returns {lockAddress cvKey : Address} {tag : BitVec 32}
    {absoluteTimeout : BitVec 64}
    (h : s.waitKeyImpl fuel current lockAddress cvKey tag absoluteTimeout =
      .ok (.returns result, s')) : s' = s := by
  unfold waitKeyImpl at h
  split_ifs at h
  · cases h
    rfl
  · cases h
    rfl
  · cases h
    rfl
  · cases h
    rfl
  all_goals
    obtain ⟨t, -, h⟩ := bind_eq_ok_iff.mp h
    obtain ⟨u, -, h⟩ := bind_eq_ok_iff.mp h
    obtain ⟨v, -, h⟩ := bind_eq_ok_iff.mp h
    cases h

/-- The search for a waiter writes nothing. -/
theorem signalKeyImpl_refused {cvKey : Address} {signalCount : BitVec 32}
    (h : s.signalKeyImpl fuel cvKey signalCount = .ok (result, s'))
    (herror : result ≠ resultSuccess) : s' = s := by
  unfold signalKeyImpl at h
  split_ifs at h
  · cases h
    rfl
  · obtain ⟨t, -, h⟩ := bind_eq_ok_iff.mp h
    cases h
    exact absurd rfl herror
  · obtain ⟨found, -, h⟩ := bind_eq_ok_iff.mp h
    cases found with
    | none =>
        cases h
        rfl
    | some cvFiber =>
        obtain ⟨t, -, h⟩ := bind_eq_ok_iff.mp h
        obtain ⟨u, -, h⟩ := bind_eq_ok_iff.mp h
        obtain ⟨v, -, h⟩ := bind_eq_ok_iff.mp h
        obtain ⟨w, -, h⟩ := bind_eq_ok_iff.mp h
        cases h
        exact absurd rfl herror

theorem WakeCall.run_of_refused {call : WakeCall} (h : call.run fuel s = .ok (result, s'))
    (herror : result ≠ resultSuccess) : s' = s := by
  rcases run_cases h with he | ⟨hsuccess, -⟩
  · exact he
  · exact (herror hsuccess).elim

/-- A call that returns an error has changed neither a fiber nor a list nor a word. -/
theorem CheckedCall.run_refused {call : CheckedCall}
    (h : call.run fuel s current = .ok (.returns result, s')) (herror : result ≠ resultSuccess) :
    s' = s := by
  cases call with
  | arbitrateLock handle lockAddress tag => exact arbitrateLockImpl_returns h
  | arbitrateUnlock lockAddress => exact arbitrateUnlockImpl_refused (returning_eq_ok h) herror
  | waitKey lockAddress cvKey tag absoluteTimeout => exact waitKeyImpl_returns h
  | signalKey cvKey signalCount => exact signalKeyImpl_refused (returning_eq_ok h) herror
  | wake call => exact call.run_of_refused (returning_eq_ok h) herror

/-- A signal for a key on which nobody waits is refused after a search of the wait list. -/
theorem CheckedCall.run_refused_signalKey : ∃ s',
    (CheckedCall.signalKey 4 1).run 2 (staticInstance fun _ => 7) 0 =
      .ok (.returns resultInvalidAddress, s') ∧ s' = staticInstance fun _ => 7 := by
  have hcall : (CheckedCall.signalKey 4 1).run 2 (staticInstance fun _ => 7) 0 =
      .ok (.returns resultInvalidAddress, staticInstance fun _ => 7) := rfl
  exact ⟨_, hcall, CheckedCall.run_refused hcall (declareResult_ukern_ne_success 9)⟩

/-! ### The decrementing wait -/

/-- The call comes to its end over every proper wait list. If it will not wait it leaves
everything as it was, and if its value test passes it lowers the word by one when it was
asked to, and writes no other word. -/
def DecrementsOnlyToWait (fuel : ℕ) (s : UserScheduler) (current : FiberId)
    (waitAddress : Address) (value : BitVec 32) (absoluteTimeout : BitVec 64)
    (doDecrement : Bool) : Prop :=
  let call := s.waitForAddressIfLessThanImpl fuel current waitAddress value absoluteTimeout
    doDecrement
  (∀ entries : List FiberId, s.links.Coherent →
    s.links.Ring .schedulerWaitList (entries.map .schedulerListNode) → entries.length < fuel →
    ∃ p, call = .ok p) ∧
  ∀ exit s', call = .ok (exit, s') →
    (exit = .switches resultInvalidWaitAddressValue → s' = s) ∧
    (waitAddress ≠ 0 → s.words waitAddress < value → s'.words =
      if doDecrement then Function.update s.words waitAddress (s.words waitAddress - 1)
      else s.words)

/-- The search for the address ends, so the call can block. -/
theorem blockOnAddress_returns {entries : List FiberId} (hc : s.links.Coherent)
    (hring : s.links.Ring .schedulerWaitList (entries.map .schedulerListNode))
    (hfuel : entries.length < fuel) (current : FiberId) (address : Address)
    (deadline : BitVec 64) : ∃ t, s.blockOnAddress fuel current address deadline = .ok t := by
  dsimp only [blockOnAddress]
  rw [findWaiter_eq (by exact hc) (by exact hring) hfuel, ok_bind]
  split
  · exact ⟨_, rfl⟩
  · exact ⟨_, rfl⟩

theorem blockOnAddress_words {address : Address} {deadline : BitVec 64}
    (h : s.blockOnAddress fuel current address deadline = .ok s') : s'.words = s.words := by
  unfold blockOnAddress at h
  obtain ⟨found, -, h⟩ := bind_eq_ok_iff.mp h
  cases found with
  | none =>
      cases h
      rfl
  | some addressFiber =>
      cases h
      rfl

/-- The state after the first write of the call. -/
def decremented (s : UserScheduler) (waitAddress : Address) (doDecrement : Bool) : UserScheduler :=
  if doDecrement then
    { s with words := Function.update s.words waitAddress (s.words waitAddress - 1) }
  else s

theorem waitForAddressIfLessThanImpl_eq (fuel : ℕ) (s : UserScheduler) (current : FiberId)
    {waitAddress : Address} (haddress : waitAddress ≠ 0) (value : BitVec 32)
    (absoluteTimeout : BitVec 64) (doDecrement : Bool) :
    s.waitForAddressIfLessThanImpl fuel current waitAddress value absoluteTimeout doDecrement =
      if value ≤ s.words waitAddress then
        .ok (.switches resultInvalidWaitAddressValue, s.decremented waitAddress doDecrement)
      else if absoluteTimeout.toInt ≤ 0 then
        .ok (.switches resultTimeout, s.decremented waitAddress doDecrement)
      else ((s.decremented waitAddress doDecrement).blockOnAddress fuel current waitAddress
        absoluteTimeout).map fun t => (.switches resultSuccess, t) := by
  rw [← bind_ok_eq_map]
  unfold waitForAddressIfLessThanImpl decremented
  rw [if_neg haddress]
  cases doDecrement with
  | false => rfl
  | true =>
      simp only [writeWord, if_neg haddress, if_true, ok_bind]

theorem decremented_words (s : UserScheduler) (waitAddress : Address) (doDecrement : Bool) :
    (s.decremented waitAddress doDecrement).words =
      if doDecrement then Function.update s.words waitAddress (s.words waitAddress - 1)
      else s.words := by
  cases doDecrement with
  | false => rfl
  | true => rfl

theorem decremented_links (s : UserScheduler) (waitAddress : Address) (doDecrement : Bool) :
    (s.decremented waitAddress doDecrement).links = s.links := by
  cases doDecrement with
  | false => rfl
  | true => rfl

theorem waitForAddressIfLessThanImpl_returns {entries : List FiberId} (hc : s.links.Coherent)
    (hring : s.links.Ring .schedulerWaitList (entries.map .schedulerListNode))
    (hfuel : entries.length < fuel) (current : FiberId) (waitAddress : Address)
    (value : BitVec 32) (absoluteTimeout : BitVec 64) (doDecrement : Bool) :
    ∃ p, s.waitForAddressIfLessThanImpl fuel current waitAddress value absoluteTimeout
      doDecrement = .ok p := by
  by_cases haddress : waitAddress = 0
  · exact ⟨_, by rw [waitForAddressIfLessThanImpl, if_pos haddress]⟩
  rw [waitForAddressIfLessThanImpl_eq _ _ _ haddress]
  split_ifs
  · exact ⟨_, rfl⟩
  · exact ⟨_, rfl⟩
  · rw [← decremented_links s waitAddress doDecrement] at hc hring
    obtain ⟨t, ht⟩ := blockOnAddress_returns hc hring hfuel current waitAddress absoluteTimeout
    exact ⟨_, by rw [ht]; rfl⟩

/-- The word is lowered whether the test passes or not. -/
theorem decrementsOnlyToWait_iff (fuel : ℕ) (s : UserScheduler) (current : FiberId)
    (waitAddress : Address) (value : BitVec 32) (absoluteTimeout : BitVec 64)
    (doDecrement : Bool) :
    DecrementsOnlyToWait fuel s current waitAddress value absoluteTimeout doDecrement ↔
      (waitAddress ≠ 0 → doDecrement = true → s.words waitAddress < value) := by
  constructor
  · intro h haddress hdecrement
    by_contra hrefused
    have hle : value ≤ s.words waitAddress := BitVec.not_lt.mp hrefused
    have hcall := waitForAddressIfLessThanImpl_eq fuel s current haddress value absoluteTimeout
      doDecrement
    rw [if_pos hle] at hcall
    have hwords := congrArg (fun t => UserScheduler.words t waitAddress) ((h.2 _ _ hcall).1 rfl)
    simp only [decremented_words, hdecrement, if_true, Function.update_self] at hwords
    bv_omega
  · intro h
    refine ⟨?_, fun exit s' hcall => ?_⟩
    · intro entries hc hring hfuel
      exact waitForAddressIfLessThanImpl_returns hc hring hfuel _ _ _ _ _
    by_cases haddress : waitAddress = 0
    · rw [waitForAddressIfLessThanImpl, if_pos haddress] at hcall
      cases hcall
      refine ⟨?_, fun hne => absurd haddress hne⟩
      intro he
      cases he
    rw [waitForAddressIfLessThanImpl_eq _ _ _ haddress] at hcall
    split_ifs at hcall with hle htimeout
    · cases hcall
      have hkept : doDecrement = false := by
        cases doDecrement with
        | false => rfl
        | true => exact absurd (h haddress rfl) (BitVec.not_lt.mpr hle)
      subst hkept
      exact ⟨fun _ => rfl, fun _ _ => rfl⟩
    · cases hcall
      refine ⟨?_, fun _ _ => decremented_words s waitAddress doDecrement⟩
      intro he
      exact absurd (CallExit.switches.inj he) (by decide)
    · rw [← bind_ok_eq_map] at hcall
      obtain ⟨t, ht, hcall⟩ := bind_eq_ok_iff.mp hcall
      cases hcall
      refine ⟨?_, fun _ _ => ?_⟩
      · intro he
        exact absurd (CallExit.switches.inj he).symm resultInvalidWaitAddressValue_ne_success
      · rw [blockOnAddress_words ht, decremented_words]

/-- A semaphore of 3 is asked for a wait below 2: the wait is refused and the semaphore
is 2. -/
theorem refused_wait_decrements : ∃ s',
    (staticInstance fun _ => 3).waitForAddressIfLessThanImpl 2 0 4 2 1 true =
      .ok (.switches resultInvalidWaitAddressValue, s') ∧ s'.words 4 = 2 ∧
    ¬ DecrementsOnlyToWait 2 (staticInstance fun _ => 3) 0 4 2 1 true := by
  refine ⟨_, rfl, by decide, ?_⟩
  intro h
  have hsame := (h.2 _ _ rfl).1 rfl
  have hword := congrArg (fun t => UserScheduler.words t 4) hsame
  exact absurd hword (by decide)

end DDFramework.UserScheduler
