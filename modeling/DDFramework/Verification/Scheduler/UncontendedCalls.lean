import DDFramework.Model.SchedulerService
import DDFramework.Verification.Scheduler.WakeCalls

/-! # Calls when nobody waits

With empty wait lists the calls of the lock and wait interface that do not block write
words of user code and nothing else. -/

namespace DDFramework.UserScheduler

variable {s s' : UserScheduler} {current : FiberId} {p : CallExit × UserScheduler}
  {q : Result × UserScheduler}

/-- Only lock and wait words have changed. -/
def OnlyWords (s s' : UserScheduler) : Prop := ∃ words, s' = { s with words := words }

theorem OnlyWords.refl (s : UserScheduler) : OnlyWords s s := ⟨s.words, rfl⟩

theorem onlyWords_of_writeWord {address : Address} {value : BitVec 32}
    (h : s.writeWord address value = .ok s') : OnlyWords s s' :=
  ⟨_, (writeWord_eq_ok h).2⟩

theorem findWaiter_of_empty (hc : s.links.Coherent)
    (hempty : s.links.next .schedulerWaitList = .schedulerWaitList) (address : Address) :
    s.findWaiter SchedulerSystem.passFuel address = .ok none := by
  have hring : s.links.Ring .schedulerWaitList (([] : List FiberId).map .schedulerListNode) :=
    Links.ring_nil.mpr hempty
  exact findWaiter_eq hc hring (by decide) address

theorem arbitrateLockImpl_onlyWords {handle : UKernHandle} {lockAddress : Address}
    {tag : BitVec 32}
    (hfree : ∀ g, s.getFiberByHandle handle = .ok (some g) → g ≠ current → lockAddress ≠ 0 →
      s.words lockAddress ≠ handle ||| hasChildWaitersBit)
    (h : s.arbitrateLockImpl current handle lockAddress tag = .ok p) : OnlyWords s p.2 := by
  unfold arbitrateLockImpl at h
  split at h
  · cases h
    exact .refl s
  · rename_i haddress
    obtain ⟨o, hget, h⟩ := bind_eq_ok_iff.mp h
    cases o with
    | none =>
        cases h
        exact .refl s
    | some g =>
        dsimp only at h
        split at h
        · cases h
          exact .refl s
        · rename_i hne
          rw [if_pos (hfree g hget hne haddress)] at h
          cases h
          exact .refl s

theorem arbitrateUnlockImpl_onlyWords {fuel : ℕ} {lockAddress : Address}
    (hempty : s.links.isEmpty (.fiberWaitList current) = true)
    (h : s.arbitrateUnlockImpl fuel current lockAddress = .ok q) : OnlyWords s q.2 := by
  unfold arbitrateUnlockImpl at h
  rw [if_pos hempty] at h
  split at h <;> cases h <;> exact .refl s

theorem waitKeyImpl_onlyWords {fuel : ℕ} {lockAddress cvKey : Address} {tag : BitVec 32}
    {absoluteTimeout : BitVec 64} (hempty : s.links.isEmpty (.fiberWaitList current) = true)
    (h : s.waitKeyImpl fuel current lockAddress cvKey tag absoluteTimeout = .ok p) :
    OnlyWords s p.2 := by
  unfold waitKeyImpl at h
  rw [if_pos hempty] at h
  split at h
  · cases h
    exact .refl s
  · split at h <;> cases h <;> exact .refl s

theorem signalKeyImpl_onlyWords {fuel : ℕ} {cvKey : Address} {signalCount : BitVec 32}
    (hfind : s.findWaiter fuel cvKey = .ok none)
    (h : s.signalKeyImpl fuel cvKey signalCount = .ok q) : OnlyWords s q.2 := by
  unfold signalKeyImpl at h
  split at h
  · cases h
    exact .refl s
  · split at h
    · obtain ⟨t, ht, h⟩ := bind_eq_ok_iff.mp h
      cases h
      exact onlyWords_of_writeWord ht
    · rw [hfind] at h
      cases h
      exact .refl s

theorem waitForAddressIfEqualImpl_onlyWords {fuel : ℕ} {waitAddress : Address}
    {value : BitVec 32} {absoluteTimeout : BitVec 64}
    (htimeout : waitAddress ≠ 0 → s.words waitAddress = value → absoluteTimeout.toInt ≤ 0)
    (h : s.waitForAddressIfEqualImpl fuel current waitAddress value absoluteTimeout = .ok p) :
    OnlyWords s p.2 := by
  unfold waitForAddressIfEqualImpl at h
  split at h
  · cases h
    exact .refl s
  · rename_i haddress
    split at h
    · cases h
      exact .refl s
    · rename_i hvalue
      rw [if_pos (htimeout haddress (not_not.mp hvalue))] at h
      cases h
      exact .refl s

theorem waitForAddressIfLessThanImpl_onlyWords {fuel : ℕ} {waitAddress : Address}
    {value : BitVec 32} {absoluteTimeout : BitVec 64} {doDecrement : Bool}
    (htimeout : waitAddress ≠ 0 → s.words waitAddress < value → absoluteTimeout.toInt ≤ 0)
    (h : s.waitForAddressIfLessThanImpl fuel current waitAddress value absoluteTimeout
      doDecrement = .ok p) : OnlyWords s p.2 := by
  unfold waitForAddressIfLessThanImpl at h
  split at h
  · cases h
    exact .refl s
  · rename_i haddress
    obtain ⟨t, ht, h⟩ := bind_eq_ok_iff.mp h
    have hwords : OnlyWords s t := by
      split at ht
      · exact onlyWords_of_writeWord ht
      · cases ht
        exact .refl s
    split at h
    · cases h
      exact hwords
    · rename_i hvalue
      rw [if_pos (htimeout haddress (BitVec.not_le.mp hvalue))] at h
      cases h
      exact hwords

/-- A wake call that finds no waiter writes nothing, or dereferences the null pointer. -/
theorem WakeCall.run_onlyWords (call : WakeCall) {fuel : ℕ}
    (hfind : ∀ words, { s with words := words }.findWaiter fuel call.address = .ok none)
    (h : call.run fuel s = .ok q) : OnlyWords s q.2 := by
  rcases run_cases h with he | ⟨-, searched, words, found, hfound, hrelease⟩
  · exact he ▸ .refl s
  · rw [hfind] at hfound
    cases hfound
    cases hrelease

end DDFramework.UserScheduler
