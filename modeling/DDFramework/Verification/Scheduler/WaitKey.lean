import DDFramework.Verification.Scheduler.WakeCalls

/-! # Waiting on a condition variable

`WaitKeyImpl` links the two list nodes of the caller together or not at all: the
test that should find a caller without a parent finds one with a parent. -/

namespace DDFramework.UserScheduler

/-! ### Nodes that stay detached -/

/-- The loop over a `wait_list` never reaches a detached node. -/
theorem transferWaitList_detached {s s' : UserScheduler} {fuel : ℕ} {src dst : FiberId} {y : Node}
    (hc : s.links.Coherent) (hy : s.links.next y = y) (hsrc : .fiberWaitList src ≠ y)
    (hdst : .fiberWaitList dst ≠ y) (h : s.transferWaitList fuel src dst = .ok s') :
    s'.links.Coherent ∧ s'.links.next y = y := by
  have hit : s.links.next (s.links.next (.fiberWaitList src)) ≠ y :=
    hc.next_ne_of_detached hy (hc.next_ne_of_detached hy hsrc)
  apply rangeLoop_invariant
    (P := fun it t => t.links.Coherent ∧ t.links.next y = y ∧ it ≠ y)
    (Q := fun t => t.links.Coherent ∧ t.links.next y = y) _ _ _ ⟨hc, hy, hit⟩ h
  · exact fun t ⟨hc, hy, _⟩ => ⟨hc, hy⟩
  · rintro it t t' ⟨hc, hy, hne⟩ - hstep
    cases hstep
    have hnode : t.links.prev it ≠ y := hc.prev_ne_of_detached hy hne
    have hc' := (hc.unlink (t.links.prev it)).pushBack (.fiberWaitList dst) (t.links.prev it)
    have hy' := Links.pushBack_next_of_next_eq (hc.unlink (t.links.prev it))
      (Links.unlink_next_of_next_eq hc hy) hdst hnode
    exact ⟨hc', hy', hc'.next_ne_of_detached hy' hne⟩
  · rintro it t t' - - hstep
    cases hstep

/-- Releasing the lock of a fiber moves none of the fiber's own nodes. -/
theorem releaseLockWaitListUnsafe_detached {s s' : UserScheduler} {fuel : ℕ} {f : FiberId}
    (hc : s.links.Coherent) (hsched : s.links.next (.schedulerListNode f) = .schedulerListNode f)
    (hwait : s.links.next (.waitListNode f) = .waitListNode f)
    (h : s.releaseLockWaitListUnsafe fuel f = .ok s') :
    s'.links.Coherent ∧ s'.links.next (.schedulerListNode f) = .schedulerListNode f ∧
      s'.links.next (.waitListNode f) = .waitListNode f := by
  unfold releaseLockWaitListUnsafe at h
  split at h
  · cases h
  · obtain ⟨nextOwner, howner, h⟩ := bind_eq_ok_iff.mp h
    obtain ⟨t, ht, h⟩ := bind_eq_ok_iff.mp h
    obtain ⟨-, rfl⟩ := writeWord_eq_ok ht
    obtain ⟨u, hu, h⟩ := bind_eq_ok_iff.mp h
    obtain ⟨v, hv, h⟩ := bind_eq_ok_iff.mp h
    obtain ⟨-, rfl⟩ := endWait_eq_ok hv
    cases h
    -- the popped node is linked, so it is not the waiting node of the fiber itself
    have hfront : s.links.next (.fiberWaitList f) ≠ .waitListNode f :=
      hc.next_ne_of_detached hwait (by simp)
    have hne : nextOwner ≠ f := by
      rintro rfl
      apply hfront
      cases hnode : s.links.next (.fiberWaitList nextOwner) <;>
        simp_all [waitNodeParent, Links.popFront]
    have hstep : ∀ y : Node, s.links.next y = y → (∀ g, y ≠ .fiberWaitList g) →
        (∀ r, homeList r ≠ some y) → .schedulerListNode nextOwner ≠ y →
        (u.endFiberWaitImpl nextOwner resultSuccess).links.Coherent ∧
          (u.endFiberWaitImpl nextOwner resultSuccess).links.next y = y := by
      intro y hy hlist hhome hnode
      obtain ⟨hcu, hyu⟩ := transferWaitList_detached (hc.unlink _)
        (Links.unlink_next_of_next_eq hc hy) (hlist f).symm (hlist nextOwner).symm hu
      exact ⟨endFiberWaitImpl_coherent hcu _ _, endFiberWaitImpl_detached hcu hyu (hhome _) hnode _⟩
    have hhome : ∀ (r : FiberLocalStorage) (y : Node), y ≠ .suspendedList →
        (∀ l, y ≠ .runList l) → homeList r ≠ some y := by
      intro r y hsus hrun he
      rcases homeList_eq_some he with rfl | ⟨l, rfl⟩
      · exact hsus rfl
      · exact hrun l rfl
    obtain ⟨hc', hs'⟩ := hstep (.schedulerListNode f) hsched (by simp)
      (fun r => hhome r _ (by simp) (by simp)) (by simpa using hne)
    have hw' := (hstep (.waitListNode f) hwait (by simp)
      (fun r => hhome r _ (by simp) (by simp)) (by simp)).2
    exact ⟨hc', hs', hw'⟩

/-- The search for a parent pushes the caller at most once. -/
theorem joinKey_eq {s s' : UserScheduler} {fuel : ℕ} {current : FiberId} {cvKey : Address}
    (h : rangeFor UserScheduler.links .schedulerWaitList (joinKeyStep current cvKey) fuel s =
      .ok s') :
    s' = s ∨ ∃ e, s' = s.pushBack (.fiberWaitList e) (.waitListNode current) := by
  apply rangeLoop_invariant (P := fun _ t => t = s)
    (Q := fun t => t = s ∨ ∃ e, t = s.pushBack (.fiberWaitList e) (.waitListNode current))
    _ _ _ rfl h
  · exact fun t ht => Or.inl ht
  · rintro it t t' rfl - hstep
    obtain ⟨e, -, hstep⟩ := bind_eq_ok_iff.mp hstep
    split at hstep
    · cases hstep
    · cases hstep
      rfl
  · rintro it t t' rfl - hstep
    obtain ⟨e, -, hstep⟩ := bind_eq_ok_iff.mp hstep
    split at hstep
    · cases hstep
      exact Or.inr ⟨e, rfl⟩
    · cases hstep

/-! ### `WaitKeyImpl` -/

/-- The running caller owns the lock word; `entries` are on `m_wait_list`, and `waiters`
are queued behind the caller. -/
structure OwnsLock (s : UserScheduler) (current : FiberId) (lockAddress cvKey : Address)
    (entries waiters : List FiberId) : Prop where
  coherent : s.links.Coherent
  entryRing : s.links.Ring .schedulerWaitList (entries.map .schedulerListNode)
  waiterRing : s.links.Ring (.fiberWaitList current) (waiters.map .waitListNode)
  running : (s.fibers current).fiberState = .running
  schedulerNode : s.links.next (.schedulerListNode current) = .schedulerListNode current
  waitNode : s.links.next (.waitListNode current) = .waitListNode current
  lockAddress_ne : lockAddress ≠ 0
  cvKey_ne : cvKey ≠ 0
  owner : s.words lockAddress &&& ~~~hasChildWaitersBit = (s.fibers current).ukernFiberHandle

/-- The lock is handed over, and the caller waits for the key in exactly one place. -/
structure KeyWaitFiled (s s' : UserScheduler) (current : FiberId) (lockAddress cvKey : Address)
    (entries waiters : List FiberId) : Prop where
  lock : match waiters with
    | [] => s'.words lockAddress = 0
    | w :: _ => s'.words lockAddress &&& ~~~hasChildWaitersBit = (s.fibers w).waitTag
  state : (s'.fibers current).fiberState = .waiting
  place : match entries.find? fun e => (s.fibers e).waitAddress = cvKey with
    | none =>
      s'.links.Ring .schedulerWaitList ((entries ++ [current]).map .schedulerListNode) ∧
        s'.links.isLinked (.waitListNode current) = false
    | some e =>
      (∃ children : List FiberId,
        s'.links.Ring (.fiberWaitList e) ((children ++ [current]).map .waitListNode)) ∧
        s'.links.isLinked (.schedulerListNode current) = false
  found : ∃ fuel w, s'.findWaiter fuel cvKey = .ok (some w)

/-- In one place exactly one of the two nodes is linked. -/
theorem KeyWaitFiled.linked_ne {s s' : UserScheduler} {current : FiberId}
    {lockAddress cvKey : Address} {entries waiters : List FiberId}
    (h : KeyWaitFiled s s' current lockAddress cvKey entries waiters) :
    s'.links.isLinked (.schedulerListNode current) ≠ s'.links.isLinked (.waitListNode current) := by
  have hplace := h.place
  split at hplace
  · obtain ⟨hring, hwait⟩ := hplace
    have hmem := hring.next_ne_of_mem (List.mem_map_of_mem (List.mem_append_right _
      (List.mem_singleton_self current)))
    rw [hwait, Links.isLinked_iff.mpr hmem]
    decide
  · obtain ⟨⟨children, hring⟩, hsched⟩ := hplace
    have hmem := hring.next_ne_of_mem (List.mem_map_of_mem (List.mem_append_right _
      (List.mem_singleton_self current)))
    rw [hsched, Links.isLinked_iff.mpr hmem]
    decide

theorem becomeKeyParent_linked_eq {s : UserScheduler} {current : FiberId}
    (hc : s.links.Coherent)
    (hsched : s.links.next (.schedulerListNode current) = .schedulerListNode current) :
    (s.becomeKeyParent current).links.isLinked (.schedulerListNode current) =
      (s.becomeKeyParent current).links.isLinked (.waitListNode current) := by
  unfold becomeKeyParent
  split
  · rename_i hwait
    have hself : s.links.unlink (.schedulerListNode current) = s.links := by
      rw [Links.unlink_eq_splice hc, hc.next_eq_iff.mp hsched, Links.splice_self hc]
    have hlinked : (s.links.pushBack .schedulerWaitList (.schedulerListNode current)).next
        (.schedulerListNode current) ≠ .schedulerListNode current := by
      rw [Links.pushBack_next_self hc hsched]
      simp
    have hkept : (s.links.pushBack .schedulerWaitList (.schedulerListNode current)).next
        (.waitListNode current) ≠ .waitListNode current :=
      Links.pushBack_next_ne hc hsched (by simp) (Links.isLinked_iff.mp hwait)
    simp only [pushBack_links, unlink_links, hself]
    rw [Links.isLinked_iff.mpr hlinked, Links.isLinked_iff.mpr hkept]
  · rename_i hwait
    rw [Links.isLinked_eq_false_iff.mpr hsched, Bool.eq_false_of_not_eq_true hwait]

theorem storeKeyWait_links (s : UserScheduler) (current : FiberId) (lockAddress cvKey : Address)
    (tag : BitVec 32) (deadline : BitVec 64) :
    (s.storeKeyWait current lockAddress cvKey tag deadline).links = s.links := by
  unfold storeKeyWait
  split <;> rfl

/-- Past the checks the call links both nodes of the caller or none. -/
theorem waitKeyImpl_linked_eq {s s' : UserScheduler} {fuel : ℕ} {current : FiberId}
    {lockAddress cvKey : Address} {tag : BitVec 32} {deadline : BitVec 64} {exit : CallExit}
    (hc : s.links.Coherent)
    (hsched : s.links.next (.schedulerListNode current) = .schedulerListNode current)
    (hwait : s.links.next (.waitListNode current) = .waitListNode current)
    (h : s.waitKeyImpl fuel current lockAddress cvKey tag deadline = .ok (exit, s')) :
    s' = s ∨ s'.links.isLinked (.schedulerListNode current) =
      s'.links.isLinked (.waitListNode current) := by
  unfold waitKeyImpl at h
  iterate 4
    split at h
    · cases h
      exact Or.inl rfl
  obtain ⟨t, ht, h⟩ := bind_eq_ok_iff.mp h
  obtain ⟨hct, hst, hwt⟩ := releaseLockWaitListUnsafe_detached hc hsched hwait ht
  obtain ⟨u, hu, h⟩ := bind_eq_ok_iff.mp h
  obtain ⟨-, rfl⟩ := writeWord_eq_ok hu
  obtain ⟨v, hv, h⟩ := bind_eq_ok_iff.mp h
  cases h
  refine Or.inr (becomeKeyParent_linked_eq ?_ ?_)
  · rcases joinKey_eq hv with rfl | ⟨e, rfl⟩
    · rwa [storeKeyWait_links]
    · rw [pushBack_links, storeKeyWait_links]
      exact hct.pushBack _ _
  · rcases joinKey_eq hv with rfl | ⟨e, rfl⟩
    · rwa [storeKeyWait_links]
    · rw [pushBack_links, storeKeyWait_links]
      exact Links.pushBack_next_of_next_eq hct hst (by simp) (by simp)

/-- The call files no waiter as it should, whether the lock is contended or not, whether
or not a fiber already waits on the key, and whatever the deadline is. -/
theorem waitKeyImpl_not_filed {s : UserScheduler} {current : FiberId}
    {lockAddress cvKey : Address} {entries waiters : List FiberId}
    (h : s.OwnsLock current lockAddress cvKey entries waiters) (fuel : ℕ) (tag : BitVec 32)
    (deadline : BitVec 64) :
    ¬ ∃ exit s', s.waitKeyImpl fuel current lockAddress cvKey tag deadline = .ok (exit, s') ∧
      KeyWaitFiled s s' current lockAddress cvKey entries waiters := by
  rintro ⟨exit, s', hs', hfiled⟩
  rcases waitKeyImpl_linked_eq h.coherent h.schedulerNode h.waitNode hs' with rfl | hlinked
  · have hstate := hfiled.state
    rw [h.running] at hstate
    cases hstate
  · exact hfiled.linked_ne hlinked

/-- The main fiber runs and has taken the lock at address 16 without contention. -/
def mainOwner : UserScheduler :=
  (staticInstance fun address => if address = 16 then 0x80ff else 0).modifyFiber 0 fun r => { r with
    priority := 2
    coreMask := 1
    ukernFiberHandle := 0x80ff
    activityLevel := activityLevelSchedulable
    fiberState := .running }

theorem mainOwner_ownsLock : mainOwner.OwnsLock 0 16 32 [] [] where
  coherent := Links.detached_coherent
  entryRing := Links.ring_nil.mpr rfl
  waiterRing := Links.ring_nil.mpr rfl
  running := rfl
  schedulerNode := rfl
  waitNode := rfl
  lockAddress_ne := by decide
  cvKey_ne := by decide
  owner := by decide

theorem waitKeyImpl_not_filed_mainOwner : mainOwner.OwnsLock 0 16 32 [] [] ∧
    ¬ ∃ exit s', mainOwner.waitKeyImpl 3 0 16 32 0x80ff 5 = .ok (exit, s') ∧
      KeyWaitFiled mainOwner s' 0 16 32 [] [] :=
  ⟨mainOwner_ownsLock, waitKeyImpl_not_filed mainOwner_ownsLock 3 0x80ff 5⟩

/-- On an uncontended lock the call returns at once: the lock is kept, nobody waits. -/
theorem waitKeyImpl_requiresLock_mainOwner : ∃ s',
    mainOwner.waitKeyImpl 3 0 16 32 0x80ff 5 = .ok (.returns resultRequiresLock, s') ∧
      s'.words 16 = 0x80ff ∧ (s'.fibers 0).fiberState = .running ∧
      ¬ KeyWaitFiled mainOwner s' 0 16 32 [] [] := by
  refine ⟨mainOwner, rfl, by decide, rfl, ?_⟩
  intro hfiled
  cases hfiled.state

end DDFramework.UserScheduler
