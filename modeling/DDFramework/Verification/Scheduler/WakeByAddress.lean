import DDFramework.Verification.Scheduler.Transfer
import DDFramework.Verification.Scheduler.WakeCalls

/-! # Waking by address

The loop over the children wakes one child for each unit of `count`, in addition to
the entry; when it has unlinked them all it goes on with the list head. -/

namespace DDFramework.UserScheduler

/-- The first `k` fibers of `ws` are on run lists with a success, the others wait as
before, and no other fiber has moved. -/
structure WokeFirst (s s' : UserScheduler) (entries : List FiberId)
    (runs : RunList → List FiberId) (ws : List FiberId) (k : ℕ) : Prop where
  woken : ∀ w ∈ ws.take k, (s'.fibers w).fiberState = .scheduled ∧
    (s'.fibers w).lastResult = resultSuccess ∧ (runListOf (s.fibers w).priority).isSome
  runRing : ∀ l, s'.links.Ring (.runList l)
    ((runs l ++ (ws.take k).filter fun w => runListOf (s.fibers w).priority = some l).map
      .schedulerListNode)
  waiting : ∀ w ∈ ws.drop k, s'.fibers w = s.fibers w
  entryRing : s'.links.Ring .schedulerWaitList
    ((entries.filter (· ∉ ws) ++ (ws.drop k).take 1).map .schedulerListNode)
  childRing : ∀ w rest, ws.drop k = w :: rest → ∃ list : List FiberId,
    s'.links.Ring (.fiberWaitList w) (list.map .waitListNode) ∧ list.filter (· ∈ ws) = rest
  others : ∀ f ∉ ws, s'.fibers f = s.fibers f
  otherRing : ∀ list xs, (list = .suspendedList ∨ ∃ f ∉ ws, list = .fiberWaitList f) →
    s.links.Ring list xs → s'.links.Ring list xs

/-! ### The children -/

theorem toNat_succ_of_lt {n : BitVec 32} (h : n.toNat + 1 < 2 ^ 32) :
    (n + 1).toNat = n.toNat + 1 :=
  BitVec.toNat_add_of_lt h

theorem wakeStep_waitListNode {count : BitVec 32} {y : FiberId} {p p' : UserScheduler × BitVec 32}
    (h : wakeStep count (.waitListNode y) p = .ok (.next p')) :
    ¬ count < p.2 ∧
      p' = ((p.1.endFiberWaitImpl y resultSuccess).unlink (.waitListNode y), p.2 + 1) := by
  unfold wakeStep at h
  split at h
  · cases h
  · rename_i hcount
    simp only [waitNodeParent, ok_bind] at h
    obtain ⟨t, ht, h⟩ := bind_eq_ok_iff.mp h
    obtain ⟨-, rfl⟩ := endWait_eq_ok ht
    simp only [Except.ok.injEq, LoopExit.next.injEq] at h
    exact ⟨hcount, h.symm⟩

/-- The loop does not break at a child before `count` is reached. -/
theorem wakeStep_ne_stop {count : BitVec 32} {y : FiberId} {p : UserScheduler × BitVec 32}
    (hle : ¬ count < p.2) (q : UserScheduler × BitVec 32) :
    wakeStep count (.waitListNode y) p ≠ .ok (.stop q) := by
  intro h
  simp only [wakeStep, if_neg hle, waitNodeParent, ok_bind] at h
  obtain ⟨t, -, h⟩ := bind_eq_ok_iff.mp h
  cases h

theorem ChildrenLeft.wakeStep {w : FiberId} {count : BitVec 32} {x : Node} {xs : List Node}
    {p p' : UserScheduler × BitVec 32} (h : ChildrenLeft w (x :: xs) p)
    (hstep : wakeStep count x p = .ok (.next p')) : ChildrenLeft w xs p' := by
  obtain ⟨y, rfl⟩ := h.nodes x (by simp)
  obtain ⟨-, rfl⟩ := wakeStep_waitListNode hstep
  have hc := endFiberWaitImpl_coherent h.coherent y resultSuccess
  have hring := endFiberWaitImpl_childRing (f := y) h.coherent h.ring h.nodes resultSuccess
  exact ⟨hc.unlink _, hring.unlink_front hc, fun z hz => h.nodes z (by simp [hz])⟩

/-- A fiber that no longer waits is not put back to wait. -/
theorem wakeStep_awake {count : BitVec 32} (f : FiberId) (x : Node)
    (p p' : UserScheduler × BitVec 32) (h : (p.1.fibers f).fiberState ≠ .waiting)
    (hstep : wakeStep count x p = .ok (.next p') ∨ wakeStep count x p = .ok (.stop p')) :
    (p'.1.fibers f).fiberState ≠ .waiting := by
  rcases (KeptOrEnded.refl p.1).wakeStep hstep f with he | he
  · rwa [he]
  · rw [he]
    exact homeState_ne_waiting _

/-- As long as `i` has not passed `count`, each visited child is woken. -/
theorem visit_wakeStep_awake {count : BitVec 32} {ys : List FiberId} {n : ℕ} {stop list : Node}
    {p p' : UserScheduler × BitVec 32} (hbound : p.2.toNat + ys.length < 2 ^ 32)
    (h : visit (wakeStep count) (ys.map .waitListNode)
      (rangeLoop (fun p : UserScheduler × BitVec 32 => p.1.links) (wakeStep count) stop n list) p =
        .ok p') {j : ℕ} (hj : j < ys.length) (hcount : p.2.toNat + j ≤ count.toNat) :
    (p'.1.fibers ys[j]).fiberState ≠ .waiting := by
  induction ys generalizing p j with
  | nil => simp at hj
  | cons y ys ih =>
      simp only [List.length_cons] at hbound
      have hle : ¬ count < p.2 := by
        rw [BitVec.lt_def]
        omega
      cases hstep : wakeStep count (.waitListNode y) p with
      | error fault =>
          rw [List.map_cons, visit_error hstep] at h
          cases h
      | ok exit =>
          cases exit with
          | stop q => exact (wakeStep_ne_stop hle q hstep).elim
          | next q =>
              rw [List.map_cons, visit_next hstep] at h
              obtain ⟨-, rfl⟩ := wakeStep_waitListNode hstep
              cases j with
              | zero =>
                  apply visit_preserves (P := fun q => (q.1.fibers y).fiberState ≠ .waiting)
                    (wakeStep_awake y) _ _ h
                  · exact fun t ht => rangeLoop_preserves (wakeStep_awake y) ht
                  · simp only [unlink_fibers, endFiberWaitImpl_fibers_self]
                    exact homeState_ne_waiting _
              | succ j =>
                  have hnext := toNat_succ_of_lt (n := p.2) (by omega)
                  simp only [List.length_cons] at hj
                  apply ih _ h (by omega)
                  · rw [hnext]
                    omega
                  · rw [hnext]
                    omega

/-- If `count` is not reached among the children, the list head is taken for a fiber. -/
theorem visit_wakeStep_fails {w : FiberId} {count : BitVec 32} {ys : List FiberId} {n : ℕ}
    {stop : Node} (hstop : .fiberWaitList w ≠ stop) {p : UserScheduler × BitVec 32}
    (hleft : ChildrenLeft w (ys.map .waitListNode) p)
    (hcount : p.2.toNat + ys.length ≤ count.toNat) (p' : UserScheduler × BitVec 32) :
    visit (wakeStep count) (ys.map .waitListNode)
      (rangeLoop (fun p : UserScheduler × BitVec 32 => p.1.links) (wakeStep count) stop (n + 1)
        (.fiberWaitList w)) p ≠ .ok p' := by
  have hlt := count.isLt
  induction ys generalizing p with
  | nil =>
      have hprev : p.1.links.prev (.fiberWaitList w) = .fiberWaitList w :=
        hleft.coherent.next_eq_iff.mp (Links.ring_nil.mp hleft.ring)
      have hle : ¬ count < p.2 := by
        rw [BitVec.lt_def]
        simp only [List.length_nil] at hcount
        omega
      have hfault : wakeStep count (p.1.links.prev (.fiberWaitList w)) p =
          .error .sentinelDereference := by
        rw [hprev, wakeStep, if_neg hle]
        rfl
      rw [List.map_nil, visit_nil, rangeLoop_error hstop hfault]
      simp
  | cons y ys ih =>
      simp only [List.length_cons] at hcount
      have hle : ¬ count < p.2 := by
        rw [BitVec.lt_def]
        omega
      cases hstep : wakeStep count (.waitListNode y) p with
      | error fault =>
          rw [List.map_cons, visit_error hstep]
          simp
      | ok exit =>
          cases exit with
          | stop q => exact (wakeStep_ne_stop hle q hstep).elim
          | next q =>
              have hq := hleft.wakeStep hstep
              obtain ⟨-, rfl⟩ := wakeStep_waitListNode hstep
              have hnext := toNat_succ_of_lt (n := p.2) (by omega)
              rw [List.map_cons, visit_next hstep]
              apply ih hq
              rw [hnext]
              omega

/-! ### The release of the entry and its children -/

/-- Without children the release only ends the wait of the entry. -/
theorem releaseWaiters_of_empty {s : UserScheduler} {w : FiberId} {count : BitVec 32} {n : ℕ}
    (hc : s.links.Coherent) (hobject : (s.fibers w).waitableObject ≠ none)
    (hr : s.links.Ring (.fiberWaitList w) []) :
    s.releaseWaiters (n + 1) (some w) count = .ok (s.endFiberWaitImpl w resultSuccess) := by
  have hempty : (s.endFiberWaitImpl w resultSuccess).links.next (.fiberWaitList w) =
      .fiberWaitList w :=
    Links.ring_nil.mp (endFiberWaitImpl_childRing hc hr (by simp) resultSuccess)
  have hloop : rangeFor (fun p : UserScheduler × BitVec 32 => p.1.links) (.fiberWaitList w)
      (wakeStep count) (n + 1) (s.endFiberWaitImpl w resultSuccess, 1) =
        .ok (s.endFiberWaitImpl w resultSuccess, 1) := rangeFor_nil hempty
  simp only [releaseWaiters, endWait_of_isSome hobject, ok_bind, wakeChildren, hloop]
  exact promoteWaiter_of_empty hempty

/-- With fibers on the `wait_list` the release fails, or it wakes `count` of them. -/
theorem releaseWaiters_of_children {s s' : UserScheduler} {w : FiberId} {rest : List FiberId}
    {count : BitVec 32} {fuel : ℕ} (hc : s.links.Coherent)
    (hr : s.links.Ring (.fiberWaitList w) (rest.map .waitListNode)) (hrest : rest ≠ [])
    (hlength : rest.length ≤ maxThreadCount) (hcount : count ≠ 0)
    (hfuel : rest.length + 1 < fuel)
    (h : s.releaseWaiters fuel (some w) count = .ok s') :
    count.toNat ≤ rest.length ∧
      ∀ c ∈ rest.take count.toNat, (s'.fibers c).fiberState ≠ .waiting := by
  obtain ⟨k, hk⟩ := Nat.exists_eq_add_one_of_ne_zero (toNat_ne_zero hcount)
  obtain ⟨y, ys, rfl⟩ := List.exists_cons_of_ne_nil hrest
  obtain ⟨p, hp, h⟩ := releaseWaiters_eq_ok h
  have hleft : ChildrenLeft w ((y :: ys).map .waitListNode)
      (s.endFiberWaitImpl w resultSuccess, 1) := by
    refine ⟨endFiberWaitImpl_coherent hc _ _, endFiberWaitImpl_childRing hc hr ?_ _, ?_⟩ <;> simp
  simp only [List.length_cons] at hfuel hlength
  obtain ⟨n, rfl⟩ : ∃ n, fuel = n + 1 + ys.length + 1 := ⟨fuel - ys.length - 2, by omega⟩
  have hloop : rangeFor (fun p : UserScheduler × BitVec 32 => p.1.links) (.fiberWaitList w)
      (wakeStep count) (n + 1 + (ys.map Node.waitListNode).length + 1)
        (s.endFiberWaitImpl w resultSuccess, 1) = _ :=
    rangeFor_unlinking (ChildrenLeft w) (fun _ _ h => h.coherent) (fun _ _ h => h.ring)
      (fun _ _ _ _ h hs => h.wakeStep hs) hleft
  rw [List.length_map] at hloop
  rw [hloop, ← List.map_cons] at hp
  by_cases hlt : k < (y :: ys).length
  · refine ⟨by omega, fun c hc => ?_⟩
    obtain ⟨j, hj, rfl⟩ := List.mem_take_iff_getElem.mp hc
    apply promoteWaiter_preserves (P := fun u => (u.fibers (y :: ys)[j]).fiberState ≠ .waiting)
      (fun _ _ hs => hs) _ h
    apply visit_wakeStep_awake _ hp
    · simp
      omega
    · simp only [maxThreadCount] at hlength
      simp
      omega
  · simp only [List.length_cons] at hlt
    exact (visit_wakeStep_fails (by simp) hleft (by simp; omega) p hp).elim

/-! ### The three calls -/

theorem countWaiters_returns {s : UserScheduler} {f : FiberId} {xs : List Node} {fuel : ℕ}
    (hc : s.links.Coherent) (hr : s.links.Ring (.fiberWaitList f) xs) (hfuel : xs.length < fuel) :
    ∃ waiters, s.countWaiters fuel f = .ok waiters := by
  have hnext : ∀ x p, ∃ p', countStep x p = .ok (.next p') := fun _ _ => ⟨_, rfl⟩
  obtain ⟨p, hp⟩ := visit_returns hnext xs (s, 1)
  have hloop : rangeFor (fun p : UserScheduler × BitVec 32 => p.1.links) (.fiberWaitList f)
      countStep fuel (s, 1) = .ok p := by
    rw [← hp]
    refine rangeFor_eq_visit (fun _ => True) hc hr hfuel ?_ trivial
    intro x _ p p' _ hbody
    cases hbody
    exact ⟨rfl, trivial⟩
  exact ⟨p.2, by rw [countWaiters, hloop]; rfl⟩

/-- Without waiters only `WakeByAddressImpl` returns. -/
theorem WakeCall.run_of_nil {call : WakeCall} {s : UserScheduler} {entries : List FiberId}
    {lists : FiberId → List FiberId} (hq : s.WaitLists entries lists)
    (hws : s.WaitersOn entries lists call.address []) (haddress : call.address ≠ 0)
    (hcount : call.count ≠ 0) (htest : call.TestPasses s) (fuel : ℕ)
    (hfuel : entries.length < fuel) :
    call.run fuel s = match call with
      | wakeByAddress _ _ => .ok (resultNoWaiters, s)
      | _ => .error .nullDereference := by
  cases call with
  | wakeByAddress address count =>
      have hfound := hws.findWaiter_eq hq rfl rfl hfuel
      simp only [WakeCall.address, WakeCall.count] at haddress hcount hfound
      simp only [WakeCall.run, wakeByAddressImpl, if_neg haddress, if_neg hcount, hfound, ok_bind]
      rfl
  | incrementEqual address value count =>
      have hfound := hws.findWaiter_eq (t := { s with
        words := Function.update s.words address (value + 1) }) hq rfl rfl hfuel
      simp only [WakeCall.address, TestPasses] at haddress htest hfound
      simp only [WakeCall.run, wakeByAddressIncrementEqualImpl, if_neg haddress,
        if_neg (not_not.mpr htest), writeWord, hfound, ok_bind]
      rfl
  | modifyLessThan address value count =>
      have hfound := hws.findWaiter_eq hq rfl rfl hfuel
      simp only [WakeCall.address, TestPasses] at haddress htest hfound
      simp only [WakeCall.run, wakeByAddressModifyLessThanImpl, if_neg haddress,
        if_neg (not_not.mpr htest), hfound, ok_bind, writeWord]
      rfl

/-- With waiters the calls differ only in what they write to the word. -/
theorem WakeCall.run_of_cons {call : WakeCall} {s : UserScheduler} {entries : List FiberId}
    {lists : FiberId → List FiberId} {w : FiberId} {rest : List FiberId}
    (hq : s.WaitLists entries lists)
    (hws : s.WaitersOn entries lists call.address (w :: rest)) (haddress : call.address ≠ 0)
    (hcount : call.count ≠ 0) (htest : call.TestPasses s) (fuel : ℕ)
    (hfuel : entries.length < fuel) (hfuel' : (lists w).length < fuel) :
    ∃ t : UserScheduler, t.fibers = s.fibers ∧ t.links = s.links ∧
      call.run fuel s =
        (t.releaseWaiters fuel (some w) call.count >>= fun s' => .ok (resultSuccess, s')) := by
  have hw := (hws.entry w rest rfl).1
  cases call with
  | wakeByAddress address count =>
      have hfound := hws.findWaiter_eq hq rfl rfl hfuel
      simp only [WakeCall.address, WakeCall.count] at haddress hcount hfound
      refine ⟨s, rfl, rfl, ?_⟩
      simp only [WakeCall.run, wakeByAddressImpl, if_neg haddress, if_neg hcount, hfound, ok_bind]
      rfl
  | incrementEqual address value count =>
      have hfound := hws.findWaiter_eq (t := { s with
        words := Function.update s.words address (value + 1) }) hq rfl rfl hfuel
      simp only [WakeCall.address, TestPasses] at haddress htest hfound
      refine ⟨{ s with words := Function.update s.words address (value + 1) }, rfl, rfl, ?_⟩
      simp only [WakeCall.run, wakeByAddressIncrementEqualImpl, if_neg haddress,
        if_neg (not_not.mpr htest), writeWord, hfound, ok_bind]
      rfl
  | modifyLessThan address value count =>
      have hfound := hws.findWaiter_eq hq rfl rfl hfuel
      simp only [WakeCall.address, TestPasses] at haddress htest hfound
      obtain ⟨waiters, hwaiters⟩ := countWaiters_returns hq.coherent (hq.listRing w hw)
        (by simpa using hfuel')
      obtain ⟨signal, hsignal⟩ : ∃ signal, s.signalValue fuel (some w) count = .ok signal := by
        simp only [signalValue]
        split
        · exact ⟨_, by rw [hwaiters]; rfl⟩
        · exact ⟨_, rfl⟩
      by_cases hzero : signal = 0
      · refine ⟨s, rfl, rfl, ?_⟩
        simp only [WakeCall.run, wakeByAddressModifyLessThanImpl, if_neg haddress,
          if_neg (not_not.mpr htest), hfound, ok_bind, List.head?_cons, hsignal,
          if_neg (not_not.mpr hzero)]
        rfl
      · refine ⟨{ s with words := Function.update s.words address (value + signal) }, rfl, rfl, ?_⟩
        simp only [WakeCall.run, wakeByAddressModifyLessThanImpl, if_neg haddress,
          if_neg (not_not.mpr htest), hfound, ok_bind, List.head?_cons, hsignal, if_pos hzero,
          writeWord]
        rfl

/-! ### One waiter -/

theorem homeList_of_runnable {r : FiberLocalStorage} {l : RunList}
    (hactivity : r.activityLevel ≠ activityLevelSuspended) (hl : runListOf r.priority = some l) :
    homeList r = some (.runList l) := by
  simp [homeList, hactivity, hl]

theorem filter_notMem_singleton {entries : List FiberId} (hn : entries.Nodup) (w : FiberId) :
    entries.filter (· ∉ [w]) = entries.erase w := by
  rw [hn.erase_eq_filter]
  apply List.filter_congr
  intro x _
  by_cases hx : x = w <;> simp [hx]

/-- Ending the wait of an entry that is to run is all that waking one fiber means. -/
theorem WaitLists.wokeFirst_endFiberWaitImpl {s t : UserScheduler} {entries : List FiberId}
    {lists : FiberId → List FiberId} {runs : RunList → List FiberId} {w : FiberId}
    (hq : s.WaitLists entries lists)
    (hruns : ∀ l, s.links.Ring (.runList l) ((runs l).map .schedulerListNode))
    (hw : w ∈ entries) (hfibers : t.fibers = s.fibers) (hlinks : t.links = s.links)
    (hactivity : (s.fibers w).activityLevel ≠ activityLevelSuspended)
    (hpriority : (runListOf (s.fibers w).priority).isSome) :
    WokeFirst s (t.endFiberWaitImpl w resultSuccess) entries runs [w] 1 := by
  obtain ⟨l₀, hl₀⟩ := Option.isSome_iff_exists.mp hpriority
  have hhome : homeList (t.fibers w) = some (.runList l₀) := by
    rw [hfibers]
    exact homeList_of_runnable hactivity hl₀
  have hc : t.links.Coherent := hlinks ▸ hq.coherent
  have hnodup := hq.nodup_entries
  -- the entry is in no list with another head
  have hnode : ∀ {list xs}, s.links.Ring list xs →
      list ∉ Node.schedulerWaitList :: entries.map .schedulerListNode →
        .schedulerListNode w ∉ list :: xs := by
    intro list xs hr hne hm
    exact hq.entryRing.disjoint hq.coherent hr hne
      (List.mem_cons_of_mem _ (List.mem_map_of_mem hw)) hm
  have hkeep : ∀ {list xs}, s.links.Ring list xs →
      list ∉ Node.schedulerWaitList :: entries.map .schedulerListNode →
      list ∉ Node.runList l₀ :: (runs l₀).map .schedulerListNode →
        (t.endFiberWaitImpl w resultSuccess).links.Ring list xs := by
    intro list xs hr hne hne'
    apply endFiberWaitImpl_ring_of_notMem hc (hlinks ▸ hr) (hnode hr hne)
    intro home hh hm
    rw [hhome] at hh
    cases hh
    exact (hruns l₀).disjoint hq.coherent hr hne' (by simp) hm
  refine ⟨?_, ?_, ?_, ?_, ?_, ?_, ?_⟩
  · intro f hf
    obtain rfl : f = w := by simpa using hf
    rw [endFiberWaitImpl_fibers_self, hfibers]
    exact ⟨by simp [endedRecord, homeState, hactivity], rfl, hpriority⟩
  · intro l
    by_cases hl : l = l₀
    · subst l
      have hring := endFiberWaitImpl_ring_home hc (hlinks ▸ hruns l₀) hhome
        (hnode (hruns l₀) (by simp)) resultSuccess
      simpa [hl₀] using hring
    · have hring := hkeep (hruns l) (by simp) (by simp [hl])
      have hfilter : ([w].take 1).filter
          (fun w => runListOf (s.fibers w).priority = some l) = [] := by
        simp [hl₀, Ne.symm hl]
      rw [hfilter, List.append_nil]
      exact hring
  · simp
  · have hring : (t.endFiberWaitImpl w resultSuccess).links.Ring .schedulerWaitList
        ((entries.map .schedulerListNode).erase (.schedulerListNode w)) := by
      apply endFiberWaitImpl_ring hc (hlinks ▸ hq.entryRing) (by simp)
      intro home hh
      rw [hhome] at hh
      cases hh
      simp
    rw [filter_notMem_singleton hnodup]
    simpa [List.map_erase @Node.schedulerListNode.inj] using hring
  · simp
  · intro f hf
    rw [endFiberWaitImpl_fibers_of_ne _ (by simpa using hf), hfibers]
  · rintro list xs (rfl | ⟨f, -, rfl⟩) hr
    · exact hkeep hr (by simp) (by simp)
    · exact hkeep hr (by simp) (by simp)

/-! ### Any number of waiters -/

/-- With fibers on the `wait_list` of the first waiter a call wakes `count` of them beside it. -/
theorem WakeCall.not_wokeFirst_of_list {call : WakeCall} {s : UserScheduler}
    {entries : List FiberId} {lists : FiberId → List FiberId} {runs : RunList → List FiberId}
    {w : FiberId} {rest : List FiberId} (hq : s.WaitLists entries lists)
    (hws : s.WaitersOn entries lists call.address (w :: rest)) (haddress : call.address ≠ 0)
    (hcount : call.count ≠ 0) (htest : call.TestPasses s) (hlist : lists w ≠ []) (fuel : ℕ)
    (hfuel : entries.length < fuel) (hfuel' : (lists w).length + 1 < fuel) :
    ¬ ∃ result s', call.run fuel s = .ok (result, s') ∧
      WokeFirst s s' entries runs (w :: rest) (min call.count.toNat (w :: rest).length) := by
  rintro ⟨result, s', hs', hwoke⟩
  have hw := (hws.entry w rest rfl).1
  obtain ⟨t, hfibers, hlinks, hrun⟩ := WakeCall.run_of_cons hq hws haddress hcount htest fuel
    hfuel (by omega)
  rw [hrun] at hs'
  obtain ⟨u, hu, hs'⟩ := bind_eq_ok_iff.mp hs'
  simp only [Except.ok.injEq, Prod.mk.injEq] at hs'
  obtain ⟨-, rfl⟩ := hs'
  obtain ⟨hle, hawake⟩ := releaseWaiters_of_children (hlinks ▸ hq.coherent)
    (hlinks ▸ hq.listRing w hw) hlist (hq.length_list_le hw) hcount hfuel' hu
  obtain ⟨n, hn⟩ := Nat.exists_eq_add_one_of_ne_zero (toNat_ne_zero hcount)
  -- whoever is woken beside the entry is among the first waiters
  have hsub : (lists w).take call.count.toNat ⊆ rest.take n := by
    intro c hc
    have hmem : c ∈ lists w := List.mem_of_mem_take hc
    have hwaits := hq.state w hw c (List.mem_cons_of_mem w hmem)
    have hne : u.fibers c ≠ s.fibers c := by
      intro heq
      rw [← heq] at hwaits
      exact hawake c hc hwaits
    have hws' : c ∈ w :: rest := not_not.mp fun hnot => hne (hwoke.others c hnot)
    have htake : c ∈ (w :: rest).take (min call.count.toNat (w :: rest).length) := by
      rw [← List.take_append_drop (min call.count.toNat (w :: rest).length) (w :: rest)] at hws'
      exact (List.mem_append.mp hws').resolve_right fun hdrop => hne (hwoke.waiting c hdrop)
    rw [← List.take_eq_take_min, hn, List.take_succ_cons] at htake
    exact (List.mem_cons.mp htake).resolve_left fun heq => hws.entry_notMem (heq ▸ hmem)
  have hnodup := (hq.nodup_list hw).sublist (List.take_sublist call.count.toNat (lists w))
  have hlength := (hnodup.subperm hsub).length_le
  simp only [List.length_take] at hlength
  omega

theorem WakeCall.wokeFirst_singleton_iff {call : WakeCall} {s : UserScheduler}
    {entries : List FiberId} {lists : FiberId → List FiberId} {runs : RunList → List FiberId}
    {w : FiberId} (hq : s.WaitLists entries lists)
    (hruns : ∀ l, s.links.Ring (.runList l) ((runs l).map .schedulerListNode))
    (hws : s.WaitersOn entries lists call.address [w]) (haddress : call.address ≠ 0)
    (hcount : call.count ≠ 0) (htest : call.TestPasses s) (hlist : lists w = []) (fuel : ℕ)
    (hfuel : entries.length < fuel) :
    (∃ result s', call.run fuel s = .ok (result, s') ∧ WokeFirst s s' entries runs [w] 1) ↔
      (s.fibers w).activityLevel ≠ activityLevelSuspended ∧
        (runListOf (s.fibers w).priority).isSome := by
  have hw := (hws.entry w [] rfl).1
  have hring := hq.listRing w hw
  rw [hlist] at hring
  have hobject := hq.object w hw w (by simp)
  obtain ⟨n, rfl⟩ : ∃ n, fuel = n + 1 := ⟨fuel - 1, by omega⟩
  obtain ⟨t, hfibers, hlinks, hrun⟩ := WakeCall.run_of_cons hq hws haddress hcount htest (n + 1)
    hfuel (by simp [hlist])
  rw [hrun, releaseWaiters_of_empty (hlinks ▸ hq.coherent) (by rwa [hfibers]) (hlinks ▸ hring),
    ok_bind]
  constructor
  · rintro ⟨result, s', hs', hwoke⟩
    simp only [Except.ok.injEq, Prod.mk.injEq] at hs'
    obtain ⟨-, rfl⟩ := hs'
    obtain ⟨hstate, -, hpriority⟩ := hwoke.woken w (by simp)
    refine ⟨?_, hpriority⟩
    intro hsuspended
    rw [endFiberWaitImpl_fibers_self, hfibers] at hstate
    simp [endedRecord, homeState, hsuspended] at hstate
  · rintro ⟨hactivity, hpriority⟩
    exact ⟨_, _, rfl, hq.wokeFirst_endFiberWaitImpl hruns hw hfibers hlinks hactivity hpriority⟩

/-- A wake call does its work exactly when none waits and the call is `WakeByAddressImpl`, or when
one fiber waits, none waits for a lock of that fiber, and it is to run. -/
theorem WakeCall.run_wokeFirst_iff {call : WakeCall} {s : UserScheduler} {entries : List FiberId}
    {lists : FiberId → List FiberId} {runs : RunList → List FiberId} {ws : List FiberId}
    (hq : s.WaitLists entries lists)
    (hruns : ∀ l, s.links.Ring (.runList l) ((runs l).map .schedulerListNode))
    (hws : s.WaitersOn entries lists call.address ws) (haddress : call.address ≠ 0)
    (hcount : call.count ≠ 0) (htest : call.TestPasses s) (fuel : ℕ)
    (hfuel : entries.length < fuel) (hfuel' : ∀ e ∈ entries, (lists e).length + 1 < fuel) :
    (∃ result s', call.run fuel s = .ok (result, s') ∧
      WokeFirst s s' entries runs ws (min call.count.toNat ws.length)) ↔
    (ws = [] ∧ ∃ address count, call = .wakeByAddress address count) ∨
      ∃ w, ws = [w] ∧ lists w = [] ∧ (s.fibers w).activityLevel ≠ activityLevelSuspended ∧
        (runListOf (s.fibers w).priority).isSome := by
  cases ws with
  | nil =>
      rw [WakeCall.run_of_nil hq hws haddress hcount htest fuel hfuel]
      cases call with
      | wakeByAddress address count =>
          simp only [true_and, List.length_nil, Nat.min_zero]
          refine ⟨fun _ => Or.inl ⟨_, _, rfl⟩, fun _ => ⟨_, s, rfl, ?_⟩⟩
          refine ⟨by simp, fun l => ?_, by simp, ?_, by simp, fun _ _ => rfl, fun _ _ _ h => h⟩
          · simpa using hruns l
          · simpa using hq.entryRing
      | incrementEqual address value count => simp
      | modifyLessThan address value count => simp
  | cons w rest =>
      by_cases hlist : lists w = []
      · obtain rfl : rest = [] := List.subset_nil.mp (hlist ▸ hws.rest_subset)
        have hmin : min call.count.toNat [w].length = 1 :=
          Nat.min_eq_right (Nat.one_le_iff_ne_zero.mpr (toNat_ne_zero hcount))
        rw [hmin, WakeCall.wokeFirst_singleton_iff hq hruns hws haddress hcount htest hlist fuel
          hfuel]
        simp [hlist]
      · refine iff_of_false (WakeCall.not_wokeFirst_of_list hq hws haddress hcount htest hlist fuel
          hfuel (hfuel' w (hws.entry w rest rfl).1)) ?_
        rintro (⟨hnil, -⟩ | ⟨w', hone, hnil, -⟩)
        · cases hnil
        · cases hone
          exact hlist hnil

theorem mainBlocked_waitLists (deadline : BitVec 64) :
    (mainBlocked deadline).WaitLists [0] (fun _ => []) :=
  (mainBlocked_waitQueues deadline).waitLists (by simp)

theorem mainBlocked_waitersOn (deadline : BitVec 64) :
    (mainBlocked deadline).WaitersOn [0] (fun _ => []) 16 [0] where
  nodup := by simp
  waits := by simp [mainBlocked]
  first := by simp
  entry := by simp

theorem mainBlocked_runRing (deadline : BitVec 64) (l : RunList) :
    (mainBlocked deadline).links.Ring (.runList l) (List.map .schedulerListNode []) :=
  Links.ring_nil.mpr
    (Links.pushBack_next_of_next_eq Links.detached_coherent rfl (by simp) (by simp))

theorem run_wokeFirst_mainBlocked : ∃ result s',
    (WakeCall.wakeByAddress 16 1).run 3 (mainBlocked 5) = .ok (result, s') ∧
      WokeFirst (mainBlocked 5) s' [0] (fun _ => []) [0]
        (min (WakeCall.wakeByAddress 16 1).count.toNat [0].length) := by
  have hws : (mainBlocked 5).WaitersOn [0] (fun _ => []) (WakeCall.wakeByAddress 16 1).address [0] :=
    mainBlocked_waitersOn 5
  refine (WakeCall.run_wokeFirst_iff (mainBlocked_waitLists 5) (mainBlocked_runRing 5) hws
    (by decide) (by decide) trivial 3 (by decide) (by decide)).mpr ?_
  exact Or.inr ⟨0, rfl, rfl, by decide, by decide⟩

/-- Fibers 1 and 2 run. -/
def twoRunning : UserScheduler :=
  let start := fun r : FiberLocalStorage => { r with
    priority := 2
    coreMask := 1
    activityLevel := activityLevelSchedulable
    fiberState := .running }
  ((staticInstance fun _ => 0).modifyFiber 1 start).modifyFiber 2 start

/-- Both fibers block on the address 16, and a wake with the count 1 wakes both. -/
theorem wakeByAddress_wakes_two : ∃ s₁ s₂ s₃ : UserScheduler,
    (WaitCall.ifEqual 16 0 5).run 1 twoRunning 1 = .ok (.switches resultSuccess, s₁) ∧
    (WaitCall.ifEqual 16 0 5).run 2 s₁ 2 = .ok (.switches resultSuccess, s₂) ∧
    (s₂.fibers 1).fiberState = .waiting ∧ (s₂.fibers 2).fiberState = .waiting ∧
    (WakeCall.wakeByAddress 16 1).run 4 s₂ = .ok (resultSuccess, s₃) ∧
    (s₃.fibers 1).fiberState = .scheduled ∧ (s₃.fibers 2).fiberState = .scheduled ∧
    ¬ WokeFirst s₂ s₃ [1] (fun _ => []) [1, 2] 1 := by
  refine ⟨_, _, _, rfl, rfl, rfl, rfl, rfl, rfl, rfl, ?_⟩
  intro hwoke
  have hwaits := congrArg FiberLocalStorage.fiberState (hwoke.waiting 2 (by simp))
  revert hwaits
  decide

end DDFramework.UserScheduler
