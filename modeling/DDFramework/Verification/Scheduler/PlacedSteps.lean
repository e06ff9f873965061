import DDFramework.Verification.Scheduler.Places

/-! # The scheduler's steps keep every fiber in one place -/

namespace DDFramework.SchedulerSystem

open UserScheduler

variable {c c' : SchedulerSystem} {f : FiberId} {core : ℕ}

namespace Placed

/-! ### The setters -/

/-- A new record that names the same place leaves the lists alone. -/
theorem modify_inPlace (h : Placed c) (hf : f ∈ c.live) {r : FiberLocalStorage}
    (hlist : recordList r = recordList (c.scheduler.fibers f)) (hr : SettledRecord r)
    (hstate : r.fiberState = (c.scheduler.fibers f).fiberState)
    (hcore : r.currentCore = (c.scheduler.fibers f).currentCore)
    (hhandle : r.ukernFiberHandle = (c.scheduler.fibers f).ukernFiberHandle) :
    Placed { c with scheduler := c.scheduler.modifyFiber f fun _ => r } := by
  refine h.setRecord hf rfl rfl ?_ hr hhandle ?_ rfl rfl h.first
  · rw [hlist, ← listOf_of_live hf, Function.update_eq_self]
    exact h.filed
  · exact h.running_setRecord (by rw [hstate]) hcore

/-- A fiber that does not run is unlinked and filed again with its new record. -/
theorem modify_reschedule (h : Placed c) (hf : f ∈ c.live) {r : FiberLocalStorage}
    (hold : (c.scheduler.fibers f).fiberState ≠ .running)
    (hpriority : (runListOf r.priority).isSome) (hwait : r.waitableObject = none)
    (hcore : r.currentCore = (c.scheduler.fibers f).currentCore)
    (hhandle : r.ukernFiberHandle = (c.scheduler.fibers f).ukernFiberHandle) :
    Placed { c with scheduler := (c.scheduler.modifyFiber f fun _ => r).reschedule f } := by
  have hfibers : ((c.scheduler.modifyFiber f fun _ => r).reschedule f).fibers =
      Function.update c.scheduler.fibers f (homedRecord r) := by
    simp [reschedule, addToSchedulerUnsafe_fibers, homedRecord]
  have hlinks : ((c.scheduler.modifyFiber f fun _ => r).reschedule f).links =
      pushHome (c.scheduler.links.unlink (.schedulerListNode f)) (homeList r)
        (.schedulerListNode f) := by
    simp [reschedule, addToSchedulerUnsafe_links]
  refine h.setRecord hf rfl hfibers ?_ ?_ hhandle ?_ ?_ ?_ h.first
  · rw [recordList_homedRecord, hlinks]
    exact h.filed.move f fun list => homeList_isSchedulerList
  · exact SettledRecord.homed hpriority hwait
  · exact h.running_setRecord (by simp [homedRecord_ne_running, hold]) hcore
  · simp [reschedule]
  · simp [reschedule]

theorem setPriorityImpl (h : Placed c) (hf : f ∈ c.live) {handle : UKernHandle} {priority : ℤ}
    {result : Result} {s : UserScheduler}
    (hget : c.scheduler.getFiberByHandle handle = .ok (some f))
    (hpriority : (-2 ≤ priority ∧ priority ≤ 2) ∨ (runListOf priority).isSome)
    (hcall : c.scheduler.setPriorityImpl handle priority = .ok (result, s)) :
    Placed { c with scheduler := s } := by
  have hr := h.settled f hf
  rcases setPriorityImpl_cases hget hcall with
    ⟨-, rfl⟩ | ⟨⟨haccepted, -⟩, ⟨hscheduled, rfl⟩ | ⟨hstate, rfl⟩⟩
  · exact h
  · exact h.modify_reschedule hf (by simp [hscheduled]) (hpriority.resolve_left haccepted)
      (h.noWait f) rfl rfl
  · exact h.modify_inPlace hf (recordList_congr rfl hstate)
      ⟨hpriority.resolve_left haccepted, hr.noWait, hr.state⟩ rfl rfl rfl

theorem setCoreMaskImpl (h : Placed c) (hf : f ∈ c.live) {handle : UKernHandle}
    {coreMask : BitVec 64} {result : Result} {s : UserScheduler}
    (hget : c.scheduler.getFiberByHandle handle = .ok (some f))
    (hcall : c.scheduler.setCoreMaskImpl handle coreMask = .ok (result, s)) :
    Placed { c with scheduler := s } := by
  have hr := h.settled f hf
  rcases setCoreMaskImpl_cases hget hcall with ⟨-, rfl⟩ | ⟨-, ⟨hscheduled, rfl⟩ | ⟨-, rfl⟩⟩
  · exact h
  · exact h.modify_reschedule hf (by simp [hscheduled]) hr.priority (h.noWait f) rfl rfl
  · exact h.modify_inPlace hf rfl ⟨hr.priority, hr.noWait, hr.state⟩ rfl rfl rfl

theorem setActivityImpl (h : Placed c) (hf : f ∈ c.live) {handle : UKernHandle}
    {activityLevel : BitVec 16} {result : Result} {s : UserScheduler}
    (hget : c.scheduler.getFiberByHandle handle = .ok (some f))
    (hcall : c.scheduler.setActivityImpl handle activityLevel = .ok (result, s)) :
    Placed { c with scheduler := s } := by
  have hr := h.settled f hf
  rcases setActivityImpl_cases hget hcall with ⟨-, rfl⟩ | ⟨-, ⟨hlisted, rfl⟩ | ⟨hlisted, rfl⟩⟩
  · exact h
  · refine h.modify_reschedule hf ?_ hr.priority (h.noWait f) rfl rfl
    rcases hlisted with hs | hs <;> simp [hs]
  · have hrunning : (c.scheduler.fibers f).fiberState = .running := by
      rcases hr.state with hs | ⟨hs, -⟩ | ⟨hs, -⟩
      · exact hs
      · exact (hlisted (Or.inl hs)).elim
      · exact (hlisted (Or.inr hs)).elim
    exact h.modify_inPlace hf (recordList_congr rfl (by simp [hrunning]))
      ⟨hr.priority, h.noWait f, Or.inl hrunning⟩ rfl rfl rfl

/-! ### Switches to the scheduler fiber -/

/-- Once the fiber on a core has stopped, nobody runs there. -/
theorem running_stop (h : Placed c) (hrun : c.contexts core = .running f)
    {fibers : FiberId → FiberLocalStorage} {live : Finset FiberId}
    (hself : ¬ RecordedOn fibers live core f)
    (hother : ∀ k g, g ≠ f ∨ k ≠ core →
      (RecordedOn fibers live k g ↔ RecordedOn c.scheduler.fibers c.live k g))
    {context : CoreContext} (hcontext : ∀ g, context ≠ .running g) (k : ℕ) (g : FiberId) :
    Function.update c.contexts core context k = .running g ↔ RecordedOn fibers live k g := by
  by_cases hk : k = core
  · subst k
    rw [Function.update_self]
    refine ⟨fun he => (hcontext g he).elim, fun hg => ?_⟩
    by_cases hgf : g = f
    · exact (hself (hgf ▸ hg)).elim
    · have hon := (h.running core g).mpr ((hother core g (Or.inl hgf)).mp hg)
      rw [hrun, CoreContext.running.injEq] at hon
      exact (hgf hon.symm).elim
  · rw [Function.update_of_ne hk, h.running, hother k g (Or.inr hk)]

theorem switchToScheduler_eq_ok (hcall : c.switchToScheduler f = .ok c') :
    (c.scheduler.fibers f).currentCore < c.scheduler.coreCount ∧
    ∃ s, (if (c.scheduler.fibers f).currentCore = 0 ∧ c.mainEntered = false then
        .ok (c.scheduler.addToSchedulerUnsafe c.mainFiber)
      else c.scheduler.handlePreviousFiber f (c.scheduler.fibers f).currentCore) = .ok s ∧
    c' = { c with
      scheduler := s
      contexts := Function.update c.contexts (c.scheduler.fibers f).currentCore .scheduling
      lockOwner := some (c.scheduler.fibers f).currentCore
      mainEntered := c.mainEntered || decide ((c.scheduler.fibers f).currentCore = 0) } := by
  dsimp only [SchedulerSystem.switchToScheduler] at hcall
  split at hcall
  · rename_i hcore
    obtain ⟨s, hs, he⟩ := bind_eq_ok_iff.mp hcall
    cases he
    exact ⟨hcore, s, hs, rfl⟩
  · cases hcall

theorem first_stop (h : Placed c) (hentered : (c.mainEntered || decide (core = 0)) = false) :
    Function.update c.contexts core .scheduling 0 = .running c.mainFiber := by
  rw [Bool.or_eq_false_iff, decide_eq_false_iff_not] at hentered
  rw [Function.update_of_ne (Ne.symm hentered.2), h.first hentered.1]

/-- A fiber that stays alive goes back to a list, whichever function the scheduler fiber
is in. -/
theorem switchToScheduler_eq (h : Placed c) (hrun : c.contexts core = .running f)
    (hcall : c.switchToScheduler f = .ok c') :
    c' = { c with
      scheduler := c.scheduler.addToSchedulerUnsafe f
      contexts := Function.update c.contexts core .scheduling
      lockOwner := some core
      mainEntered := c.mainEntered || decide (core = 0) } := by
  obtain ⟨hf, hstate, rfl⟩ := (h.running core f).mp hrun
  obtain ⟨-, s, hs, rfl⟩ := switchToScheduler_eq_ok hcall
  have hadd : s = c.scheduler.addToSchedulerUnsafe f := by
    split_ifs at hs with hmain
    · have hfirst := h.first hmain.2
      rw [← hmain.1, hrun, CoreContext.running.injEq] at hfirst
      cases hs
      rw [hfirst]
    · simp only [handlePreviousFiber, ne_eq, not_true_eq_false, if_false, hstate,
        Except.ok.injEq] at hs
      exact hs.symm
  rw [hadd]

theorem switchToScheduler (h : Placed c) (hrun : c.contexts core = .running f)
    (hcall : c.switchToScheduler f = .ok c') : Placed c' := by
  rw [h.switchToScheduler_eq hrun hcall]
  obtain ⟨hf, hstate, rfl⟩ := (h.running core f).mp hrun
  refine h.setRecord hf rfl (addToSchedulerUnsafe_fibers _ _) ?_
    (SettledRecord.homed (h.settled f hf).priority (h.noWait f)) rfl ?_ (by simp) (by simp)
    h.first_stop
  · have hnone : c.listOf f = none := by rw [listOf_of_live hf, recordList_of_running hstate]
    rw [show recordList { c.scheduler.fibers f with fiberState := homeState (c.scheduler.fibers f) } =
      homeList (c.scheduler.fibers f) from recordList_homedRecord _, addToSchedulerUnsafe_links]
    exact h.filed.pushHome hnone fun list => homeList_isSchedulerList
  · apply h.running_stop hrun _ _ (by simp)
    · rintro ⟨-, hrunning, -⟩
      rw [Function.update_self] at hrunning
      exact homedRecord_ne_running _ hrunning
    · intro k g hne
      by_cases hg : g = f
      · subst g
        have hk : k ≠ (c.scheduler.fibers f).currentCore := by simpa using hne
        simp [RecordedOn, hk.symm]
      · simp [RecordedOn, hg]

/-- The deadline of a running fiber is no part of its place. -/
theorem sleepThreadImpl (h : Placed c) (hrun : c.contexts core = .running f)
    (absoluteTimeout : BitVec 64) :
    Placed { c with scheduler := c.scheduler.sleepThreadImpl f absoluteTimeout } := by
  obtain ⟨hf, -, -⟩ := (h.running core f).mp hrun
  have hr := h.settled f hf
  rw [sleepThreadImpl_eq]
  exact h.modify_inPlace hf rfl ⟨hr.priority, hr.noWait, hr.state⟩ rfl rfl rfl

theorem sleepThread (h : Placed c) (hrun : c.contexts core = .running f)
    {absoluteTimeout : BitVec 64} (hcall : c.sleepThread f absoluteTimeout = .ok c') :
    Placed c' :=
  (h.sleepThreadImpl hrun absoluteTimeout).switchToScheduler hrun hcall

/-- The slot of an exited fiber becomes the first free slot. -/
theorem freeSlots_free {a a' : FixedObjectAllocator maxThreadCount} {live : Finset FiberId}
    {free : List FiberId} (h : FreeSlots a live free) (hf : f ∈ live)
    (hfree : a.free f = .ok a') : FreeSlots a' (live.erase f) (f :: free) := by
  have hnot : f ∉ free := fun hm => h.notLive f hm hf
  unfold FixedObjectAllocator.free at hfree
  split at hfree
  · rename_i hrange
    cases hfree
    refine ⟨⟨rfl, ?_⟩, List.nodup_cons.mpr ⟨hnot, h.nodup⟩, ?_, ?_⟩
    · have hlink : Function.update a.next f a.freeList f = a.freeList := Function.update_self ..
      dsimp only
      rw [hlink]
      apply h.chain.congr
      intro g hg
      have hne : g ≠ f := fun he => hnot (he ▸ hg)
      exact Function.update_of_ne hne ..
    · intro g hg
      rcases List.mem_cons.mp hg with rfl | hg
      · exact Finset.notMem_erase _ _
      · exact fun hm => h.notLive g hg (Finset.mem_of_mem_erase hm)
    · intro g hg
      rcases List.mem_cons.mp hg with rfl | hg
      · exact hrange.2
      · exact h.lt g hg
  · cases hfree

/-- The slot of the exited fiber is freed, and nothing else is released. -/
theorem exitFiber_eq (h : Placed c) (hrun : c.contexts core = .running f)
    (huser : f ≠ c.mainFiber) (hcall : c.exitFiber f = .ok c') :
    ∃ a, c.scheduler.userFiberLocalAllocator.free f = .ok a ∧
      c' = { c with
        scheduler := { c.scheduler.exitFiberImpl f with userFiberLocalAllocator := a }
        contexts := Function.update c.contexts core .scheduling
        lockOwner := some core
        mainEntered := c.mainEntered || decide (core = 0)
        live := c.live.erase f } := by
  obtain ⟨hf, hstate, rfl⟩ := (h.running core f).mp hrun
  obtain ⟨-, s, hs, rfl⟩ := switchToScheduler_eq_ok hcall
  have hcore : ((c.scheduler.exitFiberImpl f).fibers f).currentCore =
      (c.scheduler.fibers f).currentCore := by
    simp [exitFiberImpl]
  simp only [hcore] at hs ⊢
  -- the main fiber is the one that runs on core 0 before the first switch
  have hnotFirst : ¬ ((c.scheduler.fibers f).currentCore = 0 ∧ c.mainEntered = false) := by
    rintro ⟨hzero, hentered⟩
    have hfirst := h.first hentered
    rw [← hzero, hrun, CoreContext.running.injEq] at hfirst
    exact huser hfirst
  rw [if_neg hnotFirst] at hs
  simp only [handlePreviousFiber, exitFiberImpl, modifyFiber_fibers, Function.update_self, ne_eq,
    not_true_eq_false, if_false] at hs
  obtain ⟨a, ha, he⟩ := bind_eq_ok_iff.mp hs
  cases he
  exact ⟨a, ha, rfl⟩

theorem exitFiber (h : Placed c) (hrun : c.contexts core = .running f) (huser : f ≠ c.mainFiber)
    (hcall : c.exitFiber f = .ok c') : Placed c' := by
  obtain ⟨a, ha, rfl⟩ := h.exitFiber_eq hrun huser hcall
  obtain ⟨hf, hstate, rfl⟩ := (h.running core f).mp hrun
  have hfibers : ∀ g, g ≠ f → (c.scheduler.exitFiberImpl f).fibers g = c.scheduler.fibers g := by
    intro g hg
    simp [exitFiberImpl, hg]
  refine ⟨?_, ?_, ?_, ?_, ?_, ?_, ?_, h.first_stop⟩
  · refine (congrArg (Filed c.scheduler.links) ?_).mpr h.filed
    funext g
    by_cases hg : g = f
    · rw [hg, listOf_of_not_live (Finset.notMem_erase _ _), listOf_of_live hf,
        recordList_of_running hstate]
    · simp [listOf, hg, hfibers g hg]
  · intro g hg
    rw [Finset.mem_erase] at hg
    rw [hfibers g hg.1]
    exact h.settled g hg.2
  · intro g
    by_cases hg : g = f
    · rw [hg]
      simpa [exitFiberImpl] using h.noWait f
    · rw [hfibers g hg]
      exact h.noWait g
  · apply h.running_stop hrun _ _ (by simp)
    · simp [RecordedOn]
    · intro k g hne
      by_cases hg : g = f
      · subst g
        have hk : k ≠ (c.scheduler.fibers f).currentCore := by simpa using hne
        simp [RecordedOn, hk.symm]
      · simp [RecordedOn, hg, exitFiberImpl]
  · obtain ⟨free, hfree⟩ := h.slots
    exact ⟨f :: free, freeSlots_free hfree hf ha⟩
  · intro g hg
    exact h.live_lt g (Finset.mem_of_mem_erase hg)
  · obtain ⟨M, hM, hlookup⟩ := h.handles
    refine ⟨M, hM, ?_⟩
    intro g hg
    rw [Finset.mem_erase] at hg
    rw [hfibers g hg.1]
    exact hlookup g hg.2

/-! ### Scheduler passes -/

theorem maxThreadCount_lt_passFuel : maxThreadCount < passFuel := by decide

theorem listed_lt (h : Placed c) (g : FiberId) (hg : c.listOf g ≠ none) : g < maxThreadCount := by
  by_contra hlt
  exact hg (listOf_of_not_live fun hl => hlt (h.live_lt g hl))

/-- The fibers of the run lists, in the order in which a pass tests them. -/
theorem exists_queues (h : Placed c) : ∃ queue : RunList → List FiberId,
    (∀ l, c.scheduler.links.Ring (.runList l) ((queue l).map .schedulerListNode)) ∧
    (∀ l f, f ∈ queue l ↔ c.listOf f = some (.runList l)) ∧
    ∀ core tick, c.scheduler.schedulerPass passFuel core tick =
      match (runListOrder.flatMap queue).find? (c.scheduler.Eligible core tick ·) with
      | some f => (c.scheduler.dispatch f core).map (·, some f)
      | none => c.scheduler.restCore.map (·, none) := by
  choose queue hr hmem using fun l : RunList => h.filed.ring (.runList l) trivial
  refine ⟨queue, hr, hmem, fun core tick => ?_⟩
  exact h.filed.schedulerPass h.noWait c.listOf_ne_waitList h.listed_lt maxThreadCount_lt_passFuel
    hr hmem core tick

theorem mem_runListOrder (l : RunList) : l ∈ runListOrder := by
  cases l <;> simp [runListOrder]

/-- A live fiber that may run is on one of the run lists. -/
theorem mem_queues_of_eligible (h : Placed c) {queue : RunList → List FiberId}
    (hmem : ∀ l f, f ∈ queue l ↔ c.listOf f = some (.runList l)) {tick : BitVec 64}
    (hf : f ∈ c.live) (heligible : c.scheduler.Eligible core tick f) :
    f ∈ runListOrder.flatMap queue := by
  obtain ⟨l, hl⟩ := Option.isSome_iff_exists.mp (h.settled f hf).priority
  refine List.mem_flatMap.mpr ⟨l, mem_runListOrder l, (hmem l f).mpr ?_⟩
  simp [listOf_of_live hf, recordList, heligible.scheduled, hl]

/-- A pass dispatches a live fiber that may run, or there is none and the core rests. -/
theorem schedulerPass_cases (h : Placed c) (core : ℕ) (tick : BitVec 64) :
    (∃ f l, c.listOf f = some (.runList l) ∧ c.scheduler.Eligible core tick f ∧
      c.scheduler.schedulerPass passFuel core tick =
        (c.scheduler.dispatch f core).map (·, some f)) ∨
    (∀ f ∈ c.live, ¬ c.scheduler.Eligible core tick f) ∧
      c.scheduler.schedulerPass passFuel core tick = c.scheduler.restCore.map (·, none) := by
  obtain ⟨queue, -, hmem, hpass⟩ := h.exists_queues
  rw [hpass]
  cases hfind : (runListOrder.flatMap queue).find? (c.scheduler.Eligible core tick ·) with
  | none =>
      refine Or.inr ⟨fun f hf heligible => ?_, rfl⟩
      have hqueued := h.mem_queues_of_eligible hmem hf heligible
      exact List.find?_eq_none.mp hfind f hqueued (by simpa using heligible)
  | some f =>
      obtain ⟨l, -, hl⟩ := List.mem_flatMap.mp (List.mem_of_find?_eq_some hfind)
      exact Or.inl ⟨f, l, (hmem l f).mp hl, by simpa using List.find?_some hfind, rfl⟩

theorem map_pair_eq_ok {x : Except Fault UserScheduler} {s : UserScheduler}
    {o o' : Option FiberId} : x.map (·, o) = .ok (s, o') ↔ x = .ok s ∧ o = o' := by
  cases x with
  | error fault => simp [Except.map]
  | ok t => simp [Except.map]

theorem dispatch_eq_ok {s t : UserScheduler} (hcall : s.dispatch f core = .ok t) :
    t = (s.modifyFiber f fun r => { r with fiberState := .running, currentCore := core }).unlink
      (.schedulerListNode f) := by
  simp only [dispatch] at hcall
  split at hcall
  · cases hcall
    rfl
  · cases hcall

theorem restCore_eq_ok {s t : UserScheduler} (hcall : s.restCore = .ok t) :
    t = { s with activeCores := s.activeCores - 1 } := by
  simp only [restCore] at hcall
  split at hcall
  · cases hcall
  · cases hcall
    rfl

/-- A core that runs nothing may change what it executes, as long as it runs nothing. -/
theorem running_idle (h : Placed c) (hidle : ∀ g, c.contexts core ≠ .running g)
    {context : CoreContext} (hcontext : ∀ g, context ≠ .running g) (k : ℕ) (g : FiberId) :
    Function.update c.contexts core context k = .running g ↔
      RecordedOn c.scheduler.fibers c.live k g := by
  rw [← h.running]
  by_cases hk : k = core
  · rw [hk, Function.update_self]
    exact ⟨fun he => (hcontext g he).elim, fun he => (hidle g he).elim⟩
  · rw [Function.update_of_ne hk]

theorem first_idle (h : Placed c) (hidle : ∀ g, c.contexts core ≠ .running g)
    (hentered : c.mainEntered = false) {context : CoreContext} :
    Function.update c.contexts core context 0 = .running c.mainFiber := by
  have hfirst := h.first hentered
  have hzero : 0 ≠ core := by
    rintro rfl
    exact hidle _ hfirst
  rw [Function.update_of_ne hzero, hfirst]

/-- A pass takes a fiber from a run list to the core, or lets the core rest. -/
theorem pass_eq (h : Placed c) {tick : BitVec 64} (hcall : c.pass core tick = .ok c') :
    (∃ f l, c.listOf f = some (.runList l) ∧ c.scheduler.Eligible core tick f ∧
      c' = { c with
        scheduler := (c.scheduler.modifyFiber f fun r =>
          { r with fiberState := .running, currentCore := core }).unlink (.schedulerListNode f)
        contexts := Function.update c.contexts core (.running f)
        lockOwner := none }) ∨
    (∀ f ∈ c.live, ¬ c.scheduler.Eligible core tick f) ∧
      c' = { c with
        scheduler := { c.scheduler with activeCores := c.scheduler.activeCores - 1 }
        contexts := Function.update c.contexts core .resting
        lockOwner := none } := by
  unfold SchedulerSystem.pass at hcall
  obtain ⟨⟨s, o⟩, hs, hcall⟩ := bind_eq_ok_iff.mp hcall
  rcases h.schedulerPass_cases core tick with ⟨f, l, hl, heligible, he⟩ | ⟨hnobody, he⟩
  · rw [he] at hs
    obtain ⟨hd, rfl⟩ := map_pair_eq_ok.mp hs
    cases hcall
    rw [dispatch_eq_ok hd]
    exact Or.inl ⟨f, l, hl, heligible, rfl⟩
  · rw [he] at hs
    obtain ⟨hd, rfl⟩ := map_pair_eq_ok.mp hs
    cases hcall
    rw [restCore_eq_ok hd]
    exact Or.inr ⟨hnobody, rfl⟩

theorem pass (h : Placed c) (hcontext : c.contexts core = .scheduling) {tick : BitVec 64}
    (hcall : c.pass core tick = .ok c') : Placed c' := by
  have hidle : ∀ g, c.contexts core ≠ .running g := by simp [hcontext]
  rcases h.pass_eq hcall with ⟨f, l, hl, -, rfl⟩ | ⟨-, rfl⟩
  · have hf := live_of_listOf hl
    rw [listOf_of_live hf] at hl
    obtain ⟨hstate, hrun⟩ := recordList_eq_runList hl
    refine h.setRecord hf rfl rfl ?_ ⟨(h.settled f hf).priority, h.noWait f, Or.inl rfl⟩ rfl ?_
      rfl rfl (fun hentered => h.first_idle hidle hentered)
    · exact h.filed.unlink f
    · intro k g
      by_cases hg : g = f
      · subst g
        by_cases hk : k = core
        · simp [RecordedOn, hk, hf]
        · have hnot : c.contexts k ≠ .running f := by
            intro hon
            have hrunning := ((h.running k f).mp hon).2.1
            rw [hstate] at hrunning
            cases hrunning
          simp [RecordedOn, hk, Ne.symm hk, hnot]
      · by_cases hk : k = core
        · subst k
          have hnot := (h.running core g).not.mp (hidle g)
          simpa [RecordedOn, hg, Ne.symm hg] using hnot
        · simpa [RecordedOn, hg, hk] using h.running k g
  · exact ⟨h.filed, h.settled, h.noWait, h.running_idle hidle (by simp), h.slots, h.live_lt,
      h.handles, fun hentered => h.first_idle hidle hentered⟩

/-- A core that starts or wakes up takes the lock and enters the scheduler. -/
theorem enterScheduler (h : Placed c) (hidle : ∀ g, c.contexts core ≠ .running g)
    (activeCores : BitVec 32) :
    Placed { c with
      scheduler := { c.scheduler with activeCores := activeCores }
      contexts := Function.update c.contexts core .scheduling
      lockOwner := some core } :=
  ⟨h.filed, h.settled, h.noWait, h.running_idle hidle (by simp), h.slots, h.live_lt, h.handles,
    fun hentered => h.first_idle hidle hentered⟩

end Placed

end DDFramework.SchedulerSystem
