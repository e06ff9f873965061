import DDFramework.Verification.Scheduler.PlacedSteps
import DDFramework.Verification.SlotAllocators.Fixed

/-! # Every run keeps every fiber in one place

A creation adds one fiber, to the suspended list. `Initialize` starts with the main fiber on
its core, and each further step keeps what holds there. -/

namespace DDFramework.SchedulerSystem

open UserScheduler

variable {c c' : SchedulerSystem} {f : FiberId}

namespace Placed

/-! ### Creation -/

/-- The new fiber of a creation starts on the suspended list. -/
theorem addFiber (h : Placed c) {allocator : FixedObjectAllocator maxThreadCount}
    {table : HandleTable FiberId} {M : HandleTable.HandleMap FiberId} {handle : UKernHandle}
    {r : FiberLocalStorage} (hf : f ∉ c.live) (hlt : f < maxThreadCount)
    (hslots : ∃ free, FreeSlots allocator (insert f c.live) free)
    (hrun : HandleTable.Run table (M.insert handle f)) (hnew : handle ∉ M)
    (hlookup : ∀ g ∈ c.live, M.lookup (c.scheduler.fibers g).ukernFiberHandle = some g)
    (hr : SettledRecord r) (hhandle : r.ukernFiberHandle = handle)
    (hstate : r.fiberState = .suspended) :
    Placed { c with
      scheduler := { c.scheduler with
          userFiberLocalAllocator := allocator
          handleTable := table
          fibers := Function.update c.scheduler.fibers f r
          links := c.scheduler.links.pushBack .suspendedList (.schedulerListNode f) }
      live := insert f c.live } := by
  have hne : ∀ g ∈ c.live, g ≠ f := fun g hg he => hf (he ▸ hg)
  refine ⟨?_, ?_, ?_, ?_, hslots, ?_, ⟨_, hrun, ?_⟩, h.first⟩
  · have hhome : Node.suspendedList.IsSchedulerList := trivial
    refine (congrArg (Filed _) ?_).mpr (h.filed.pushBack (listOf_of_not_live hf) hhome)
    funext g
    by_cases hg : g = f
    · simp [listOf, hg, recordList, hstate]
    · simp [listOf, hg]
  · intro g hg
    rcases Finset.mem_insert.mp hg with rfl | hg
    · simpa using hr
    · simpa [hne g hg] using h.settled g hg
  · intro g
    by_cases hg : g = f
    · simpa [hg] using hr.noWait
    · simpa [hg] using h.noWait g
  · intro k g
    rw [h.running]
    by_cases hg : g = f
    · simp [RecordedOn, hg, hf, hstate]
    · simp [RecordedOn, hg]
  · intro g hg
    rcases Finset.mem_insert.mp hg with rfl | hg
    · exact hlt
    · exact h.live_lt g hg
  · intro g hg
    rcases Finset.mem_insert.mp hg with rfl | hg
    · change Finmap.lookup (Function.update c.scheduler.fibers g r g).ukernFiberHandle _ = _
      rw [Function.update_self, hhandle, Finmap.lookup_insert]
    · have hg' := hlookup g hg
      have hold : (c.scheduler.fibers g).ukernFiberHandle ≠ handle := by
        intro he
        exact hnew (he ▸ Finmap.mem_iff.mpr ⟨g, hg'⟩)
      change Finmap.lookup (Function.update c.scheduler.fibers f r g).ukernFiberHandle _ = _
      rw [Function.update_of_ne (hne g hg), Finmap.lookup_insert_of_ne _ hold, hg']

/-- A slot that has been allocated and is not used is lost, which harms nobody. -/
theorem loseSlot (h : Placed c) {allocator : FixedObjectAllocator maxThreadCount}
    (hslots : ∃ free, FreeSlots allocator c.live free) :
    Placed { c with
      scheduler := { c.scheduler with userFiberLocalAllocator := allocator } } :=
  ⟨h.filed, h.settled, h.noWait, h.running, hslots, h.live_lt, h.handles, h.first⟩

theorem runListOf_isSome {priority : ℤ} (h : -2 ≤ priority ∧ priority ≤ 2) :
    (runListOf (priority + 2)).isSome := by
  unfold runListOf
  split_ifs
  · rfl
  · rfl
  · rfl
  · rfl
  · rfl
  · omega

/-- The record of a fiber that has just been created. -/
def createdRecord (r : FiberLocalStorage) (handle : UKernHandle) (priority : ℤ) (coreId : ℕ) :
    FiberLocalStorage :=
  { r with
    ukernFiberHandle := handle
    priority := priority + 2
    coreMask := coreBit coreId
    fiberState := .suspended
    activityLevel := activityLevelSuspended }

/-- The slot that was free first belongs to somebody after an allocation. -/
theorem freeSlots_allocate {a : FixedObjectAllocator maxThreadCount} {live : Finset FiberId}
    {free : List FiberId} (h : FreeSlots a live (f :: free)) :
    FreeSlots { a with freeList := a.next f } (insert f live) free := by
  obtain ⟨hnot, hnodup⟩ := List.nodup_cons.mp h.nodup
  refine ⟨h.chain.2, hnodup, ?_, fun g hg => h.lt g (List.mem_cons_of_mem f hg)⟩
  intro g hg hm
  rcases Finset.mem_insert.mp hm with rfl | hm
  · exact hnot hg
  · exact h.notLive g (List.mem_cons_of_mem f hg) hm

/-- A creation is refused, it loses a slot because no handle is left, or it makes a fiber
in the slot that was free first. -/
theorem createThreadImpl_cases {s : UserScheduler} {place : FiberId → Option Node}
    {live : Finset FiberId} {free : List FiberId} {M : HandleTable.HandleMap FiberId}
    (hfiled : Filed s.links place) (hplace : ∀ f, f ∉ live → place f = none)
    (hfree : FreeSlots s.userFiberLocalAllocator live free)
    (hrun : HandleTable.Run s.handleTable M)
    (threadFunc : Address) (stackSize : ℕ) (priority : ℤ) (coreId : ℕ) :
    (∃ result, s.createThreadImpl threadFunc stackSize priority coreId =
      .ok ((result, none), s)) ∨
    ∃ f rest, free = f :: rest ∧
      ((∃ result, s.createThreadImpl threadFunc stackSize priority coreId =
        .ok ((result, none), { s with
          userFiberLocalAllocator := { s.userFiberLocalAllocator with
            freeList := s.userFiberLocalAllocator.next f } })) ∨
      ∃ handle table, handle ∉ M ∧ HandleTable.Run table (M.insert handle f) ∧
        (-2 ≤ priority ∧ priority ≤ 2) ∧
        s.createThreadImpl threadFunc stackSize priority coreId =
          .ok ((resultSuccess, some handle), { s with
            userFiberLocalAllocator := { s.userFiberLocalAllocator with
              freeList := s.userFiberLocalAllocator.next f }
            handleTable := table
            fibers := Function.update s.fibers f
              (createdRecord (s.fibers f) handle priority coreId)
            links := s.links.pushBack .suspendedList (.schedulerListNode f) })) := by
  unfold createThreadImpl
  split
  · exact Or.inl ⟨_, rfl⟩
  split
  · exact Or.inl ⟨_, rfl⟩
  split
  · exact Or.inl ⟨_, rfl⟩
  rename_i hpriority
  split
  · exact Or.inl ⟨_, rfl⟩
  cases free with
  | nil =>
      have hempty : s.userFiberLocalAllocator.freeList = none := hfree.chain
      simp only [FixedObjectAllocator.allocate, hempty]
      exact Or.inl ⟨_, rfl⟩
  | cons f free =>
      have hhead : s.userFiberLocalAllocator.freeList = some f := hfree.chain.1
      have hnone : place f = none := hplace f (hfree.notLive f (by simp))
      have hconstruct : ∀ allocator,
          { s with userFiberLocalAllocator := allocator }.constructFiber f =
            { s with userFiberLocalAllocator := allocator } := by
        intro allocator
        apply Filed.constructFiber _ hnone
        exact hfiled
      refine Or.inr ⟨f, free, rfl, ?_⟩
      simp only [FixedObjectAllocator.allocate, hhead, hconstruct]
      rcases hrun.reserveHandle_cases f with hreserve | ⟨handle, table, hreserve, hnew, hrun'⟩
      · simp only [hreserve, ok_bind]
        exact Or.inl ⟨_, rfl⟩
      · simp only [hreserve, ok_bind]
        exact Or.inr ⟨handle, table, hnew, hrun', not_not.mp hpriority, rfl⟩

/-- Without a new fiber only the allocator may change. -/
theorem createThread_eq (h : Placed c) {M : HandleTable.HandleMap FiberId}
    (hrun : HandleTable.Run c.scheduler.handleTable M) {threadFunc : Address} {stackSize : ℕ}
    {priority : ℤ} {coreId : ℕ}
    (hcall : c.createThread threadFunc stackSize priority coreId = .ok c') :
    (∃ allocator, (∃ free, FreeSlots allocator c.live free) ∧
      c' = { c with scheduler := { c.scheduler with userFiberLocalAllocator := allocator } }) ∨
    ∃ f allocator table handle, f ∉ c.live ∧ f < maxThreadCount ∧
      (∃ free, FreeSlots allocator (insert f c.live) free) ∧
      HandleTable.Run table (M.insert handle f) ∧ handle ∉ M ∧
      (-2 ≤ priority ∧ priority ≤ 2) ∧
      c' = { c with
        scheduler := { c.scheduler with
          userFiberLocalAllocator := allocator
          handleTable := table
          fibers := Function.update c.scheduler.fibers f
            (createdRecord (c.scheduler.fibers f) handle priority coreId)
          links := c.scheduler.links.pushBack .suspendedList (.schedulerListNode f) }
        live := insert f c.live } := by
  obtain ⟨free, hfree⟩ := h.slots
  unfold SchedulerSystem.createThread at hcall
  rcases createThreadImpl_cases h.filed (fun f => listOf_of_not_live) hfree hrun threadFunc
      stackSize priority coreId with ⟨result, he⟩ | ⟨f, rest, rfl, he⟩
  · rw [he] at hcall
    cases hcall
    exact Or.inl ⟨_, ⟨free, hfree⟩, rfl⟩
  have hrest := freeSlots_allocate hfree
  rcases he with ⟨result, he⟩ | ⟨handle, table, hnew, hrun', hpriority, he⟩
  · rw [he] at hcall
    cases hcall
    refine Or.inl ⟨_, ⟨rest, hrest.chain, hrest.nodup, ?_, hrest.lt⟩, rfl⟩
    exact fun g hg hm => hrest.notLive g hg (Finset.mem_insert_of_mem hm)
  · have hhead : c.scheduler.userFiberLocalAllocator.freeList = some f := hfree.chain.1
    rw [he, ok_bind, hhead] at hcall
    cases hcall
    exact Or.inr ⟨f, _, table, handle, hfree.notLive f (by simp), hfree.lt f (by simp),
      ⟨rest, hrest⟩, hrun', hnew, hpriority, rfl⟩

theorem createThread (h : Placed c) {threadFunc : Address} {stackSize : ℕ} {priority : ℤ}
    {coreId : ℕ} (hcall : c.createThread threadFunc stackSize priority coreId = .ok c') :
    Placed c' := by
  obtain ⟨M, hrun, hlookup⟩ := h.handles
  rcases h.createThread_eq hrun hcall with
    ⟨allocator, hslots, rfl⟩ | ⟨f, allocator, table, handle, hf, hlt, hslots, hrun', hnew,
      hpriority, rfl⟩
  · exact h.loseSlot hslots
  · exact h.addFiber hf hlt hslots hrun' hnew hlookup
      ⟨runListOf_isSome hpriority, h.noWait f, Or.inr (Or.inr ⟨rfl, rfl⟩)⟩ rfl rfl

end Placed

/-! ### `Initialize` -/

theorem filed_detached : Filed (Links.detached Node) fun _ => none where
  coherent := Links.detached_coherent
  ring list _ := ⟨[], Links.ring_nil.mpr rfl, by simp⟩
  isList := by simp
  detached _ _ := rfl
  waitNode _ := rfl
  waitList _ := rfl

/-- The record that `Initialize` gives to the main fiber. -/
def mainRecord (handle : UKernHandle) : FiberLocalStorage :=
  { zeroFiber with
    priority := 2
    coreMask := 1
    fiberState := .running
    activityLevel := activityLevelSchedulable
    ukernFiberHandle := handle }

/-- The state after `Initialize`. -/
def startedSystem (words : Address → BitVec 32) (coreMask : BitVec 64)
    (table : HandleTable FiberId) : SchedulerSystem where
  scheduler := { staticInstance words with
    fibers := Function.update (fun _ => zeroFiber) 0 (mainRecord 0x80ff)
    handleTable := table
    userFiberLocalAllocator := { FixedObjectAllocator.construct maxThreadCount with
      freeList := some 1 }
    coreMask := coreMask
    coreCount := countOneBits64 coreMask
    activeCores := BitVec.ofNat 32 (countOneBits64 coreMask) }
  contexts := Function.update (fun _ => .notStarted) 0 (.running 0)
  lockOwner := none
  mainFiber := 0
  mainEntered := false
  live := {0}

theorem initialSystem_eq (words : Address → BitVec 32) (coreMask : BitVec 64) :
    ∃ table, HandleTable.Run table (Finmap.insert 0x80ff 0 ∅) ∧
      initialSystem words coreMask = .ok (startedSystem words coreMask table) := by
  obtain ⟨table, htable⟩ := HandleTable.reserveHandle_initializeTable
    (⟨fun _ => 0, fun _ => none, 0, 0, 0⟩ : HandleTable FiberId) (some 0)
  have hconstruct : ∀ s : UserScheduler, s.links = Links.detached Node →
      s.constructFiber 0 = s := by
    intro s hlinks
    apply Filed.constructFiber (hlinks ▸ filed_detached) rfl
  refine ⟨table, (HandleTable.Run.start _).reserved htable, ?_⟩
  simp only [SchedulerSystem.initialSystem, initializeScheduler, staticInstance,
    FixedObjectAllocator.allocate, FixedObjectAllocator.construct]
  rw [hconstruct _ rfl]
  simp only [modifyFiber, htable, ok_bind, Function.update_idem, Function.update_self]
  rfl

/-- Only the main fiber is alive, and it runs on core 0. -/
theorem startedSystem_placed {words : Address → BitVec 32} {coreMask : BitVec 64}
    {table : HandleTable FiberId} (hrun : HandleTable.Run table (Finmap.insert 0x80ff 0 ∅)) :
    Placed (startedSystem words coreMask table) := by
  have hlive : ∀ g ∈ ({0} : Finset FiberId), g = 0 := fun g hg => Finset.mem_singleton.mp hg
  refine ⟨?_, ?_, ?_, ?_, ?_, ?_, ⟨_, hrun, ?_⟩, fun _ => rfl⟩
  · refine (congrArg (Filed _) ?_).mpr filed_detached
    funext g
    by_cases hg : g = 0
    · rw [hg]
      rfl
    · exact listOf_of_not_live fun hm => hg (hlive g hm)
  · intro g hg
    rw [hlive g hg]
    exact ⟨rfl, rfl, Or.inl rfl⟩
  · intro g
    by_cases hg : g = 0
    · rw [hg]
      rfl
    · simp [startedSystem, hg, zeroFiber]
  · intro k g
    by_cases hg : g = 0
    · by_cases hk : k = 0
      · simp [startedSystem, RecordedOn, mainRecord, zeroFiber, hg, hk]
      · simp [startedSystem, RecordedOn, mainRecord, zeroFiber, hg, hk,
          Ne.symm hk]
    · by_cases hk : k = 0
      · simp [startedSystem, RecordedOn, hg, hk, Ne.symm hg]
      · simp [startedSystem, RecordedOn, hg, hk]
  · refine ⟨List.range' 1 255, FixedObjectAllocator.chain_construct (by decide : 1 < 256),
      List.nodup_range', ?_, ?_⟩
    · intro g hg hm
      have hpos := (List.mem_range'_1.mp hg).1
      rw [hlive g hm] at hpos
      cases hpos
    · intro g hg
      exact (List.mem_range'_1.mp hg).2
  · intro g hg
    rw [hlive g hg]
    decide
  · intro g hg
    rw [hlive g hg]
    exact Finmap.lookup_insert _

/-! ### Runs -/

theorem Step.placed (hstep : Step c c') (h : Placed c) : Placed c' := by
  cases hstep with
  | createThread threadFunc stackSize priority coreId unlocked call => exact h.createThread call
  | setCoreMask coreMask unlocked live call =>
      exact h.setCoreMaskImpl live (h.getFiberByHandle live) call
  | setActivity activityLevel unlocked live call =>
      exact h.setActivityImpl live (h.getFiberByHandle live) call
  | sleepThread absoluteTimeout unlocked current call => exact h.sleepThread current call
  | exitFiber unlocked current user call => exact h.exitFiber current user call
  | pass tick locked current call => exact h.pass current call
  | startCore unlocked current worker core_lt =>
      exact h.enterScheduler (by simp [current]) c.scheduler.activeCores
  | wakeCore unlocked current => exact h.enterScheduler (by simp [current]) _

theorem Reachable.placed {words : Address → BitVec 32} {coreMask : BitVec 64}
    (h : Reachable words coreMask c) : Placed c := by
  induction h with
  | start initial =>
      obtain ⟨table, hrun, he⟩ := initialSystem_eq words coreMask
      rw [he] at initial
      cases initial
      exact startedSystem_placed hrun
  | step reachable step ih => exact step.placed ih

end DDFramework.SchedulerSystem
