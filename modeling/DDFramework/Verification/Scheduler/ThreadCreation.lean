import DDFramework.Verification.Scheduler.HandleLifetime

/-! # Failed creations and changed priorities

`CreateThreadImpl` takes a slot before it asks for a handle, and does not give the slot back
when there is none. `SetPriorityImpl` refuses the priorities that `CreateThreadImpl` takes. -/

namespace DDFramework

/-- The arguments of `CreateThreadImpl`. -/
structure ThreadArguments where
  threadFunc : Address
  stackSize : ℕ
  priority : ℤ
  coreId : ℕ
  deriving DecidableEq, Repr

namespace UserScheduler

variable {s s' : UserScheduler} {args : ThreadArguments} {free : List FiberId}

def create (s : UserScheduler) (args : ThreadArguments) :
    Except Fault ((Result × Option UKernHandle) × UserScheduler) :=
  s.createThreadImpl args.threadFunc args.stackSize args.priority args.coreId

/-- The arguments pass the checks in front of the scheduler lock. -/
def Accepts (s : UserScheduler) (args : ThreadArguments) : Prop :=
  args.threadFunc ≠ 0 ∧ args.stackSize ≠ 0 ∧ (-2 ≤ args.priority ∧ args.priority ≤ 2) ∧
    coreBit args.coreId &&& s.coreMask ≠ 0

/-- The free storage slots, in the order in which they will be given away. -/
def FreeStorage (s : UserScheduler) (free : List FiberId) : Prop :=
  Chain some s.userFiberLocalAllocator.next none s.userFiberLocalAllocator.freeList free

theorem FreeStorage.unique {other : List FiberId} (h : s.FreeStorage free)
    (h' : s.FreeStorage other) : free = other :=
  Chain.unique (Option.some_injective FiberId) (fun x => Option.some_ne_none x) h h'

/-! ### One call -/

/-- A slot is free but every handle is taken. -/
def LosesSlot (s : UserScheduler) (args : ThreadArguments) : Prop :=
  s.Accepts args ∧ s.userFiberLocalAllocator.freeList ≠ none ∧
    maxHandles ≤ s.handleTable.activeHandles.toNat

/-- A call that returns an error writes no handle, and leaves the free slots, the live handles
and the lists as they were. -/
def FailsCleanly (s : UserScheduler) (args : ThreadArguments) : Prop :=
  ∀ result handle s', s.create args = .ok ((result, handle), s') → result ≠ resultSuccess →
    handle = none ∧ (∀ free, s.FreeStorage free → s'.FreeStorage free) ∧
      s'.handleTable = s.handleTable ∧ s'.links = s.links

theorem reserveHandle_eq_none {t t' : HandleTable FiberId} {object : Option FiberId}
    (h : t.reserveHandle object = .ok (none, t')) : maxHandles ≤ t.activeHandles.toNat := by
  unfold HandleTable.reserveHandle at h
  split at h
  · assumption
  · dsimp only at h
    split at h
    · cases h
    · cases h

theorem reserveHandle_of_full {t : HandleTable FiberId}
    (h : maxHandles ≤ t.activeHandles.toNat) (object : Option FiberId) :
    t.reserveHandle object = .ok (none, t) :=
  if_pos h

/-- What a returning call has done to the slots and to the rest. -/
theorem create_cases {result : Result} {handle : Option UKernHandle}
    (h : s.create args = .ok ((result, handle), s')) :
    (result ≠ resultSuccess ∧ handle = none ∧ s' = s) ∨
    ∃ f, s.userFiberLocalAllocator.freeList = some f ∧
      s'.userFiberLocalAllocator = { s.userFiberLocalAllocator with
        freeList := s.userFiberLocalAllocator.next f } ∧
      (s.LosesSlot args ∨ result = resultSuccess) := by
  unfold create createThreadImpl at h
  split at h
  · cases h
    exact Or.inl ⟨declareResult_ukern_ne_success 6, rfl, rfl⟩
  rename_i hfunc
  split at h
  · cases h
    exact Or.inl ⟨declareResult_ukern_ne_success 7, rfl, rfl⟩
  rename_i hstack
  split at h
  · cases h
    exact Or.inl ⟨declareResult_ukern_ne_success 8, rfl, rfl⟩
  rename_i hpriority
  split at h
  · cases h
    exact Or.inl ⟨declareResult_ukern_ne_success 17, rfl, rfl⟩
  rename_i hcore
  have haccepts : s.Accepts args := ⟨hfunc, hstack, not_not.mp hpriority, hcore⟩
  cases hfree : s.userFiberLocalAllocator.freeList with
  | none =>
      simp only [FixedObjectAllocator.allocate, hfree] at h
      cases h
      exact Or.inl ⟨declareResult_ukern_ne_success 4, rfl, rfl⟩
  | some f =>
      simp only [FixedObjectAllocator.allocate, hfree] at h
      obtain ⟨⟨handle', table⟩, hreserve, h⟩ := bind_eq_ok_iff.mp h
      refine Or.inr ⟨f, rfl, ?_⟩
      cases handle' with
      | none =>
          have hfull := reserveHandle_eq_none hreserve
          cases h
          exact ⟨rfl, Or.inl ⟨haccepts, by simp [hfree], hfull⟩⟩
      | some handle' =>
          cases h
          exact ⟨rfl, Or.inr rfl⟩

theorem create_eq_self {result : Result} {handle : Option UKernHandle}
    (hkept : ¬ s.LosesSlot args) (h : s.create args = .ok ((result, handle), s'))
    (herror : result ≠ resultSuccess) : handle = none ∧ s' = s := by
  rcases create_cases h with ⟨-, hhandle, hs⟩ | ⟨f, -, -, hlost | hsuccess⟩
  · exact ⟨hhandle, hs⟩
  · exact absurd hlost hkept
  · exact absurd hsuccess herror

/-- The slot has left the free list and nobody has it. -/
theorem create_of_losesSlot (h : s.LosesSlot args) : ∃ f s',
    s.userFiberLocalAllocator.freeList = some f ∧
    s.create args = .ok ((resultHandleExhaustion, none), s') ∧
    s'.userFiberLocalAllocator = { s.userFiberLocalAllocator with
      freeList := s.userFiberLocalAllocator.next f } := by
  obtain ⟨⟨hfunc, hstack, hpriority, hcore⟩, hfree, hfull⟩ := h
  obtain ⟨f, hf⟩ := Option.ne_none_iff_exists'.mp hfree
  refine ⟨f, { s with userFiberLocalAllocator := { s.userFiberLocalAllocator with
    freeList := s.userFiberLocalAllocator.next f } }.constructFiber f, hf, ?_, rfl⟩
  unfold create createThreadImpl
  rw [if_neg hfunc, if_neg hstack, if_neg (not_not.mpr hpriority), if_neg hcore]
  simp only [FixedObjectAllocator.allocate, hf, constructFiber]
  rw [reserveHandle_of_full hfull]
  rfl

theorem failsCleanly_iff (hfree : s.FreeStorage free) (args : ThreadArguments) :
    s.FailsCleanly args ↔ ¬ s.LosesSlot args := by
  constructor
  · intro hclean hlost
    obtain ⟨f, s', hf, hcall, hallocator⟩ := create_of_losesSlot hlost
    have hsame := (hclean _ _ _ hcall (declareResult_ukern_ne_success 5)).2.1 free hfree
    cases free with
    | nil =>
        have hnone : s.userFiberLocalAllocator.freeList = none := hfree
        rw [hf] at hnone
        cases hnone
    | cons g rest =>
        obtain ⟨hg, hrest⟩ := hfree
        rw [hf, Option.some.injEq] at hg
        subst hg
        have hnext : s'.FreeStorage rest := by
          rw [FreeStorage, hallocator]
          exact hrest
        have hlength := congrArg List.length (hsame.unique hnext)
        simp at hlength
  · intro hkept result handle s' hcall herror
    obtain ⟨rfl, rfl⟩ := create_eq_self hkept hcall herror
    exact ⟨rfl, fun _ h => h, rfl, rfl⟩

/-! ### The states of the pools -/

/-- The states of the scheduler in which the pools can be. Creations take from the pools, and
the exit of a fiber gives a slot back that was in use. Everything else that the scheduler
does leaves both pools alone, and is left open here. -/
inductive PoolReachable : UserScheduler → Prop where
  | initialized {words : Address → BitVec 32} {coreMask : BitVec 64} {s : UserScheduler}
      {main : FiberId} (call : initializeScheduler words coreMask = .ok (s, main)) :
      PoolReachable s
  | created {s s' : UserScheduler} {args : ThreadArguments}
      {outcome : Result × Option UKernHandle} (reachable : PoolReachable s)
      (call : s.create args = .ok (outcome, s')) : PoolReachable s'
  | exited {s : UserScheduler} {f : FiberId} {a : FixedObjectAllocator maxThreadCount}
      (reachable : PoolReachable s) (used : ∀ free, s.FreeStorage free → f ∉ free)
      (call : s.userFiberLocalAllocator.free f = .ok a) :
      PoolReachable { s with userFiberLocalAllocator := a }
  | other {s s' : UserScheduler} (reachable : PoolReachable s)
      (allocator : s'.userFiberLocalAllocator = s.userFiberLocalAllocator)
      (handleTable : s'.handleTable = s.handleTable) : PoolReachable s'

theorem FreeStorage.create {outcome : Result × Option UKernHandle} (h : s.FreeStorage free)
    (hcall : s.create args = .ok (outcome, s')) : ∃ rest, s'.FreeStorage rest := by
  rcases create_cases hcall with ⟨-, -, rfl⟩ | ⟨f, hf, hallocator, -⟩
  · exact ⟨free, h⟩
  · cases free with
    | nil =>
        have hnone : s.userFiberLocalAllocator.freeList = none := h
        rw [hf] at hnone
        cases hnone
    | cons g rest =>
        obtain ⟨hg, hrest⟩ := h
        rw [hf, Option.some.injEq] at hg
        refine ⟨rest, ?_⟩
        rw [FreeStorage, hallocator, hg]
        exact hrest

theorem FreeStorage.release {f : FiberId} {a : FixedObjectAllocator maxThreadCount}
    (h : s.FreeStorage free) (hused : f ∉ free)
    (hcall : s.userFiberLocalAllocator.free f = .ok a) :
    { s with userFiberLocalAllocator := a }.FreeStorage (f :: free) := by
  unfold FixedObjectAllocator.free at hcall
  split at hcall
  · cases hcall
    refine ⟨rfl, ?_⟩
    dsimp only
    rw [Function.update_self]
    refine Chain.congr h fun g hg => ?_
    rw [Function.update_of_ne]
    rintro rfl
    exact hused hg
  · cases hcall

theorem PoolReachable.freeStorage (h : PoolReachable s) : ∃ free, s.FreeStorage free := by
  induction h with
  | @initialized words coreMask s main call =>
      have hstart : SchedulerSystem.initialSystem words coreMask = .ok
          ⟨s, Function.update (fun _ => .notStarted) 0 (.running main), none, main, false,
            {main}⟩ := by
        rw [SchedulerSystem.initialSystem, call]
        rfl
      obtain ⟨free, hfree⟩ := (SchedulerSystem.Reachable.start hstart).placed.slots
      exact ⟨free, hfree.chain⟩
  | created _ call ih =>
      obtain ⟨free, hfree⟩ := ih
      exact hfree.create call
  | exited _ used call ih =>
      obtain ⟨free, hfree⟩ := ih
      exact ⟨_, hfree.release (used free hfree) call⟩
  | other _ allocator _ ih =>
      obtain ⟨free, hfree⟩ := ih
      refine ⟨free, ?_⟩
      rw [FreeStorage, allocator]
      exact hfree

/-- A sequence of calls each of which returns an error. -/
inductive FailedCalls : UserScheduler → List ThreadArguments → UserScheduler → Prop where
  | nil (s : UserScheduler) : FailedCalls s [] s
  | cons {s t s' : UserScheduler} {args : ThreadArguments} {calls : List ThreadArguments}
      {result : Result} {handle : Option UKernHandle}
      (call : s.create args = .ok ((result, handle), t)) (error : result ≠ resultSuccess)
      (rest : FailedCalls t calls s') : FailedCalls s (args :: calls) s'

/-- This many threads can be created, one after the other. -/
inductive CanCreate : UserScheduler → ℕ → Prop where
  | zero (s : UserScheduler) : CanCreate s 0
  | succ {s s' : UserScheduler} {args : ThreadArguments} {handle : Option UKernHandle} {n : ℕ}
      (call : s.create args = .ok ((resultSuccess, handle), s')) (rest : CanCreate s' n) :
      CanCreate s (n + 1)

theorem FailedCalls.eq_self {calls : List ThreadArguments} (h : FailedCalls s calls s')
    (hkept : ∀ args ∈ calls, ¬ s.LosesSlot args) : s' = s := by
  induction h with
  | nil => rfl
  | @cons s t s' args calls result handle call error _ ih =>
      obtain ⟨-, rfl⟩ := create_eq_self (hkept args (by simp)) call error
      exact ih fun other hother => hkept other (by simp [hother])

/-- A call fails cleanly if and only if it does not find a slot without a handle, and after
any number of clean failures as many threads can be created as before. -/
theorem failed_creation_leaks_iff (h : PoolReachable s) :
    (∀ args, s.FailsCleanly args ↔ ¬ s.LosesSlot args) ∧
    ∀ calls s', FailedCalls s calls s' → (∀ args ∈ calls, ¬ s.LosesSlot args) →
      ∀ n, CanCreate s' n ↔ CanCreate s n := by
  obtain ⟨free, hfree⟩ := h.freeStorage
  refine ⟨failsCleanly_iff hfree, ?_⟩
  intro calls s' hcalls hkept n
  rw [hcalls.eq_self hkept]

end UserScheduler

/-! ### The reachable states -/

namespace SchedulerSystem

open UserScheduler

variable {c c' : SchedulerSystem}

theorem poolReachable_of_setter {s s' : UserScheduler} {f : FiberId} {r : FiberLocalStorage}
    {changed relisted : Prop} (h : PoolReachable s)
    (hset : SetterCases s f r changed relisted s') : PoolReachable s' := by
  rcases hset with ⟨-, rfl⟩ | ⟨-, ⟨-, rfl⟩ | ⟨-, rfl⟩⟩
  · exact h
  · exact h.other (by simp [reschedule]) (by simp [reschedule])
  · exact h.other rfl rfl

theorem createThread_scheduler {threadFunc : Address} {stackSize : ℕ} {priority : ℤ} {coreId : ℕ}
    (hcall : c.createThread threadFunc stackSize priority coreId = .ok c') :
    ∃ outcome, c.scheduler.create ⟨threadFunc, stackSize, priority, coreId⟩ =
      .ok (outcome, c'.scheduler) := by
  obtain ⟨⟨⟨result, handle⟩, s⟩, hs, hcall⟩ := bind_eq_ok_iff.mp hcall
  refine ⟨(result, handle), ?_⟩
  cases handle with
  | none =>
      cases hcall
      exact hs
  | some handle =>
      cases hfree : c.scheduler.userFiberLocalAllocator.freeList with
      | none =>
          rw [hfree] at hcall
          cases hcall
          exact hs
      | some f =>
          rw [hfree] at hcall
          cases hcall
          exact hs

/-- Every step is a creation, the exit of a live fiber, or leaves the pools alone. -/
theorem Step.poolReachable (hstep : Step c c') (hplaced : c.Placed)
    (h : PoolReachable c.scheduler) : PoolReachable c'.scheduler := by
  cases hstep with
  | createThread threadFunc stackSize priority coreId unlocked call =>
      obtain ⟨outcome, hcreate⟩ := createThread_scheduler call
      exact h.created hcreate
  | setCoreMask coreMask unlocked live call =>
      exact poolReachable_of_setter h
        (setCoreMaskImpl_cases (hplaced.getFiberByHandle live) call)
  | setActivity activityLevel unlocked live call =>
      exact poolReachable_of_setter h
        (setActivityImpl_cases (hplaced.getFiberByHandle live) call)
  | sleepThread absoluteTimeout unlocked current call =>
      rw [(hplaced.sleepThreadImpl current absoluteTimeout).switchToScheduler_eq current call]
      exact h.other (by simp [sleepThreadImpl_eq]) (by simp [sleepThreadImpl_eq])
  | @exitFiber _ core f unlocked current user call =>
      obtain ⟨a, ha, rfl⟩ := hplaced.exitFiber_eq current user call
      obtain ⟨free, hfree⟩ := hplaced.slots
      have hlive := ((hplaced.running core f).mp current).1
      have hexit : PoolReachable (c.scheduler.exitFiberImpl f) := h.other rfl rfl
      refine hexit.exited ?_ ha
      intro other hother hmem
      rw [FreeStorage.unique hother hfree.chain] at hmem
      exact hfree.notLive _ hmem hlive
  | pass tick locked current call =>
      rcases hplaced.pass_eq call with ⟨f, l, -, -, rfl⟩ | ⟨-, rfl⟩
      · exact h.other rfl rfl
      · exact h.other rfl rfl
  | startCore unlocked current worker core_lt => exact h
  | wakeCore unlocked current => exact h.other rfl rfl

theorem Reachable.poolReachable {words : Address → BitVec 32} {coreMask : BitVec 64}
    (h : Reachable words coreMask c) : PoolReachable c.scheduler := by
  induction h with
  | start initial =>
      obtain ⟨⟨s, main⟩, hinit, he⟩ := bind_eq_ok_iff.mp initial
      cases he
      exact .initialized hinit
  | step reachable step ih => exact step.poolReachable reachable.placed ih

/-- A thread exits, and two are created after it. -/
def creatingRun : List SchedulerCall :=
  [.createThread 1 1 1 0, .setActivity 1 1, .sleepThread 0 0, .pass 0 1, .exitFiber 0,
    .pass 0 1, .createThread 1 1 0 0, .createThread 1 1 2 0]

/-- A missing function, a stack of no bytes and a priority that there is not are refused after
the run. -/
theorem failed_creation_leaks_iff_creatingRun : ∃ start c s',
    initialSystem (fun _ => 0) 1 = .ok start ∧
    Machine.run perform start creatingRun = some c ∧ c.scheduler.FailsCleanly ⟨1, 0, 0, 0⟩ ∧
    FailedCalls c.scheduler [⟨0, 1, 0, 0⟩, ⟨1, 0, 0, 0⟩, ⟨1, 1, 3, 0⟩] s' ∧
    ∀ n, CanCreate s' n ↔ CanCreate c.scheduler n := by
  have hrun : ((initialSystem (fun _ => 0) 1).toOption.bind fun c =>
      Machine.run perform c creatingRun).isSome = true := by
    decide +kernel
  obtain ⟨c, hc⟩ := Option.isSome_iff_exists.mp hrun
  obtain ⟨start, hstart, hrun⟩ := Option.bind_eq_some_iff.mp hc
  rw [toOption_eq_some] at hstart
  have hreach := (reaches_iff_reachable hstart).mp (Machine.Reaches.of_run hrun)
  obtain ⟨hclean, hcount⟩ := failed_creation_leaks_iff hreach.poolReachable
  have hkept : ∀ args ∈ [(⟨0, 1, 0, 0⟩ : ThreadArguments), ⟨1, 0, 0, 0⟩, ⟨1, 1, 3, 0⟩],
      ¬ c.scheduler.LosesSlot args := by
    rintro args hargs ⟨⟨hfunc, hstack, hpriority, -⟩, -⟩
    simp only [List.mem_cons, List.not_mem_nil, or_false] at hargs
    rcases hargs with rfl | rfl | rfl
    · exact hfunc rfl
    · exact hstack rfl
    · exact absurd hpriority (by decide)
  have hfailed : FailedCalls c.scheduler [⟨0, 1, 0, 0⟩, ⟨1, 0, 0, 0⟩, ⟨1, 1, 3, 0⟩] c.scheduler :=
    .cons rfl (declareResult_ukern_ne_success 6) (.cons rfl (declareResult_ukern_ne_success 7)
      (.cons rfl (declareResult_ukern_ne_success 8) (.nil _)))
  exact ⟨start, c, c.scheduler, hstart, hrun, (hclean _).mpr (hkept _ (by simp)), hfailed,
    hcount _ _ hfailed hkept⟩

/-- A thread exits, and as many threads are created after it as there are handles left. -/
def exhaustingRun : List SchedulerCall :=
  [.createThread 1 1 1 0, .setActivity 1 1, .sleepThread 0 0, .pass 0 1, .exitFiber 0,
    .pass 0 1] ++ List.replicate 254 (.createThread 1 1 1 0)

/-- The exited thread has left its slot and kept its handle, so that one slot is free and no
handle is. The next creation fails and takes the slot with it. -/
theorem exhausted_creation_loses_slot : ∃ start c s',
    initialSystem (fun _ => 0) 1 = .ok start ∧
    Machine.run perform start exhaustingRun = some c ∧
    c.scheduler.create ⟨1, 1, 1, 0⟩ = .ok ((resultHandleExhaustion, none), s') ∧
    ¬ c.scheduler.FailsCleanly ⟨1, 1, 1, 0⟩ := by
  have hrun : ((initialSystem (fun _ => 0) 1).toOption.bind fun c =>
      Machine.run perform c exhaustingRun).any (fun c =>
        decide (c.scheduler.coreMask = 1) &&
        (c.scheduler.userFiberLocalAllocator.freeList.isSome &&
          decide (maxHandles ≤ c.scheduler.handleTable.activeHandles.toNat))) = true := by
    decide +kernel
  obtain ⟨c, hc, hfacts⟩ := (Option.any_eq_true _ _).mp hrun
  obtain ⟨start, hstart, hrun⟩ := Option.bind_eq_some_iff.mp hc
  rw [toOption_eq_some] at hstart
  simp only [Bool.and_eq_true, decide_eq_true_eq] at hfacts
  obtain ⟨hmask, hslot, hfull⟩ := hfacts
  have hlost : c.scheduler.LosesSlot ⟨1, 1, 1, 0⟩ := by
    refine ⟨⟨by decide, by decide, by decide, ?_⟩, Option.isSome_iff_ne_none.mp hslot, hfull⟩
    rw [hmask]
    decide
  have hreach := (reaches_iff_reachable hstart).mp (Machine.Reaches.of_run hrun)
  obtain ⟨free, hfree⟩ := hreach.poolReachable.freeStorage
  obtain ⟨f, s', -, hcall, -⟩ := create_of_losesSlot hlost
  exact ⟨start, c, s', hstart, hrun, hcall, fun hclean => (failsCleanly_iff hfree _).mp hclean hlost⟩

end SchedulerSystem

/-! ### `SetPriorityImpl` -/

namespace UserScheduler

variable {s : UserScheduler} {f : FiberId}

/-- The fiber has left its run list and is at the back of the one for the priority; nothing
else has moved. -/
structure MovedTo (s s' : UserScheduler) (f : FiberId) (priority : ℤ) : Prop where
  runRing : ∀ l xs, s.links.Ring (.runList l) xs → s'.links.Ring (.runList l)
    (xs.erase (.schedulerListNode f) ++
      if runListOf (priority + 2) = some l then [.schedulerListNode f] else [])
  otherRing : ∀ list xs, (∀ l, list ≠ .runList l) → s.links.Ring list xs → s'.links.Ring list xs

/-- A change of priority behaves as a creation with that priority would. `last` is the
priority that the fiber was created with or last set to. -/
structure AgreesWithCreation (s : UserScheduler) (f : FiberId) (last priority : ℤ)
    (result : Result) (s' : UserScheduler) : Prop where
  invalid : result = resultInvalidPriority ↔ ¬ (-2 ≤ priority ∧ priority ≤ 2)
  same : result = resultSamePriority ↔ (-2 ≤ priority ∧ priority ≤ 2) ∧ priority = last
  success : (-2 ≤ priority ∧ priority ≤ 2) → priority ≠ last → result = resultSuccess
  stored : result = resultSuccess → (s'.fibers f).priority = priority + 2
  moved : result = resultSuccess → (s.fibers f).fiberState = .scheduled → MovedTo s s' f priority
  others : ∀ g, g ≠ f → s'.fibers g = s.fibers g

/-- The range test is the wrong way round, so that the call disagrees with a creation for
every priority. -/
theorem setPriorityImpl_disagrees {handle : UKernHandle}
    (hget : s.getFiberByHandle handle = .ok (some f)) (last priority : ℤ) :
    ∃ result s', s.setPriorityImpl handle priority = .ok (result, s') ∧
      ¬ AgreesWithCreation s f last priority result s' := by
  by_cases hrange : -2 ≤ priority ∧ priority ≤ 2
  · refine ⟨resultInvalidPriority, s, if_pos hrange, ?_⟩
    intro hagrees
    exact hagrees.invalid.mp rfl hrange
  · -- the other priorities are stored as they are
    have hcall : ∃ result s', s.setPriorityImpl handle priority = .ok (result, s') ∧
        (result = resultSamePriority ∨ result = resultSuccess) := by
      simp only [setPriorityImpl, if_neg hrange, hget, ok_bind]
      split_ifs
      · exact ⟨_, _, rfl, Or.inl rfl⟩
      · exact ⟨_, _, rfl, Or.inr rfl⟩
      · exact ⟨_, _, rfl, Or.inr rfl⟩
    obtain ⟨result, s', hcall, hresult⟩ := hcall
    refine ⟨result, s', hcall, ?_⟩
    intro hagrees
    have hinvalid := hagrees.invalid.mpr hrange
    rcases hresult with hsame | hsuccess
    · exact absurd (hsame.symm.trans hinvalid) (by decide)
    · exact declareResult_ukern_ne_success 8 (hinvalid.symm.trans hsuccess)

/-- The main fiber has handle 0x80ff and priority 0. It is refused priority 1, and gets
priority 7. -/
theorem setPriorityImpl_disagrees_main : ∃ start,
    SchedulerSystem.initialSystem (fun _ => 0) 1 = .ok start ∧
    start.scheduler.getFiberByHandle 0x80ff = .ok (some 0) ∧
    ∃ result s', start.scheduler.setPriorityImpl 0x80ff 1 = .ok (result, s') ∧
      ¬ AgreesWithCreation start.scheduler 0 0 1 result s' := by
  have hstart : (SchedulerSystem.initialSystem (fun _ => 0) 1).toOption.any (fun c =>
      decide ((c.scheduler.getFiberByHandle 0x80ff).toOption = some (some 0))) = true := by
    decide +kernel
  obtain ⟨start, hstart, hget⟩ := (Option.any_eq_true _ _).mp hstart
  rw [toOption_eq_some] at hstart
  simp only [decide_eq_true_eq, toOption_eq_some] at hget
  exact ⟨start, hstart, hget, setPriorityImpl_disagrees hget 0 1⟩

/-- A creation takes priority 1 for a thread whose priority cannot be set to 1. -/
theorem created_priority_refused : ∃ start c,
    SchedulerSystem.initialSystem (fun _ => 0) 1 = .ok start ∧
    start.createThread 1 1 0 0 = .ok c ∧
    c.scheduler.getFiberByHandle 0x100fe = .ok (some 1) ∧
    c.scheduler.setPriorityImpl 0x100fe 1 = .ok (resultInvalidPriority, c.scheduler) ∧
    ∀ s', ¬ AgreesWithCreation c.scheduler 1 0 1 resultInvalidPriority s' := by
  have hrun : ((SchedulerSystem.initialSystem (fun _ => 0) 1).toOption.bind fun start =>
      (start.createThread 1 1 0 0).toOption).any (fun c =>
        decide ((c.scheduler.getFiberByHandle 0x100fe).toOption = some (some 1))) = true := by
    decide +kernel
  obtain ⟨c, hc, hget⟩ := (Option.any_eq_true _ _).mp hrun
  obtain ⟨start, hstart, hcreate⟩ := Option.bind_eq_some_iff.mp hc
  simp only [decide_eq_true_eq, toOption_eq_some] at hget hstart hcreate
  refine ⟨start, c, hstart, hcreate, hget, rfl, ?_⟩
  intro s' hagrees
  exact hagrees.invalid.mp rfl (by decide)

end UserScheduler

end DDFramework
