import DDFramework.Verification.Scheduler.Calls

/-! # Handles and the fibers they were issued for

`Dispatch` frees the slot of an exited fiber and keeps its handle, so that handles follow
the lifetime of their fibers exactly as long as no fiber exits. -/

namespace DDFramework

open UserScheduler

/-! ### Issued handles -/

/-- What has become of the fiber for which a handle was issued last. -/
inductive HandleStatus where
  | alive (f : FiberId)
  | exited
  deriving DecidableEq

/-- The scheduler and the handles that `CreateThreadImpl` has returned. -/
structure TrackedSystem where
  system : SchedulerSystem
  issued : UKernHandle → Option HandleStatus

namespace TrackedSystem

open SchedulerSystem

def begin (c : SchedulerSystem) : TrackedSystem := ⟨c, fun _ => none⟩

/-- A creation issues the handle it returns, and an exit ends the fiber's handle. -/
def track (t : TrackedSystem) : SchedulerCall → UKernHandle → Option HandleStatus
  | .createThread threadFunc stackSize priority coreId =>
      match t.system.scheduler.createThreadImpl threadFunc stackSize priority coreId,
          t.system.scheduler.userFiberLocalAllocator.freeList with
      | .ok ((_, some handle), _), some f => Function.update t.issued handle (some (.alive f))
      | _, _ => t.issued
  | .exitFiber core =>
      match t.system.runningFiber core with
      | some f => fun handle =>
          if t.issued handle = some (.alive f) then some .exited else t.issued handle
      | none => t.issued
  | _ => t.issued

def next (t : TrackedSystem) (call : SchedulerCall) : Option TrackedSystem :=
  (t.system.perform call).map fun c => ⟨c, t.track call⟩

/-- The handle of a live fiber finds the fiber, in a slot that is neither free nor in use for
another handle; the handle of an exited fiber finds nothing, and `ExitThreadImpl` stops to
wait for it. -/
def FollowsLifetime (t : TrackedSystem) (handle : UKernHandle) : HandleStatus → Prop
  | .alive f =>
      t.system.scheduler.getFiberByHandle handle = .ok (some f) ∧
      (∀ free, Chain some t.system.scheduler.userFiberLocalAllocator.next none
        t.system.scheduler.userFiberLocalAllocator.freeList free → f ∉ free) ∧
      ∀ other, t.issued other = some (.alive f) → other = handle
  | .exited =>
      t.system.scheduler.getFiberByHandle handle = .ok none ∧
      t.system.scheduler.exitThreadWaits handle = .ok false

def HandlesFollowLifetimes (t : TrackedSystem) : Prop :=
  ∀ handle status, t.issued handle = some status → t.FollowsLifetime handle status

/-! ### Runs without an exit -/

/-- The issued handles are those of the live fibers, but for the main fiber. -/
structure Tracked (t : TrackedSystem) : Prop where
  placed : t.system.Placed
  alive : ∀ handle status, t.issued handle = some status →
    ∃ f ∈ t.system.live, status = .alive f ∧
      (t.system.scheduler.fibers f).ukernFiberHandle = handle
  issued : ∀ f ∈ t.system.live, f ≠ t.system.mainFiber →
    t.issued (t.system.scheduler.fibers f).ukernFiberHandle = some (.alive f)

variable {t t' : TrackedSystem} {call : SchedulerCall} {start : SchedulerSystem}
  {words : Address → BitVec 32} {coreMask : BitVec 64}

theorem Tracked.begin (hstart : initialSystem words coreMask = .ok start) :
    Tracked (begin start) := by
  have hplaced := (Reachable.start hstart).placed
  obtain ⟨table, -, he⟩ := initialSystem_eq words coreMask
  rw [he] at hstart
  cases hstart
  refine ⟨hplaced, by simp [TrackedSystem.begin], ?_⟩
  intro f hf hne
  exact (hne (Finset.mem_singleton.mp hf)).elim

theorem Tracked.handlesFollowLifetimes (h : Tracked t) : t.HandlesFollowLifetimes := by
  intro handle status hstatus
  obtain ⟨f, hf, rfl, rfl⟩ := h.alive handle status hstatus
  obtain ⟨free, hfree⟩ := h.placed.slots
  refine ⟨h.placed.getFiberByHandle hf, ?_, ?_⟩
  · intro free' hchain hmem
    have he : free' = free :=
      hchain.unique (Option.some_injective FiberId) (fun x => Option.some_ne_none x) hfree.chain
    exact hfree.notLive f (he ▸ hmem) hf
  · intro other hother
    obtain ⟨g, -, hg, rfl⟩ := h.alive other _ hother
    cases hg
    rfl

/-- The live fibers and their handles stay the same. -/
structure SameHandles (c c' : SchedulerSystem) : Prop where
  live : c'.live = c.live
  mainFiber : c'.mainFiber = c.mainFiber
  handle : ∀ f, (c'.scheduler.fibers f).ukernFiberHandle =
    (c.scheduler.fibers f).ukernFiberHandle

theorem Tracked.of_sameHandles {c : SchedulerSystem} (h : Tracked t) (hplaced : c.Placed)
    (hsame : SameHandles t.system c) : Tracked ⟨c, t.issued⟩ := by
  refine ⟨hplaced, ?_, ?_⟩
  · intro handle status hstatus
    obtain ⟨f, hf, hs, hh⟩ := h.alive handle status hstatus
    exact ⟨f, hsame.live ▸ hf, hs, (hsame.handle f).trans hh⟩
  · intro f hf hne
    rw [hsame.live] at hf
    rw [hsame.mainFiber] at hne
    rw [hsame.handle]
    exact h.issued f hf hne

/-- A record with the old handle changes no handle. -/
theorem handle_update {fibers : FiberId → FiberLocalStorage} {f : FiberId} {r : FiberLocalStorage}
    (h : r.ukernFiberHandle = (fibers f).ukernFiberHandle) (g : FiberId) :
    (Function.update fibers f r g).ukernFiberHandle = (fibers g).ukernFiberHandle := by
  by_cases hg : g = f
  · rw [hg, Function.update_self, h]
  · rw [Function.update_of_ne hg]

theorem handle_addToSchedulerUnsafe (s : UserScheduler) (f g : FiberId) :
    ((s.addToSchedulerUnsafe f).fibers g).ukernFiberHandle = (s.fibers g).ukernFiberHandle := by
  rw [addToSchedulerUnsafe_fibers]
  exact handle_update (by rfl) g

theorem handle_reschedule (s : UserScheduler) {f : FiberId} {r : FiberLocalStorage}
    (h : r.ukernFiberHandle = (s.fibers f).ukernFiberHandle) (g : FiberId) :
    (((s.modifyFiber f fun _ => r).reschedule f).fibers g).ukernFiberHandle =
      (s.fibers g).ukernFiberHandle := by
  rw [reschedule, handle_addToSchedulerUnsafe]
  exact handle_update h g

theorem handle_sleepThreadImpl (s : UserScheduler) (f g : FiberId) (absoluteTimeout : BitVec 64) :
    ((s.sleepThreadImpl f absoluteTimeout).fibers g).ukernFiberHandle =
      (s.fibers g).ukernFiberHandle := by
  rw [sleepThreadImpl_eq]
  exact handle_update (by rfl) g

theorem sameHandles_of_setter {c : SchedulerSystem} {f : FiberId} {r : FiberLocalStorage}
    {changed relisted : Prop} {s : UserScheduler}
    (hset : SetterCases c.scheduler f r changed relisted s)
    (hhandle : r.ukernFiberHandle = (c.scheduler.fibers f).ukernFiberHandle) :
    SameHandles c { c with scheduler := s } := by
  rcases hset with ⟨-, rfl⟩ | ⟨-, ⟨-, rfl⟩ | ⟨-, rfl⟩⟩
  · exact ⟨rfl, rfl, fun _ => rfl⟩
  · exact ⟨rfl, rfl, handle_reschedule _ hhandle⟩
  · exact ⟨rfl, rfl, handle_update hhandle⟩

/-- Handles are issued by creations only, and fibers die in exits only. -/
theorem sameHandles_of_perform {c c' : SchedulerSystem} (h : c.Placed)
    (hcall : c.perform call = some c')
    (hcreate : ∀ threadFunc stackSize priority coreId,
      call ≠ .createThread threadFunc stackSize priority coreId)
    (hexit : ∀ core, call ≠ .exitFiber core) : SameHandles c c' := by
  cases call with
  | createThread threadFunc stackSize priority coreId => exact (hcreate _ _ _ _ rfl).elim
  | setCoreMask f coreMask =>
      obtain ⟨⟨-, hf⟩, result, s, hset, rfl⟩ := perform_setCoreMask.mp hcall
      exact sameHandles_of_setter (setCoreMaskImpl_cases (h.getFiberByHandle hf) hset) (by rfl)
  | setActivity f activityLevel =>
      obtain ⟨⟨-, hf⟩, result, s, hset, rfl⟩ := perform_setActivity.mp hcall
      exact sameHandles_of_setter (setActivityImpl_cases (h.getFiberByHandle hf) hset) (by rfl)
  | sleepThread core absoluteTimeout =>
      obtain ⟨-, f, hrun, hsleep⟩ := perform_sleepThread.mp hcall
      rw [(h.sleepThreadImpl hrun absoluteTimeout).switchToScheduler_eq hrun hsleep]
      refine ⟨rfl, rfl, fun g => ?_⟩
      exact (handle_addToSchedulerUnsafe _ f g).trans (handle_sleepThreadImpl _ f g _)
  | exitFiber core => exact (hexit core rfl).elim
  | pass core tick =>
      rcases h.pass_eq (perform_pass.mp hcall).2 with ⟨f, l, -, -, rfl⟩ | ⟨-, rfl⟩
      · exact ⟨rfl, rfl, handle_update (by rfl)⟩
      · exact ⟨rfl, rfl, fun _ => rfl⟩
  | startCore core =>
      obtain ⟨-, rfl⟩ := perform_startCore.mp hcall
      exact ⟨rfl, rfl, fun _ => rfl⟩
  | wakeCore core =>
      obtain ⟨-, rfl⟩ := perform_wakeCore.mp hcall
      exact ⟨rfl, rfl, fun _ => rfl⟩

/-- A creation issues a handle that no live fiber has. -/
theorem Tracked.createThread (h : Tracked t) {threadFunc : Address} {stackSize : ℕ} {priority : ℤ}
    {coreId : ℕ} {c : SchedulerSystem}
    (hcall : t.system.createThread threadFunc stackSize priority coreId = .ok c) :
    Tracked ⟨c, t.track (.createThread threadFunc stackSize priority coreId)⟩ := by
  have hplaced := h.placed.createThread hcall
  obtain ⟨free, hfree⟩ := h.placed.slots
  obtain ⟨M, hrun, hlookup⟩ := h.placed.handles
  unfold SchedulerSystem.createThread at hcall
  rcases Placed.createThreadImpl_cases h.placed.filed (fun f => listOf_of_not_live) hfree hrun
      threadFunc stackSize priority coreId with ⟨result, he⟩ | ⟨f, rest, rfl, he⟩
  · rw [he] at hcall
    cases hcall
    simp only [track, he]
    exact h
  rcases he with ⟨result, he⟩ | ⟨handle, table, hnew, hrun', hpriority, he⟩
  · rw [he] at hcall
    cases hcall
    simp only [track, he]
    exact h.of_sameHandles hplaced ⟨rfl, rfl, fun _ => rfl⟩
  · have hhead : t.system.scheduler.userFiberLocalAllocator.freeList = some f := hfree.chain.1
    have hf : f ∉ t.system.live := hfree.notLive f (by simp)
    have hne : ∀ g ∈ t.system.live, g ≠ f := fun g hg hgf => hf (hgf ▸ hg)
    have hold : ∀ g ∈ t.system.live,
        (t.system.scheduler.fibers g).ukernFiberHandle ≠ handle := by
      intro g hg hhandle
      exact hnew (Finmap.mem_iff.mpr ⟨g, hhandle ▸ hlookup g hg⟩)
    rw [he, ok_bind, hhead] at hcall
    cases hcall
    simp only [track, he, hhead]
    refine ⟨hplaced, ?_, ?_⟩
    · intro other status hother
      change Function.update t.issued handle (some (.alive f)) other = some status at hother
      by_cases ho : other = handle
      · subst ho
        rw [Function.update_self] at hother
        cases hother
        exact ⟨f, Finset.mem_insert_self f _, rfl, by simp [Placed.createdRecord]⟩
      · rw [Function.update_of_ne ho] at hother
        obtain ⟨g, hg, hs, hh⟩ := h.alive other status hother
        exact ⟨g, Finset.mem_insert_of_mem hg, hs, by simpa [hne g hg] using hh⟩
    · intro g hg hmain
      rcases Finset.mem_insert.mp hg with rfl | hg
      · simp [Placed.createdRecord]
      · simpa [hne g hg, hold g hg] using h.issued g hg hmain

/-- The steps that may be taken. -/
def NoExit (_ : TrackedSystem) (call : SchedulerCall) : Prop := ∀ core, call ≠ .exitFiber core

theorem Tracked.next (h : Tracked t) (hexit : NoExit t call) (hnext : t.next call = some t') :
    Tracked t' := by
  obtain ⟨c, hcall, rfl⟩ := Option.map_eq_some_iff.mp hnext
  have hplaced := (Step.of_perform hcall).placed h.placed
  cases call with
  | createThread threadFunc stackSize priority coreId =>
      exact h.createThread (perform_createThread.mp hcall).2
  | exitFiber core => exact (hexit core rfl).elim
  | _ => exact h.of_sameHandles hplaced (sameHandles_of_perform h.placed hcall (by simp) (by simp))

/-! ### Exits -/

/-- The handle of a fiber that exits still finds the slot of the fiber. -/
theorem Tracked.not_followsLifetime_exit (h : Tracked t) {core : ℕ}
    (hnext : t.next (.exitFiber core) = some t') : ¬ t'.HandlesFollowLifetimes := by
  obtain ⟨c, hcall, rfl⟩ := Option.map_eq_some_iff.mp hnext
  obtain ⟨-, f, hrun, huser, hexit⟩ := perform_exitFiber.mp hcall
  obtain ⟨hf, -, -⟩ := (h.placed.running core f).mp hrun
  obtain ⟨a, -, rfl⟩ := h.placed.exitFiber_eq hrun huser hexit
  intro hfollows
  have hexited : t.track (.exitFiber core) (t.system.scheduler.fibers f).ukernFiberHandle =
      some .exited := by
    simp [track, runningFiber_eq_some.mpr hrun, h.issued f hf huser]
  have hnone : t.system.scheduler.getFiberByHandle
      (t.system.scheduler.fibers f).ukernFiberHandle = .ok none := (hfollows _ _ hexited).1
  rw [h.placed.getFiberByHandle hf] at hnone
  cases hnone

theorem tracked_of_reachable (hstart : initialSystem words coreMask = .ok start)
    (h : Machine.Reachable next NoExit (TrackedSystem.begin start) t) : Tracked t :=
  h.invariant (Tracked.begin hstart) fun ht hexit hnext => ht.next hexit hnext

/-- Handles follow the lifetime of their fibers in every state of a run if and only if no
fiber exits in it. -/
theorem handlesFollowLifetimes_iff (hstart : initialSystem words coreMask = .ok start)
    (calls : List SchedulerCall) :
    Machine.Always next HandlesFollowLifetimes (TrackedSystem.begin start) calls ↔
      Machine.EveryStep next NoExit (TrackedSystem.begin start) calls := by
  apply Machine.always_iff_everyStep (Tracked.begin hstart).handlesFollowLifetimes
  intro t t' call hreach _ hnext
  have htracked := tracked_of_reachable hstart hreach
  constructor
  · rintro hfollows core rfl
    exact htracked.not_followsLifetime_exit hnext hfollows
  · intro hexit
    exact (htracked.next hexit hnext).handlesFollowLifetimes

/-- A thread is created and started, and the main fiber yields to it. -/
def yieldRun : List SchedulerCall :=
  [.createThread 1 1 1 0, .setActivity 1 1, .sleepThread 0 0, .pass 0 1]

theorem handlesFollowLifetimes_iff_yieldRun : ∃ start t,
    initialSystem (fun _ => 0) 1 = .ok start ∧
    Machine.run next (TrackedSystem.begin start) yieldRun = some t ∧
    t.issued 0x100fe = some (.alive 1) ∧
    Machine.Always next HandlesFollowLifetimes (TrackedSystem.begin start) yieldRun := by
  have hrun : ((initialSystem (fun _ => 0) 1).toOption.bind fun c =>
      Machine.run next (TrackedSystem.begin c) yieldRun).any
        (fun t => decide (t.issued 0x100fe = some (.alive 1))) = true := by
    decide +kernel
  obtain ⟨t, ht, hissued⟩ := (Option.any_eq_true _ _).mp hrun
  obtain ⟨start, hstart, hrun⟩ := Option.bind_eq_some_iff.mp ht
  rw [toOption_eq_some] at hstart
  refine ⟨start, t, hstart, hrun, by simpa using hissued, ?_⟩
  refine (handlesFollowLifetimes_iff hstart _).mpr fun bs call u u' hprefix _ _ core => ?_
  have hmem : call ∈ yieldRun := hprefix.subset (by simp)
  rintro rfl
  simp [yieldRun] at hmem

/-- The thread exits and its slot is given to another thread. -/
def exitRun : List SchedulerCall :=
  yieldRun ++ [.exitFiber 0, .pass 0 1, .createThread 1 1 1 0]

/-- The handle of the first thread finds the slot of the second, and `ExitThreadImpl` would
wait for it. -/
theorem exited_handle_finds_other_fiber : ∃ start t,
    initialSystem (fun _ => 0) 1 = .ok start ∧
    Machine.run next (TrackedSystem.begin start) exitRun = some t ∧
    t.issued 0x100fe = some .exited ∧
    t.system.scheduler.getFiberByHandle 0x100fe = .ok (some 1) ∧
    t.issued 0x180fd = some (.alive 1) ∧
    t.system.scheduler.exitThreadWaits 0x100fe = .ok true ∧
    ¬ Machine.Always next HandlesFollowLifetimes (TrackedSystem.begin start) exitRun := by
  have hrun : ((initialSystem (fun _ => 0) 1).toOption.bind fun c =>
      Machine.run next (TrackedSystem.begin c) exitRun).any
        (fun t => decide (t.issued 0x100fe = some .exited) &&
          (decide ((t.system.scheduler.getFiberByHandle 0x100fe).toOption = some (some 1)) &&
          decide (t.issued 0x180fd = some (.alive 1)))) = true := by
    decide +kernel
  obtain ⟨t, ht, hfacts⟩ := (Option.any_eq_true _ _).mp hrun
  obtain ⟨start, hstart, hrun⟩ := Option.bind_eq_some_iff.mp ht
  simp only [Bool.and_eq_true, decide_eq_true_eq, toOption_eq_some] at hfacts hstart
  obtain ⟨hexited, hfound, hother⟩ := hfacts
  refine ⟨start, t, hstart, hrun, hexited, hfound, hother, ?_, ?_⟩
  · rw [exitThreadWaits, hfound]
    rfl
  · intro halways
    have hnone := (halways _ t (List.prefix_refl _) hrun 0x100fe _ hexited).1
    rw [hfound] at hnone
    cases hnone

end TrackedSystem

end DDFramework
