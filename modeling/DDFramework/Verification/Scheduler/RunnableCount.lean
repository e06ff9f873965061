import DDFramework.Model.SchedulerService
import DDFramework.Verification.Scheduler.Calls
import DDFramework.Verification.Scheduler.UncontendedCalls

/-! # The runnable count

`m_runnable_fibers` is only ever incremented. It agrees with the run lists as long as no
fiber leaves one of them. -/

namespace DDFramework.SchedulerSystem

open UserScheduler

variable {c c' d : SchedulerSystem} {f : FiberId}

/-! ### Exactness -/

/-- The count is the number of fibers on the five run lists, and the deadlock check of the last
core is right. -/
structure RunnableCountExact (c : SchedulerSystem) : Prop where
  count : ∃ queue : RunList → List FiberId,
    (∀ l, c.scheduler.links.Ring (.runList l) ((queue l).map .schedulerListNode)) ∧
    c.scheduler.runnableFibers.toNat = (runListOrder.map fun l => (queue l).length).sum
  deadlock : c.scheduler.restCore = .error .assertFailed ↔
    c.scheduler.activeCores - 1 = 0 ∧ ∀ l, c.scheduler.links.isEmpty (.runList l)

/-- The live fibers that are on a run list. -/
def scheduledFibers (c : SchedulerSystem) : Finset FiberId :=
  c.live.filter fun f => (c.scheduler.fibers f).fiberState = .scheduled

theorem mem_scheduledFibers :
    f ∈ c.scheduledFibers ↔ f ∈ c.live ∧ (c.scheduler.fibers f).fiberState = .scheduled :=
  Finset.mem_filter

/-- A scheduled fiber is on the run list of its priority. -/
theorem Placed.mem_scheduledFibers_iff (h : Placed c) :
    f ∈ c.scheduledFibers ↔ ∃ l, c.listOf f = some (.runList l) := by
  rw [mem_scheduledFibers]
  constructor
  · rintro ⟨hf, hstate⟩
    obtain ⟨l, hl⟩ := Option.isSome_iff_exists.mp (h.settled f hf).priority
    exact ⟨l, by simp [listOf_of_live hf, recordList, hstate, hl]⟩
  · rintro ⟨l, hl⟩
    have hf := live_of_listOf hl
    rw [listOf_of_live hf] at hl
    exact ⟨hf, (recordList_eq_runList hl).1⟩

/-- The run lists hold each scheduled fiber once. -/
theorem Placed.sum_length_queues (h : Placed c) {queue : RunList → List FiberId}
    (hr : ∀ l, c.scheduler.links.Ring (.runList l) ((queue l).map .schedulerListNode)) :
    (runListOrder.map fun l => (queue l).length).sum = c.scheduledFibers.card := by
  have hmem : ∀ l f, f ∈ queue l ↔ c.listOf f = some (.runList l) :=
    fun l f => h.filed.mem_ring_iff (Node.isSchedulerList_runList l) (hr l) f
  have hnodup : (runListOrder.flatMap queue).Nodup := by
    refine List.nodup_flatMap.mpr ⟨fun l _ => (List.nodup_cons.mp (hr l).nodup).2.of_map, ?_⟩
    have hdistinct : runListOrder.Nodup := by decide
    refine hdistinct.imp fun {l l'} hne f hf hf' => hne ?_
    rw [hmem] at hf hf'
    rw [hf] at hf'
    simpa using hf'
  have hfinset : (runListOrder.flatMap queue).toFinset = c.scheduledFibers := by
    ext f
    rw [List.mem_toFinset, List.mem_flatMap, h.mem_scheduledFibers_iff]
    constructor
    · rintro ⟨l, -, hl⟩
      exact ⟨l, (hmem l f).mp hl⟩
    · rintro ⟨l, hl⟩
      exact ⟨l, Placed.mem_runListOrder l, (hmem l f).mpr hl⟩
  rw [← hfinset, List.toFinset_card_of_nodup hnodup, List.length_flatMap]

/-- Between two steps the count is exact if it is the number of scheduled fibers. -/
theorem Placed.runnableCountExact_iff (h : Placed c) :
    RunnableCountExact c ↔ c.scheduler.runnableFibers.toNat = c.scheduledFibers.card := by
  constructor
  · rintro ⟨⟨queue, hr, hcount⟩, -⟩
    rw [hcount, h.sum_length_queues hr]
  · intro hcount
    choose queue hr hmem using fun l : RunList =>
      h.filed.ring (.runList l) (Node.isSchedulerList_runList l)
    refine ⟨⟨queue, hr, by rw [hcount, h.sum_length_queues hr]⟩, ?_⟩
    have hzero : c.scheduler.runnableFibers = 0 ↔
        ∀ l, c.scheduler.links.isEmpty (.runList l) = true := by
      rw [← BitVec.toNat_inj, hcount, ← h.sum_length_queues hr]
      simp only [(hr _).isEmpty_eq, List.isEmpty_iff, List.map_eq_nil_iff]
      constructor
      · intro hsum l
        cases l <;> simp_all [runListOrder]
      · intro hnil
        simp [hnil]
    rw [← hzero]
    unfold restCore
    dsimp only
    split
    · rename_i hdeadlock
      exact ⟨fun _ => hdeadlock.symm, fun _ => rfl⟩
    · rename_i hdeadlock
      simp only [reduceCtorEq, false_iff]
      exact fun hboth => hdeadlock hboth.symm

/-! ### How the count and the scheduled fibers change -/

theorem Placed.card_scheduledFibers_le (h : Placed c) : c.scheduledFibers.card ≤ maxThreadCount := by
  have hsub : c.scheduledFibers ⊆ Finset.range maxThreadCount := by
    intro f hf
    exact Finset.mem_range.mpr (h.live_lt f (mem_scheduledFibers.mp hf).1)
  simpa using Finset.card_le_card hsub

/-- One record changes. -/
theorem scheduledFibers_update {r : FiberLocalStorage} (hf : f ∈ c.live)
    (hlive : c'.live = c.live)
    (hfibers : c'.scheduler.fibers = Function.update c.scheduler.fibers f r) :
    c'.scheduledFibers =
      if r.fiberState = .scheduled then insert f c.scheduledFibers
      else c.scheduledFibers.erase f := by
  ext g
  by_cases hg : g = f
  · subst hg
    split
    · rename_i hstate
      simp [mem_scheduledFibers, hlive, hfibers, hf, hstate]
    · rename_i hstate
      simp [mem_scheduledFibers, hlive, hfibers, hstate]
  · have hsame : g ∈ c'.scheduledFibers ↔ g ∈ c.scheduledFibers := by
      simp [mem_scheduledFibers, hlive, hfibers, hg]
    split
    · simp [hsame, hg]
    · simp [hsame, hg]

/-- `AddToSchedulerUnsafe` counts right for the fibers that are on no run list yet. -/
theorem Placed.count_add_iff (h : Placed c) {r : FiberLocalStorage} (hf : f ∈ c.live)
    (hlive : c'.live = c.live)
    (hfibers : c'.scheduler.fibers = Function.update c.scheduler.fibers f (homedRecord r))
    (hcount : c'.scheduler.runnableFibers =
      if r.activityLevel = activityLevelSuspended then c.scheduler.runnableFibers
      else c.scheduler.runnableFibers + 1)
    (hexact : c.scheduler.runnableFibers.toNat = c.scheduledFibers.card) :
    c'.scheduler.runnableFibers.toNat = c'.scheduledFibers.card ↔
      (c.scheduler.fibers f).fiberState ≠ .scheduled := by
  have hmem : f ∈ c.scheduledFibers ↔ (c.scheduler.fibers f).fiberState = .scheduled := by
    simp [mem_scheduledFibers, hf]
  have hle := h.card_scheduledFibers_le
  have hsmall : maxThreadCount < 4294967295 := by decide
  rw [scheduledFibers_update hf hlive hfibers, hcount, ne_eq, ← hmem]
  by_cases hlevel : r.activityLevel = activityLevelSuspended
  · have hstate : ¬ (homedRecord r).fiberState = .scheduled := by simp [homedRecord, homeState, hlevel]
    rw [if_pos hlevel, if_neg hstate, hexact]
    by_cases hin : f ∈ c.scheduledFibers
    · have hpos := Finset.card_pos.mpr ⟨f, hin⟩
      rw [Finset.card_erase_of_mem hin]
      simp only [hin, not_true_eq_false, iff_false]
      omega
    · simp [hin]
  · have hstate : (homedRecord r).fiberState = .scheduled := by simp [homedRecord, homeState, hlevel]
    have hnext : (c.scheduler.runnableFibers + 1).toNat = c.scheduledFibers.card + 1 := by
      have hone : (1 : BitVec 32).toNat = 1 := rfl
      rw [BitVec.toNat_add, hexact, hone]
      exact Nat.mod_eq_of_lt (by omega)
    rw [if_neg hlevel, if_pos hstate, hnext]
    by_cases hin : f ∈ c.scheduledFibers
    · simp [hin]
    · simp [hin, Finset.card_insert_of_notMem]

/-- A fiber leaves its run list and the count stays the same. -/
theorem count_leave {r : FiberLocalStorage} (hf : f ∈ c.live) (hlive : c'.live = c.live)
    (hfibers : c'.scheduler.fibers = Function.update c.scheduler.fibers f r)
    (hstate : r.fiberState ≠ .scheduled)
    (hcount : c'.scheduler.runnableFibers = c.scheduler.runnableFibers)
    (hexact : c.scheduler.runnableFibers.toNat = c.scheduledFibers.card)
    (hscheduled : (c.scheduler.fibers f).fiberState = .scheduled) :
    c'.scheduler.runnableFibers.toNat ≠ c'.scheduledFibers.card := by
  have hin : f ∈ c.scheduledFibers := mem_scheduledFibers.mpr ⟨hf, hscheduled⟩
  have hpos := Finset.card_pos.mpr ⟨f, hin⟩
  rw [scheduledFibers_update hf hlive hfibers, if_neg hstate, Finset.card_erase_of_mem hin, hcount,
    hexact]
  omega

/-! ### What the count depends on -/

/-- The call neither blocks its fiber nor stores a priority that has no run list. -/
def Undisturbed (c : SchedulerSystem) : ServiceCall → Prop
  | .setPriority _ priority => (-2 ≤ priority ∧ priority ≤ 2) ∨ (runListOf priority).isSome
  | .arbitrateLock core handle lockAddress _ =>
      ∀ f g, c.contexts core = .running f → c.scheduler.getFiberByHandle handle = .ok (some g) →
        g ≠ f → lockAddress ≠ 0 → c.scheduler.words lockAddress ≠ handle ||| hasChildWaitersBit
  | .waitForAddressIfEqual _ waitAddress value absoluteTimeout =>
      waitAddress ≠ 0 → c.scheduler.words waitAddress = value → absoluteTimeout.toInt ≤ 0
  | .waitForAddressIfLessThan _ waitAddress value absoluteTimeout _ =>
      waitAddress ≠ 0 → c.scheduler.words waitAddress < value → absoluteTimeout.toInt ≤ 0
  | _ => True

/-- No fiber leaves a run list: the pass finds nobody to dispatch, and the setters do not
change a scheduled fiber. -/
def CountKept (c : SchedulerSystem) : ServiceCall → Prop
  | .setPriority handle priority =>
      ∀ f, c.scheduler.getFiberByHandle handle = .ok (some f) →
        ¬ (-2 ≤ priority ∧ priority ≤ 2) → (c.scheduler.fibers f).priority ≠ priority →
        (c.scheduler.fibers f).fiberState ≠ .scheduled
  | .setCoreMask handle coreMask =>
      ∀ f, c.scheduler.getFiberByHandle handle = .ok (some f) →
        (c.scheduler.fibers f).coreMask ≠ coreMask →
        (c.scheduler.fibers f).fiberState ≠ .scheduled
  | .setActivity handle activityLevel =>
      ∀ f, c.scheduler.getFiberByHandle handle = .ok (some f) →
        (c.scheduler.fibers f).activityLevel ≠ activityLevel →
        (c.scheduler.fibers f).fiberState ≠ .scheduled
  | .pass core tick => ∀ f ∈ c.live, ¬ c.scheduler.Eligible core tick f
  | _ => True

/-- The invariant: nobody has been dispatched, so that only the main fiber runs and nobody
has exited, and the count is exact. -/
structure Counted (c : SchedulerSystem) : Prop where
  placed : Placed c
  handles : ∃ M, HandleTable.Run c.scheduler.handleTable M ∧
    ∀ handle f, M.lookup handle = some f → f ∈ c.live
  onlyMain : ∀ core f, c.contexts core = .running f → f = c.mainFiber
  count : c.scheduler.runnableFibers.toNat = c.scheduledFibers.card

namespace Counted

theorem live_of_getFiberByHandle (h : Counted c) {handle : UKernHandle}
    (hget : c.scheduler.getFiberByHandle handle = .ok (some f)) : f ∈ c.live := by
  obtain ⟨M, hrun, hlive⟩ := h.handles
  exact hlive handle f (hrun.lookup_of_getObjectByHandle hget)

theorem findWaiter (h : Counted c) (words : Address → BitVec 32) (address : Address) :
    { c.scheduler with words := words }.findWaiter passFuel address = .ok none := by
  apply findWaiter_of_empty
  · exact h.placed.filed.coherent
  · exact h.placed.filed.next_list trivial c.listOf_ne_waitList

theorem isEmpty_fiberWaitList (h : Counted c) (f : FiberId) :
    c.scheduler.links.isEmpty (.fiberWaitList f) = true :=
  Links.isEmpty_iff.mpr (h.placed.filed.waitList f)

/-- The states of the fibers, and so the count, stay the same. -/
theorem of_same (h : Counted c) (hplaced : Placed d) (hlive : d.live = c.live)
    (htable : d.scheduler.handleTable = c.scheduler.handleTable)
    (hmain : d.mainFiber = c.mainFiber)
    (hcontexts : ∀ core f, d.contexts core = .running f → c.contexts core = .running f)
    (hstate : ∀ f, (d.scheduler.fibers f).fiberState = (c.scheduler.fibers f).fiberState)
    (hcount : d.scheduler.runnableFibers = c.scheduler.runnableFibers) : Counted d := by
  refine ⟨hplaced, ?_, ?_, ?_⟩
  · rw [htable, hlive]
    exact h.handles
  · intro core f hrun
    rw [hmain]
    exact h.onlyMain core f (hcontexts core f hrun)
  · have hsame : d.scheduledFibers = c.scheduledFibers := by
      ext g
      simp [mem_scheduledFibers, hlive, hstate]
    rw [hcount, hsame]
    exact h.count

theorem setWords (h : Counted c) {s : UserScheduler} (hs : OnlyWords c.scheduler s) :
    Counted (c.setScheduler s) := by
  obtain ⟨words, rfl⟩ := hs
  exact ⟨⟨h.placed.filed, h.placed.settled, h.placed.noWait, h.placed.running, h.placed.slots,
    h.placed.live_lt, h.placed.handles, h.placed.first⟩, h.handles, h.onlyMain, h.count⟩

/-- The running fiber gets on a list. -/
theorem switchToScheduler (h : Counted c) {core : ℕ} (hrun : c.contexts core = .running f)
    (hcall : c.switchToScheduler f = .ok c') : Counted c' := by
  have hplaced := h.placed.switchToScheduler hrun hcall
  obtain ⟨hf, hstate, -⟩ := (h.placed.running core f).mp hrun
  rw [h.placed.switchToScheduler_eq hrun hcall] at hplaced ⊢
  refine ⟨hplaced, ?_, ?_, ?_⟩
  · simpa using h.handles
  · intro k g hg
    by_cases hk : k = core
    · simp [hk] at hg
    · change Function.update c.contexts core .scheduling k = .running g at hg
      rw [Function.update_of_ne hk] at hg
      exact h.onlyMain k g hg
  · refine (h.placed.count_add_iff (r := c.scheduler.fibers f) hf ?_ ?_ ?_ h.count).mpr ?_
    · rfl
    · exact addToSchedulerUnsafe_fibers _ _
    · exact addToSchedulerUnsafe_runnableFibers _ _
    · simp [hstate]

theorem finish (h : Counted c) {core : ℕ} (hrun : c.contexts core = .running f)
    {p : CallExit × UserScheduler} (hp : OnlyWords c.scheduler p.2)
    (hcall : c.finish f p = .ok c') : Counted c' := by
  obtain ⟨exit, s⟩ := p
  cases exit with
  | returns result =>
      cases hcall
      exact h.setWords hp
  | switches result => exact (h.setWords hp).switchToScheduler hrun hcall

theorem createThread (h : Counted c) {threadFunc : Address} {stackSize : ℕ} {priority : ℤ}
    {coreId : ℕ} (hcall : c.createThread threadFunc stackSize priority coreId = .ok c') :
    Counted c' := by
  have hplaced := h.placed.createThread hcall
  obtain ⟨M, hrun, hlive⟩ := h.handles
  rcases h.placed.createThread_eq hrun hcall with
    ⟨allocator, hslots, rfl⟩ | ⟨f, allocator, table, handle, hf, -, -, hrun', hnew, -, rfl⟩
  · exact h.of_same hplaced rfl rfl rfl (fun _ _ hg => hg) (fun _ => rfl) rfl
  · refine ⟨hplaced, ⟨_, hrun', ?_⟩, h.onlyMain, ?_⟩
    · intro other g hg
      by_cases ho : other = handle
      · subst ho
        rw [Finmap.lookup_insert, Option.some.injEq] at hg
        exact hg ▸ Finset.mem_insert_self f _
      · rw [Finmap.lookup_insert_of_ne _ ho] at hg
        exact Finset.mem_insert_of_mem (hlive other g hg)
    · refine h.count.trans (congrArg Finset.card ?_)
      ext g
      by_cases hg : g = f
      · simp [mem_scheduledFibers, hg, hf, Placed.createdRecord]
      · simp [mem_scheduledFibers, hg]

/-- A pass that dispatches takes a fiber from a run list without counting it. -/
theorem pass_iff (h : Counted c) {core : ℕ} {tick : BitVec 64}
    (hcontext : c.contexts core = .scheduling) (hcall : c.pass core tick = .ok c') :
    ((∀ f ∈ c.live, ¬ c.scheduler.Eligible core tick f) → Counted c') ∧
    (c'.scheduler.runnableFibers.toNat = c'.scheduledFibers.card →
      ∀ f ∈ c.live, ¬ c.scheduler.Eligible core tick f) := by
  have hplaced := h.placed.pass hcontext hcall
  rcases h.placed.pass_eq hcall with ⟨f, l, hl, heligible, rfl⟩ | ⟨hnobody, rfl⟩
  · have hf := live_of_listOf hl
    refine ⟨fun hnobody => (hnobody f hf heligible).elim, fun hcount => ?_⟩
    let dispatched : FiberLocalStorage :=
      { c.scheduler.fibers f with fiberState := .running, currentCore := core }
    refine absurd hcount (count_leave (r := dispatched) hf ?_ ?_ ?_ ?_ h.count heligible.scheduled)
    · rfl
    · rfl
    · simp [dispatched]
    · rfl
  · refine ⟨fun _ => ?_, fun _ => hnobody⟩
    refine h.of_same hplaced rfl rfl rfl (fun k g hg => ?_) (fun _ => rfl) rfl
    by_cases hk : k = core
    · simp [hk] at hg
    · simpa [hk] using hg

/-- A core enters the scheduler. -/
theorem enterScheduler (h : Counted c) {core : ℕ} (hidle : ∀ g, c.contexts core ≠ .running g)
    (activeCores : BitVec 32) :
    Counted { c with
      scheduler := { c.scheduler with activeCores := activeCores }
      contexts := Function.update c.contexts core .scheduling
      lockOwner := some core } := by
  refine h.of_same (h.placed.enterScheduler hidle activeCores) rfl rfl rfl (fun k g hg => ?_)
    (fun _ => rfl) rfl
  by_cases hk : k = core
  · simp [hk] at hg
  · simpa [hk] using hg

theorem sleepThread (h : Counted c) {core : ℕ} (hrun : c.contexts core = .running f)
    {absoluteTimeout : BitVec 64} (hcall : c.sleepThread f absoluteTimeout = .ok c') :
    Counted c' := by
  have hset : Counted (c.setScheduler (c.scheduler.sleepThreadImpl f absoluteTimeout)) := by
    have hplaced := h.placed.sleepThreadImpl hrun absoluteTimeout
    rw [sleepThreadImpl_eq] at hplaced ⊢
    refine h.of_same hplaced rfl rfl rfl (fun _ _ hg => hg) (fun g => ?_) rfl
    by_cases hg : g = f
    · simp [setScheduler, sleepingRecord, hg]
    · simp [setScheduler, hg]
  exact hset.switchToScheduler hrun hcall

end Counted

theorem serveReturning_eq_some {call : Except Fault (Result × UserScheduler)} :
    c.serveReturning call = some c' ↔
      c.lockOwner = none ∧ ∃ result s, call = .ok (result, s) ∧ c.setScheduler s = c' := by
  simp only [serveReturning, Option.ite_none_right_eq_some, Option.map_eq_some_iff,
    toOption_eq_some, Prod.exists]

theorem serveCurrent_eq_some {core : ℕ} {call : FiberId → Except Fault SchedulerSystem} :
    c.serveCurrent core call = some c' ↔
      c.lockOwner = none ∧ ∃ f, c.contexts core = .running f ∧ call f = .ok c' := by
  simp only [serveCurrent, Option.ite_none_right_eq_some, Option.bind_eq_some_iff,
    toOption_eq_some, runningFiber_eq_some]

/-- What the invariant says about the state after a call. -/
structure Serves (c : SchedulerSystem) (call : ServiceCall) (c' : SchedulerSystem) : Prop where
  placed : Placed c'
  counted : CountKept c call → Counted c'
  kept : c'.scheduler.runnableFibers.toNat = c'.scheduledFibers.card → CountKept c call

namespace Counted

variable {call : ServiceCall}

theorem serves (h : Counted c') (hkept : CountKept c call) : Serves c call c' :=
  ⟨h.placed, fun _ => h, fun _ => hkept⟩

theorem count_reschedule_iff (h : Counted c) (hf : f ∈ c.live) (r : FiberLocalStorage) :
    let s := (c.scheduler.modifyFiber f fun _ => r).reschedule f
    (c.setScheduler s).scheduler.runnableFibers.toNat = (c.setScheduler s).scheduledFibers.card ↔
      (c.scheduler.fibers f).fiberState ≠ .scheduled := by
  refine h.placed.count_add_iff (r := r) hf rfl ?_ ?_ h.count
  · simp [setScheduler, reschedule, addToSchedulerUnsafe_fibers, homedRecord]
  · simp [setScheduler, reschedule, addToSchedulerUnsafe_runnableFibers]

/-- A change of a fiber that is not scheduled keeps the count, and a scheduled fiber is counted
once more or leaves its list. -/
theorem serves_setter (h : Counted c) {handle : UKernHandle} {s : UserScheduler}
    (record : FiberId → FiberLocalStorage) (changed relisted : FiberId → Prop)
    (hnone : (∀ f, c.scheduler.getFiberByHandle handle ≠ .ok (some f)) → s = c.scheduler)
    (hsome : ∀ f, c.scheduler.getFiberByHandle handle = .ok (some f) →
      SetterCases c.scheduler f (record f) (changed f) (relisted f) s ∧
        Placed (c.setScheduler s))
    (hstate : ∀ f, (record f).fiberState = (c.scheduler.fibers f).fiberState)
    (hrelisted : ∀ f, (c.scheduler.fibers f).fiberState = .scheduled → relisted f)
    (hkept : CountKept c call ↔ ∀ f, c.scheduler.getFiberByHandle handle = .ok (some f) →
      changed f → (c.scheduler.fibers f).fiberState ≠ .scheduled) :
    Serves c call (c.setScheduler s) := by
  by_cases hfound : ∃ f, c.scheduler.getFiberByHandle handle = .ok (some f)
  · obtain ⟨f, hget⟩ := hfound
    have honly : ∀ g, c.scheduler.getFiberByHandle handle = .ok (some g) → g = f := by
      intro g hg
      rw [hget] at hg
      cases hg
      rfl
    have hf := h.live_of_getFiberByHandle hget
    obtain ⟨⟨hsame, rfl⟩ | ⟨hchanged, ⟨-, rfl⟩ | ⟨hnot, rfl⟩⟩, hplaced⟩ := hsome f hget
    · exact h.serves (hkept.mpr fun g hg hchanged => (hsame (honly g hg ▸ hchanged)).elim)
    · have hiff := h.count_reschedule_iff hf (record f)
      refine ⟨hplaced, fun hall => ⟨hplaced, ?_, h.onlyMain, ?_⟩, fun hcount => ?_⟩
      · simpa [setScheduler, reschedule] using h.handles
      · exact hiff.mpr (hkept.mp hall f hget hchanged)
      · exact hkept.mpr fun g hg _ => honly g hg ▸ hiff.mp hcount
    · have hunlisted : (c.scheduler.fibers f).fiberState ≠ .scheduled :=
        fun hscheduled => hnot (hrelisted f hscheduled)
      refine serves (h.of_same hplaced rfl rfl rfl (fun _ _ hg => hg) (fun g => ?_) rfl)
        (hkept.mpr fun g hg _ => honly g hg ▸ hunlisted)
      by_cases hg : g = f
      · simp [setScheduler, hg, hstate]
      · simp [setScheduler, hg]
  · rw [not_exists] at hfound
    rw [hnone hfound]
    exact h.serves (hkept.mpr fun f hf => (hfound f hf).elim)

theorem serves_setPriority (h : Counted c) {handle : UKernHandle} {priority : ℤ}
    (hcalm : c.Undisturbed (.setPriority handle priority)) {result : Result} {s : UserScheduler}
    (hcall : c.scheduler.setPriorityImpl handle priority = .ok (result, s)) :
    Serves c (.setPriority handle priority) (c.setScheduler s) := by
  apply h.serves_setter (fun f => { c.scheduler.fibers f with priority := priority })
    (fun f => ¬ (-2 ≤ priority ∧ priority ≤ 2) ∧ (c.scheduler.fibers f).priority ≠ priority)
    (fun f => (c.scheduler.fibers f).fiberState = .scheduled)
  · intro hnone
    unfold UserScheduler.setPriorityImpl at hcall
    split at hcall
    · cases hcall
      rfl
    · obtain ⟨o, hget, hcall⟩ := bind_eq_ok_iff.mp hcall
      cases o with
      | none =>
          cases hcall
          rfl
      | some f => exact (hnone f hget).elim
  · intro f hget
    have hf := h.live_of_getFiberByHandle hget
    exact ⟨setPriorityImpl_cases hget hcall, h.placed.setPriorityImpl hf hget hcalm hcall⟩
  · exact fun _ => rfl
  · exact fun _ => id
  · simp only [CountKept, and_imp]

theorem serves_setCoreMask (h : Counted c) {handle : UKernHandle} {coreMask : BitVec 64}
    {result : Result} {s : UserScheduler}
    (hcall : c.scheduler.setCoreMaskImpl handle coreMask = .ok (result, s)) :
    Serves c (.setCoreMask handle coreMask) (c.setScheduler s) := by
  apply h.serves_setter (fun f => { c.scheduler.fibers f with coreMask := coreMask })
    (fun f => (c.scheduler.fibers f).coreMask ≠ coreMask)
    (fun f => (c.scheduler.fibers f).fiberState = .scheduled)
  · intro hnone
    unfold UserScheduler.setCoreMaskImpl at hcall
    obtain ⟨o, hget, hcall⟩ := bind_eq_ok_iff.mp hcall
    cases o with
    | none =>
        cases hcall
        rfl
    | some f => exact (hnone f hget).elim
  · intro f hget
    have hf := h.live_of_getFiberByHandle hget
    exact ⟨setCoreMaskImpl_cases hget hcall, h.placed.setCoreMaskImpl hf hget hcall⟩
  · exact fun _ => rfl
  · exact fun _ => id
  · exact Iff.rfl

theorem serves_setActivity (h : Counted c) {handle : UKernHandle} {activityLevel : BitVec 16}
    {result : Result} {s : UserScheduler}
    (hcall : c.scheduler.setActivityImpl handle activityLevel = .ok (result, s)) :
    Serves c (.setActivity handle activityLevel) (c.setScheduler s) := by
  apply h.serves_setter (fun f => { c.scheduler.fibers f with activityLevel := activityLevel })
    (fun f => (c.scheduler.fibers f).activityLevel ≠ activityLevel)
    (fun f => (c.scheduler.fibers f).fiberState = .scheduled ∨
      (c.scheduler.fibers f).fiberState = .suspended)
  · intro hnone
    unfold UserScheduler.setActivityImpl at hcall
    obtain ⟨o, hget, hcall⟩ := bind_eq_ok_iff.mp hcall
    cases o with
    | none =>
        cases hcall
        rfl
    | some f => exact (hnone f hget).elim
  · intro f hget
    have hf := h.live_of_getFiberByHandle hget
    exact ⟨setActivityImpl_cases hget hcall, h.placed.setActivityImpl hf hget hcall⟩
  · exact fun _ => rfl
  · exact fun _ => Or.inl
  · exact Iff.rfl

/-- A call of the running fiber that changes words only. -/
theorem serves_current (h : Counted c) {core : ℕ}
    {impl : FiberId → Except Fault (CallExit × UserScheduler)} (hkept : CountKept c call)
    (hwords : ∀ f p, c.contexts core = .running f → impl f = .ok p → OnlyWords c.scheduler p.2)
    (hserve : c.serveCurrent core (fun f => impl f >>= c.finish f) = some c') :
    Serves c call c' := by
  obtain ⟨-, f, hrun, hcall⟩ := serveCurrent_eq_some.mp hserve
  obtain ⟨p, hp, hfinish⟩ := bind_eq_ok_iff.mp hcall
  exact (h.finish hrun (hwords f p hrun hp) hfinish).serves hkept

theorem serves_returning (h : Counted c) {impl : Except Fault (Result × UserScheduler)}
    (hkept : CountKept c call)
    (hwords : ∀ p, impl = .ok p → OnlyWords c.scheduler p.2)
    (hserve : c.serveReturning impl = some c') : Serves c call c' := by
  obtain ⟨-, result, s, hcall, rfl⟩ := serveReturning_eq_some.mp hserve
  exact (h.setWords (hwords _ hcall)).serves hkept

/-- The calls one by one. Nobody waits, so that a call of the wait interface that does not
block changes words only. -/
theorem serve (h : Counted c) (hcalm : Undisturbed c call) (hserve : c.serve call = some c') :
    Serves c call c' := by
  have hempty := h.isEmpty_fiberWaitList
  have hfind := h.findWaiter c.scheduler.words
  cases call with
  | createThread threadFunc stackSize priority coreId =>
      exact (h.createThread (perform_createThread.mp hserve).2).serves trivial
  | setPriority handle priority =>
      obtain ⟨-, result, s, hcall, rfl⟩ := serveReturning_eq_some.mp hserve
      exact h.serves_setPriority hcalm hcall
  | setCoreMask handle coreMask =>
      obtain ⟨-, result, s, hcall, rfl⟩ := serveReturning_eq_some.mp hserve
      exact h.serves_setCoreMask hcall
  | setActivity handle activityLevel =>
      obtain ⟨-, result, s, hcall, rfl⟩ := serveReturning_eq_some.mp hserve
      exact h.serves_setActivity hcall
  | sleepThread core absoluteTimeout =>
      obtain ⟨-, f, hrun, hcall⟩ := perform_sleepThread.mp hserve
      exact (h.sleepThread hrun hcall).serves trivial
  | exitFiber core =>
      obtain ⟨-, f, hrun, huser, -⟩ := perform_exitFiber.mp hserve
      exact (huser (h.onlyMain core f hrun)).elim
  | arbitrateLock core handle lockAddress tag =>
      refine h.serves_current trivial (fun f p hrun hp => ?_) hserve
      exact arbitrateLockImpl_onlyWords (fun g => hcalm f g hrun) hp
  | arbitrateUnlock core lockAddress =>
      obtain ⟨-, f, hrun, hcall⟩ := serveCurrent_eq_some.mp hserve
      cases hunlock : c.scheduler.arbitrateUnlockImpl passFuel f lockAddress with
      | error fault =>
          rw [hunlock] at hcall
          cases hcall
      | ok q =>
          rw [hunlock] at hcall
          cases hcall
          exact (h.setWords (arbitrateUnlockImpl_onlyWords (hempty f) hunlock)).serves trivial
  | waitKey core lockAddress cvKey tag absoluteTimeout =>
      refine h.serves_current trivial (fun f p _ hp => ?_) hserve
      exact waitKeyImpl_onlyWords (hempty f) hp
  | signalKey cvKey signalCount =>
      refine h.serves_returning trivial (fun q hq => ?_) hserve
      exact signalKeyImpl_onlyWords (hfind cvKey) hq
  | waitForAddressIfEqual core waitAddress value absoluteTimeout =>
      refine h.serves_current trivial (fun f p _ hp => ?_) hserve
      exact waitForAddressIfEqualImpl_onlyWords hcalm hp
  | waitForAddressIfLessThan core waitAddress value absoluteTimeout doDecrement =>
      refine h.serves_current trivial (fun f p _ hp => ?_) hserve
      exact waitForAddressIfLessThanImpl_onlyWords hcalm hp
  | wakeByAddress waitAddress count =>
      refine h.serves_returning trivial (fun q hq => ?_) hserve
      exact (WakeCall.wakeByAddress waitAddress count).run_onlyWords
        (fun words => h.findWaiter words waitAddress) hq
  | wakeByAddressIncrementEqual waitAddress value count =>
      refine h.serves_returning trivial (fun q hq => ?_) hserve
      exact (WakeCall.incrementEqual waitAddress value count).run_onlyWords
        (fun words => h.findWaiter words waitAddress) hq
  | wakeByAddressModifyLessThan waitAddress value count =>
      refine h.serves_returning trivial (fun q hq => ?_) hserve
      exact (WakeCall.modifyLessThan waitAddress value count).run_onlyWords
        (fun words => h.findWaiter words waitAddress) hq
  | storeWord address value =>
      obtain ⟨s, hs, rfl⟩ := Option.map_eq_some_iff.mp hserve
      exact (h.setWords (onlyWords_of_writeWord (toOption_eq_some.mp hs))).serves trivial
  | pass core tick =>
      obtain ⟨⟨-, hcontext⟩, hcall⟩ := perform_pass.mp hserve
      obtain ⟨hcounted, hkept⟩ := h.pass_iff hcontext hcall
      exact ⟨h.placed.pass hcontext hcall, hcounted, hkept⟩
  | startCore core =>
      obtain ⟨⟨-, hcontext, -, -⟩, rfl⟩ := perform_startCore.mp hserve
      exact (h.enterScheduler (by simp [hcontext]) c.scheduler.activeCores).serves trivial
  | wakeCore core =>
      obtain ⟨⟨-, hcontext⟩, rfl⟩ := perform_wakeCore.mp hserve
      exact (h.enterScheduler (by simp [hcontext]) _).serves trivial

theorem start {words : Address → BitVec 32} {coreMask : BitVec 64}
    (hstart : initialSystem words coreMask = .ok c) : Counted c := by
  have hplaced := (Reachable.start hstart).placed
  obtain ⟨table, hrun, he⟩ := initialSystem_eq words coreMask
  rw [he] at hstart
  cases hstart
  refine ⟨hplaced, ⟨_, hrun, ?_⟩, ?_, ?_⟩
  · intro handle f hf
    by_cases hh : handle = 0x80ff
    · rw [hh, Finmap.lookup_insert, Option.some.injEq] at hf
      exact Finset.mem_singleton.mpr hf.symm
    · rw [Finmap.lookup_insert_of_ne _ hh, Finmap.lookup_empty] at hf
      cases hf
  · intro core f hf
    by_cases hcore : core = 0
    · simp only [startedSystem, hcore, Function.update_self, CoreContext.running.injEq] at hf
      exact hf.symm
    · simp [startedSystem, hcore] at hf
  · rfl

end Counted

/-! ### Runs -/

/-- In a run whose calls neither block nor store a priority without a run list, the count is
exact in every state if and only if no fiber leaves a run list; so it is exact in every run
that meets both conditions. -/
theorem runnableCountExact_runs {words : Address → BitVec 32} {coreMask : BitVec 64}
    {start : SchedulerSystem} (hstart : initialSystem words coreMask = .ok start)
    (calls : List ServiceCall) :
    (Machine.EveryStep serve (fun c call => Undisturbed c call ∧ CountKept c call) start calls →
      Machine.Always serve RunnableCountExact start calls) ∧
    (Machine.EveryStep serve Undisturbed start calls →
      (Machine.Always serve RunnableCountExact start calls ↔
        Machine.EveryStep serve CountKept start calls)) := by
  have hcounted : ∀ c, Machine.Reachable serve (fun c call => Undisturbed c call ∧ CountKept c call)
      start c → Counted c := fun c h =>
    h.invariant (Counted.start hstart) fun hc hmet hserve =>
      (hc.serve hmet.1 hserve).counted hmet.2
  have hexact : ∀ c, Counted c → RunnableCountExact c :=
    fun c hc => hc.placed.runnableCountExact_iff.mpr hc.count
  refine ⟨Machine.always_of_everyStep fun c hc => hexact c (hcounted c hc), ?_⟩
  refine Machine.always_iff_everyStep_of (hexact start (Counted.start hstart)) ?_ calls
  intro c c' call hreach _ hcalm hserve
  have hserves := (hcounted c hreach).serve hcalm hserve
  constructor
  · intro hcount
    exact hserves.kept (hserves.placed.runnableCountExact_iff.mp hcount)
  · intro hkept
    exact hexact c' (hserves.counted hkept)

/-- The main fiber creates a thread and yields. -/
theorem runnableCountExact_runs_yield : ∃ start c, initialSystem (fun _ => 0) 1 = .ok start ∧
    Machine.run serve start [.createThread 1 1 0 0, .sleepThread 0 0] = some c ∧
    c.scheduler.runnableFibers = 1 ∧ RunnableCountExact c := by
  have hrun : ((initialSystem (fun _ => 0) 1).toOption.bind fun c =>
      Machine.run serve c [.createThread 1 1 0 0, .sleepThread 0 0]).any
        (fun c => decide (c.scheduler.runnableFibers = 1)) = true := by
    decide +kernel
  obtain ⟨c, hc, hcount⟩ := (Option.any_eq_true _ _).mp hrun
  obtain ⟨start, hstart, hrun⟩ := Option.bind_eq_some_iff.mp hc
  rw [toOption_eq_some] at hstart
  refine ⟨start, c, hstart, hrun, by simpa using hcount, ?_⟩
  have halways := (runnableCountExact_runs hstart [.createThread 1 1 0 0, .sleepThread 0 0]).1
  refine halways ?_ _ c (List.prefix_refl _) hrun
  intro bs call u u' hprefix _ _
  have hmem : call ∈ [ServiceCall.createThread 1 1 0 0, .sleepThread 0 0] :=
    hprefix.subset (by simp)
  rcases List.mem_pair.mp hmem with rfl | rfl <;> exact ⟨trivial, trivial⟩

/-- The main fiber yields and is dispatched: the run lists are empty, the count is one, and the
last core would not notice a deadlock. -/
theorem runnableCount_drifts : ∃ start c, initialSystem (fun _ => 0) 1 = .ok start ∧
    Machine.run serve start [.sleepThread 0 0, .pass 0 1] = some c ∧
    c.scheduler.runnableFibers = 1 ∧ c.scheduler.activeCores = 1 ∧
    (∀ l, c.scheduler.links.isEmpty (.runList l) = true) ∧
    c.scheduler.restCore ≠ .error .assertFailed ∧
    ¬ Machine.Always serve RunnableCountExact start [.sleepThread 0 0, .pass 0 1] := by
  have hrun : ((initialSystem (fun _ => 0) 1).toOption.bind fun c =>
      Machine.run serve c [.sleepThread 0 0, .pass 0 1]).any (fun c =>
        decide (c.scheduler.runnableFibers = 1) && (decide (c.scheduler.activeCores = 1) &&
        runListOrder.all fun l => c.scheduler.links.isEmpty (.runList l))) = true := by
    decide +kernel
  obtain ⟨c, hc, hfacts⟩ := (Option.any_eq_true _ _).mp hrun
  obtain ⟨start, hstart, hrun⟩ := Option.bind_eq_some_iff.mp hc
  simp only [Bool.and_eq_true, decide_eq_true_eq, toOption_eq_some, List.all_eq_true] at hfacts hstart
  obtain ⟨hcount, hcores, hlists⟩ := hfacts
  have hempty : ∀ l, c.scheduler.links.isEmpty (.runList l) = true :=
    fun l => hlists l (Placed.mem_runListOrder l)
  have hrest : c.scheduler.restCore ≠ .error .assertFailed := by
    simp [restCore, hcount]
  refine ⟨start, c, hstart, hrun, hcount, hcores, hempty, hrest, ?_⟩
  intro halways
  have hdeadlock := (halways _ c (List.prefix_refl _) hrun).deadlock
  exact hrest (hdeadlock.mpr ⟨by simp [hcores], hempty⟩)

end DDFramework.SchedulerSystem
