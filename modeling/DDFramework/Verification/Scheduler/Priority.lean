import DDFramework.Verification.Scheduler.Calls

/-! # Priority scheduling

Each run list holds its fibers in the order in which they entered it, so that the scans
of a pass find the oldest fiber of the highest priority. -/

namespace DDFramework

open UserScheduler

/-! ### Run lists and priorities -/

/-- The stored priority of the fibers on a run list. -/
def storedPriority : RunList → ℤ
  | .high => 4
  | .aboveNormal => 3
  | .normal => 2
  | .belowNormal => 1
  | .low => 0

theorem eq_storedPriority {priority : ℤ} {l : RunList} (h : runListOf priority = some l) :
    priority = storedPriority l := by
  unfold runListOf at h
  split_ifs at h with h₁ h₂ h₃ h₄ h₅ <;> cases h <;> assumption

theorem runListOrder_pairwise :
    runListOrder.Pairwise fun l l' => storedPriority l' < storedPriority l := by
  simp [runListOrder, storedPriority]

/-- The first element that passes a test precedes the others that pass it. -/
theorem rel_of_find?_eq_some {α : Type*} {R : α → α → Prop} {p : α → Bool} {as : List α}
    (hsorted : as.Pairwise R) {a b : α} (hfind : as.find? p = some a) (hb : b ∈ as)
    (hpb : p b = true) : b = a ∨ R a b := by
  obtain ⟨-, front, rest, rfl, hfront⟩ := List.find?_eq_some_iff_append.mp hfind
  rcases List.mem_append.mp hb with hb | hb
  · have hnot := hfront b hb
    simp [hpb] at hnot
  · rcases List.mem_cons.mp hb with rfl | hb
    · exact Or.inl rfl
    · exact Or.inr (List.rel_of_pairwise_cons (List.pairwise_append.mp hsorted).2.1 hb)

/-! ### How a step changes the run lists -/

/-- On every run list some fibers stay, in their order, and the entering fiber is the last
one of at most one list. -/
def Moves (L L' : Links Node) (entering : Option FiberId) : Prop :=
  ∀ (l : RunList) (fs : List FiberId), L.Ring (.runList l) (fs.map .schedulerListNode) →
    ∃ kept new : List FiberId, kept.Sublist fs ∧ (∀ f, entering = some f → f ∉ kept) ∧
      new.Sublist entering.toList ∧
      L'.Ring (.runList l) ((kept ++ new).map .schedulerListNode)

namespace Moves

variable {L L' : Links Node} {place : FiberId → Option Node} {entering : Option FiberId}

theorem refl (L : Links Node) : Moves L L none := by
  intro l fs hr
  exact ⟨fs, [], List.Sublist.refl fs, by simp, List.Sublist.refl [], by simpa using hr⟩

/-- A fiber that leaves its list first does not disturb the order. -/
theorem of_unlink (h : Filed L place) {f : FiberId}
    (hmoves : Moves (L.unlink (.schedulerListNode f)) L' entering) : Moves L L' entering := by
  intro l fs hr
  obtain ⟨kept, new, hkept, hrest⟩ := hmoves l _ (h.ring_unlink (Node.isSchedulerList_runList l) hr f)
  exact ⟨kept, new, hkept.trans List.erase_sublist, hrest⟩

theorem pushBack_suspendedList (h : Filed L place) {f : FiberId} (hf : place f = none) :
    Moves L (L.pushBack .suspendedList (.schedulerListNode f)) none := by
  intro l fs hr
  have hring := h.ring_pushBack hf Node.isSchedulerList_suspendedList
    (Node.isSchedulerList_runList l) hr
  exact ⟨fs, [], List.Sublist.refl fs, by simp, List.Sublist.refl [], by simpa using hring⟩

/-- `AddToSchedulerUnsafe` on a fiber that is on no list. -/
theorem pushHome (h : Filed L place) {f : FiberId} (hf : place f = none)
    (r : FiberLocalStorage) :
    Moves L (pushHome L (homeList r) (.schedulerListNode f))
      (if r.activityLevel = activityLevelSuspended then none else some f) := by
  intro l fs hr
  have hring := h.ring_pushHome hf (fun list => homeList_isSchedulerList (r := r))
    (Node.isSchedulerList_runList l) hr
  refine ⟨fs, _, List.Sublist.refl fs, ?_, ?_, hring⟩
  · intro g hg hmem
    have hgf : f = g := by
      split at hg
      · cases hg
      · exact Option.some.inj hg
    rw [h.mem_ring_iff (Node.isSchedulerList_runList l) hr, ← hgf, hf] at hmem
    cases hmem
  · by_cases hsuspended : r.activityLevel = activityLevelSuspended
    · simp [homeList, hsuspended]
    · rw [if_neg hsuspended]
      split
      · exact List.Sublist.refl [f]
      · exact List.nil_sublist [f]

end Moves

namespace SchedulerSystem

variable {c c' : SchedulerSystem} {call : SchedulerCall} {f : FiberId}

/-- The fiber that a call may put on a list. -/
def subject (c : SchedulerSystem) : SchedulerCall → Option FiberId
  | .setCoreMask f _ => some f
  | .setActivity f _ => some f
  | .sleepThread core _ => c.runningFiber core
  | _ => none

/-- The fiber that a step puts on a run list: `AddToSchedulerUnsafe` has then incremented
`m_runnable_fibers`. -/
def entering (c : SchedulerSystem) (call : SchedulerCall) (c' : SchedulerSystem) :
    Option FiberId :=
  if c'.scheduler.runnableFibers = c.scheduler.runnableFibers then none else c.subject call

/-- Without a change of the count no fiber enters a run list. -/
theorem moves_of_eq (hmoves : Moves c.scheduler.links c'.scheduler.links none)
    (h : c'.scheduler.runnableFibers = c.scheduler.runnableFibers) :
    Moves c.scheduler.links c'.scheduler.links (c.entering call c') := by
  have hnone : c.entering call c' = none := if_pos h
  rwa [hnone]

theorem entering_of_add {level : ActivityLevel}
    (h : c'.scheduler.runnableFibers =
      if level = activityLevelSuspended then c.scheduler.runnableFibers
      else c.scheduler.runnableFibers + 1) (hsubject : c.subject call = some f) :
    c.entering call c' = if level = activityLevelSuspended then none else some f := by
  unfold entering
  by_cases hlevel : level = activityLevelSuspended
  · rw [if_pos hlevel] at h ⊢
    exact if_pos h
  · rw [if_neg hlevel] at h ⊢
    rw [h, if_neg (by simp), hsubject]

namespace Placed

/-- A fiber that is listed again leaves its list and goes to the back of another. -/
theorem moves_reschedule (h : Placed c) (r : FiberLocalStorage) (hsubject : c.subject call = some f) :
    let s := (c.scheduler.modifyFiber f fun _ => r).reschedule f
    Moves c.scheduler.links s.links (c.entering call { c with scheduler := s }) := by
  intro s
  have hentering : c.entering call { c with scheduler := s } =
      if r.activityLevel = activityLevelSuspended then none else some f := by
    apply entering_of_add _ hsubject
    simp [s, reschedule, addToSchedulerUnsafe_runnableFibers]
  have hlinks : s.links = UserScheduler.pushHome (c.scheduler.links.unlink (.schedulerListNode f))
      (homeList r) (.schedulerListNode f) := by
    simp [s, reschedule, addToSchedulerUnsafe_links]
  rw [hentering, hlinks]
  exact .of_unlink h.filed (.pushHome (h.filed.unlink f) (by simp) r)

theorem moves_setter (h : Placed c) {r : FiberLocalStorage} {changed relisted : Prop}
    {s : UserScheduler} (hset : SetterCases c.scheduler f r changed relisted s)
    (hsubject : c.subject call = some f) :
    Moves c.scheduler.links s.links (c.entering call { c with scheduler := s }) := by
  rcases hset with ⟨-, rfl⟩ | ⟨-, ⟨-, rfl⟩ | ⟨-, rfl⟩⟩
  · exact moves_of_eq (.refl _) rfl
  · exact h.moves_reschedule r hsubject
  · exact moves_of_eq (.refl _) rfl

theorem moves_sleepThread (h : Placed c) {core : ℕ} (hrun : c.contexts core = .running f)
    {absoluteTimeout : BitVec 64} (hcall : c.sleepThread f absoluteTimeout = .ok c') :
    Moves c.scheduler.links c'.scheduler.links
      (c.entering (.sleepThread core absoluteTimeout) c') := by
  have hset := h.sleepThreadImpl hrun absoluteTimeout
  obtain ⟨hf, hstate, -⟩ := (hset.running core f).mp hrun
  rw [hset.switchToScheduler_eq hrun hcall]
  have hlinks : (c.scheduler.sleepThreadImpl f absoluteTimeout).links = c.scheduler.links := by
    rw [sleepThreadImpl_eq, modifyFiber_links]
  have hrunnable : (c.scheduler.sleepThreadImpl f absoluteTimeout).runnableFibers =
      c.scheduler.runnableFibers := by
    rw [sleepThreadImpl_eq, modifyFiber_runnableFibers]
  have hnone := listOf_of_live hf
  rw [recordList_of_running hstate] at hnone
  have hsubject : c.subject (.sleepThread core absoluteTimeout) = some f :=
    runningFiber_eq_some.mpr hrun
  rw [entering_of_add (by rw [addToSchedulerUnsafe_runnableFibers, hrunnable]) hsubject,
    addToSchedulerUnsafe_links, ← hlinks]
  exact .pushHome hset.filed hnone _

theorem moves (h : Placed c) (hcall : c.perform call = some c') :
    Moves c.scheduler.links c'.scheduler.links (c.entering call c') := by
  cases call with
  | createThread threadFunc stackSize priority coreId =>
      obtain ⟨M, hrun, -⟩ := h.handles
      rcases h.createThread_eq hrun (perform_createThread.mp hcall).2 with
        ⟨allocator, -, rfl⟩ | ⟨f, allocator, table, handle, hf, -, -, -, -, -, rfl⟩
      · exact moves_of_eq (.refl _) rfl
      · exact moves_of_eq (.pushBack_suspendedList h.filed (listOf_of_not_live hf)) rfl
  | setCoreMask f coreMask =>
      obtain ⟨⟨-, hf⟩, result, s, hset, rfl⟩ := perform_setCoreMask.mp hcall
      exact h.moves_setter (setCoreMaskImpl_cases (h.getFiberByHandle hf) hset) rfl
  | setActivity f activityLevel =>
      obtain ⟨⟨-, hf⟩, result, s, hset, rfl⟩ := perform_setActivity.mp hcall
      exact h.moves_setter (setActivityImpl_cases (h.getFiberByHandle hf) hset) rfl
  | sleepThread core absoluteTimeout =>
      obtain ⟨-, f, hrun, hsleep⟩ := perform_sleepThread.mp hcall
      exact h.moves_sleepThread hrun hsleep
  | exitFiber core =>
      obtain ⟨-, f, hrun, huser, hexit⟩ := perform_exitFiber.mp hcall
      obtain ⟨a, -, rfl⟩ := h.exitFiber_eq hrun huser hexit
      exact moves_of_eq (.refl _) rfl
  | pass core tick =>
      rcases h.pass_eq (perform_pass.mp hcall).2 with ⟨f, l, -, -, rfl⟩ | ⟨-, rfl⟩
      · exact moves_of_eq (.of_unlink h.filed (.refl _)) rfl
      · exact moves_of_eq (.refl _) rfl
  | startCore core =>
      obtain ⟨-, rfl⟩ := perform_startCore.mp hcall
      exact moves_of_eq (.refl _) rfl
  | wakeCore core =>
      obtain ⟨-, rfl⟩ := perform_wakeCore.mp hcall
      exact moves_of_eq (.refl _) rfl

end Placed

/-! ### The cores that are in the scheduler -/

/-- `SchedulerFiberMain` is only executed for the cores that there are. -/
def CoresInRange (c : SchedulerSystem) : Prop :=
  ∀ core, c.contexts core = .scheduling ∨ c.contexts core = .resting →
    core < c.scheduler.coreCount

theorem CoresInRange.update (h : CoresInRange c) {core : ℕ} {context : CoreContext}
    (hcore : context = .scheduling ∨ context = .resting → core < c.scheduler.coreCount)
    (hcontexts : c'.contexts = Function.update c.contexts core context)
    (hcount : c'.scheduler.coreCount = c.scheduler.coreCount) : CoresInRange c' := by
  intro k hk
  rw [hcontexts] at hk
  rw [hcount]
  by_cases he : k = core
  · rw [he, Function.update_self] at hk
    exact he ▸ hcore hk
  · rw [Function.update_of_ne he] at hk
    exact h k hk

theorem CoresInRange.congr (h : CoresInRange c) (hcontexts : c'.contexts = c.contexts)
    (hcount : c'.scheduler.coreCount = c.scheduler.coreCount) : CoresInRange c' := by
  unfold CoresInRange
  rwa [hcontexts, hcount]

theorem CoresInRange.setter (h : CoresInRange c) {r : FiberLocalStorage}
    {changed relisted : Prop} {s : UserScheduler}
    (hset : SetterCases c.scheduler f r changed relisted s) :
    CoresInRange { c with scheduler := s } := by
  rcases hset with ⟨-, rfl⟩ | ⟨-, ⟨-, rfl⟩ | ⟨-, rfl⟩⟩
  · exact h
  · exact h.congr rfl (by simp [reschedule])
  · exact h

theorem CoresInRange.perform (h : Placed c) (hrange : CoresInRange c)
    (hcall : c.perform call = some c') : CoresInRange c' := by
  cases call with
  | createThread threadFunc stackSize priority coreId =>
      obtain ⟨M, hrun, -⟩ := h.handles
      rcases h.createThread_eq hrun (perform_createThread.mp hcall).2 with
        ⟨allocator, -, rfl⟩ | ⟨f, allocator, table, handle, -, -, -, -, -, -, rfl⟩
      · exact hrange
      · exact hrange
  | setCoreMask f coreMask =>
      obtain ⟨⟨-, hf⟩, result, s, hset, rfl⟩ := perform_setCoreMask.mp hcall
      exact hrange.setter (setCoreMaskImpl_cases (h.getFiberByHandle hf) hset)
  | setActivity f activityLevel =>
      obtain ⟨⟨-, hf⟩, result, s, hset, rfl⟩ := perform_setActivity.mp hcall
      exact hrange.setter (setActivityImpl_cases (h.getFiberByHandle hf) hset)
  | sleepThread core absoluteTimeout =>
      obtain ⟨-, f, hrun, hsleep⟩ := perform_sleepThread.mp hcall
      have hset := h.sleepThreadImpl hrun absoluteTimeout
      have hcount : (c.scheduler.sleepThreadImpl f absoluteTimeout).coreCount =
          c.scheduler.coreCount := by
        rw [sleepThreadImpl_eq, modifyFiber_coreCount]
      have hcore := (Placed.switchToScheduler_eq_ok hsleep).1
      rw [((hset.running core f).mp hrun).2.2, hcount] at hcore
      rw [hset.switchToScheduler_eq hrun hsleep]
      exact hrange.update (fun _ => hcore) rfl (by simp [hcount])
  | exitFiber core =>
      obtain ⟨-, f, hrun, huser, hexit⟩ := perform_exitFiber.mp hcall
      have hcore := (Placed.switchToScheduler_eq_ok hexit).1
      simp only [exitFiberImpl, modifyFiber_fibers, Function.update_self, modifyFiber_coreCount,
        ((h.running core f).mp hrun).2.2] at hcore
      obtain ⟨a, -, rfl⟩ := h.exitFiber_eq hrun huser hexit
      exact hrange.update (fun _ => hcore) rfl rfl
  | pass core tick =>
      obtain ⟨⟨-, hscheduling⟩, hpass⟩ := perform_pass.mp hcall
      rcases h.pass_eq hpass with ⟨f, l, -, -, rfl⟩ | ⟨-, rfl⟩
      · exact hrange.update (by simp) rfl rfl
      · exact hrange.update (fun _ => hrange core (Or.inl hscheduling)) rfl rfl
  | startCore core =>
      obtain ⟨⟨-, -, -, hcore⟩, rfl⟩ := perform_startCore.mp hcall
      exact hrange.update (fun _ => hcore) rfl rfl
  | wakeCore core =>
      obtain ⟨⟨-, hresting⟩, rfl⟩ := perform_wakeCore.mp hcall
      exact hrange.update (fun _ => hrange core (Or.inr hresting)) rfl rfl

end SchedulerSystem

/-! ### Times of entry -/

/-- The scheduler, the number of its steps, and the step in which each fiber has last
entered a run list. -/
structure TimedSystem where
  system : SchedulerSystem
  clock : ℕ
  enteredAt : FiberId → ℕ

/-- The times after a step. -/
def stamp (enteredAt : FiberId → ℕ) (entering : Option FiberId) (clock : ℕ) : FiberId → ℕ :=
  match entering with
  | some f => Function.update enteredAt f clock
  | none => enteredAt

theorem stamp_of_ne {enteredAt : FiberId → ℕ} {entering : Option FiberId} {clock : ℕ}
    {f : FiberId} (h : entering ≠ some f) : stamp enteredAt entering clock f = enteredAt f := by
  cases entering with
  | none => rfl
  | some g => exact Function.update_of_ne (fun he => h (by rw [he])) ..

/-- Every run list is in the order of entry, and nobody has entered in the future. -/
def Ordered (L : Links Node) (enteredAt : FiberId → ℕ) (clock : ℕ) : Prop :=
  ∀ (l : RunList) (fs : List FiberId), L.Ring (.runList l) (fs.map .schedulerListNode) →
    fs.Pairwise (fun f g => enteredAt f < enteredAt g) ∧ ∀ f ∈ fs, enteredAt f < clock

theorem Ordered.step {L L' : Links Node} {place : FiberId → Option Node}
    {entering : Option FiberId} {enteredAt : FiberId → ℕ} {clock : ℕ}
    (h : Ordered L enteredAt clock) (hfiled : Filed L place) (hmoves : Moves L L' entering) :
    Ordered L' (stamp enteredAt entering clock) (clock + 1) := by
  intro l gs hgs
  obtain ⟨fs, hr, -⟩ := hfiled.ring (.runList l) (Node.isSchedulerList_runList l)
  obtain ⟨kept, new, hkept, hfresh, hnew, hr'⟩ := hmoves l fs hr
  obtain ⟨hsorted, hpast⟩ := h l fs hr
  have he : gs = kept ++ new :=
    List.map_injective_iff.mpr @Node.schedulerListNode.inj (hgs.unique hr')
  have hold : ∀ f ∈ kept, stamp enteredAt entering clock f = enteredAt f :=
    fun f hf => stamp_of_ne fun hentering => hfresh f hentering hf
  have hkeptPast : ∀ f ∈ kept, enteredAt f < clock := fun f hf => hpast f (hkept.subset hf)
  have hnow : ∀ f ∈ new, stamp enteredAt entering clock f = clock := by
    intro f hf
    have hentering : entering = some f := Option.mem_toList.mp (hnew.subset hf)
    rw [hentering]
    exact Function.update_self ..
  subst he
  constructor
  · refine List.pairwise_append.mpr ⟨?_, ?_, ?_⟩
    · refine (hsorted.sublist hkept).imp_of_mem fun {f g} hf hg hlt => ?_
      rw [hold f hf, hold g hg]
      exact hlt
    · have hsingle : entering.toList.Pairwise fun f g =>
          stamp enteredAt entering clock f < stamp enteredAt entering clock g := by
        cases entering <;> simp
      exact hsingle.sublist hnew
    · intro f hf g hg
      rw [hold f hf, hnow g hg]
      exact hkeptPast f hf
  · intro f hf
    rcases List.mem_append.mp hf with hf | hf
    · rw [hold f hf]
      exact Nat.lt_succ_of_lt (hkeptPast f hf)
    · rw [hnow f hf]
      exact Nat.lt_succ_self clock

namespace TimedSystem

open SchedulerSystem

def begin (c : SchedulerSystem) : TimedSystem := ⟨c, 0, fun _ => 0⟩

def next (t : TimedSystem) (call : SchedulerCall) : Option TimedSystem :=
  (t.system.perform call).map fun c =>
    { system := c
      clock := t.clock + 1
      enteredAt := stamp t.enteredAt (t.system.entering call c) t.clock }

structure Timely (t : TimedSystem) : Prop where
  placed : t.system.Placed
  ordered : Ordered t.system.scheduler.links t.enteredAt t.clock
  cores : t.system.CoresInRange

variable {t t' : TimedSystem} {start : SchedulerSystem} {words : Address → BitVec 32}
  {coreMask : BitVec 64}

theorem Timely.next {call : SchedulerCall} (h : Timely t) (hnext : t.next call = some t') :
    Timely t' := by
  obtain ⟨c, hcall, rfl⟩ := Option.map_eq_some_iff.mp hnext
  exact ⟨(Step.of_perform hcall).placed h.placed, h.ordered.step h.placed.filed (h.placed.moves hcall),
    h.cores.perform h.placed hcall⟩

theorem Timely.begin (hstart : initialSystem words coreMask = .ok start) :
    Timely (begin start) := by
  have hplaced := (Reachable.start hstart).placed
  obtain ⟨table, -, he⟩ := initialSystem_eq words coreMask
  rw [he] at hstart
  cases hstart
  refine ⟨hplaced, ?_, ?_⟩
  · intro l fs hr
    have hnil : fs.map Node.schedulerListNode = [] := hr.unique (Links.ring_nil.mpr rfl)
    simp [List.map_eq_nil_iff.mp hnil]
  · intro core hcore
    by_cases hzero : core = 0
    · simp [TimedSystem.begin, startedSystem, hzero] at hcore
    · simp [TimedSystem.begin, startedSystem, hzero] at hcore

theorem timely_of_reaches (hstart : initialSystem words coreMask = .ok start)
    (h : Machine.Reaches next (begin start) t) : Timely t :=
  h.invariant (Timely.begin hstart) fun ht _ hnext => ht.next hnext

/-! ### What a pass dispatches -/

/-- The fiber `f` goes before `g`: it has the higher priority, or it has entered the list of
their priority earlier. -/
def Precedes (t : TimedSystem) (f g : FiberId) : Prop :=
  (t.system.scheduler.fibers g).priority < (t.system.scheduler.fibers f).priority ∨
  (t.system.scheduler.fibers g).priority = (t.system.scheduler.fibers f).priority ∧
    t.enteredAt f < t.enteredAt g

theorem priority_of_listOf {f : FiberId} {l : RunList}
    (hf : t.system.listOf f = some (.runList l)) :
    (t.system.scheduler.fibers f).priority = storedPriority l := by
  rw [listOf_of_live (live_of_listOf hf)] at hf
  exact eq_storedPriority (recordList_eq_runList hf).2

/-- A pass tests the fibers in their order of precedence. -/
theorem Timely.pairwise_precedes (h : Timely t) {queue : RunList → List FiberId}
    (hr : ∀ l, t.system.scheduler.links.Ring (.runList l) ((queue l).map .schedulerListNode))
    (hmem : ∀ l f, f ∈ queue l ↔ t.system.listOf f = some (.runList l)) :
    (runListOrder.flatMap queue).Pairwise t.Precedes := by
  have hpriority : ∀ l, ∀ f ∈ queue l,
      (t.system.scheduler.fibers f).priority = storedPriority l :=
    fun l f hf => priority_of_listOf ((hmem l f).mp hf)
  refine List.pairwise_flatMap.mpr ⟨?_, ?_⟩
  · intro l _
    refine (h.ordered l (queue l) (hr l)).1.imp_of_mem fun {f g} hf hg hlt => Or.inr ⟨?_, hlt⟩
    rw [hpriority l f hf, hpriority l g hg]
  · refine runListOrder_pairwise.imp fun {l l'} hlt f hf g hg => Or.inl ?_
    rwa [hpriority l f hf, hpriority l' g hg]

theorem Timely.dispatched (h : Timely t) {core : ℕ} {tick : BitVec 64} {s : UserScheduler}
    {f : FiberId} (hpass : t.system.scheduler.schedulerPass passFuel core tick = .ok (s, some f)) :
    f ∈ t.system.live ∧ t.system.scheduler.Eligible core tick f ∧
      ∀ g ∈ t.system.live, g ≠ f → t.system.scheduler.Eligible core tick g → t.Precedes f g := by
  obtain ⟨queue, hr, hmem, hpass'⟩ := h.placed.exists_queues
  rw [hpass'] at hpass
  cases hfind : (runListOrder.flatMap queue).find? (t.system.scheduler.Eligible core tick ·) with
  | none =>
      rw [hfind] at hpass
      cases (Placed.map_pair_eq_ok.mp hpass).2
  | some f' =>
      rw [hfind] at hpass
      cases (Placed.map_pair_eq_ok.mp hpass).2
      obtain ⟨l, -, hl⟩ := List.mem_flatMap.mp (List.mem_of_find?_eq_some hfind)
      refine ⟨live_of_listOf ((hmem l f).mp hl), by simpa using List.find?_some hfind, ?_⟩
      intro g hg hne heligible
      have hqueued := h.placed.mem_queues_of_eligible hmem hg heligible
      have hrel := rel_of_find?_eq_some (h.pairwise_precedes hr hmem) hfind hqueued
        (by simpa using heligible)
      exact hrel.resolve_left hne

theorem Timely.not_dispatched (h : Timely t) {core : ℕ} {tick : BitVec 64}
    (hcore : t.system.contexts core = .scheduling)
    (hpass : ∀ s f, t.system.scheduler.schedulerPass passFuel core tick ≠ .ok (s, some f)) :
    ∀ g ∈ t.system.live, ¬ t.system.scheduler.Eligible core tick g := by
  intro g hg heligible
  obtain ⟨queue, hr, hmem, hpass'⟩ := h.placed.exists_queues
  rw [hpass'] at hpass
  have hqueued := h.placed.mem_queues_of_eligible hmem hg heligible
  cases hfind : (runListOrder.flatMap queue).find? (t.system.scheduler.Eligible core tick ·) with
  | none => exact List.find?_eq_none.mp hfind g hqueued (by simpa using heligible)
  | some f =>
      rw [hfind] at hpass
      have hdispatch : ∃ s, t.system.scheduler.dispatch f core = .ok s := by
        simp [dispatch, h.cores core (Or.inl hcore)]
      obtain ⟨s, hs⟩ := hdispatch
      exact hpass s f (Placed.map_pair_eq_ok.mpr ⟨hs, rfl⟩)

end TimedSystem

end DDFramework
