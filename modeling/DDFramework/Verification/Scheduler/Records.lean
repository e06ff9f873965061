import DDFramework.Library.Computation
import DDFramework.Model.Scheduler
import DDFramework.Verification.IntrusiveList.RangeFor

/-! # What the scheduler's operations write

`AddToSchedulerUnsafe` and the end of a wait as one update of a record and one
change of the links. -/

namespace DDFramework.UserScheduler

theorem writeWord_eq_ok {s s' : UserScheduler} {address : Address} {value : BitVec 32}
    (h : s.writeWord address value = .ok s') :
    address ≠ 0 ∧ s' = { s with words := Function.update s.words address value } := by
  unfold writeWord at h
  split at h
  · cases h
  · rename_i hne
    cases h
    exact ⟨hne, rfl⟩

/-- The list that `AddToSchedulerUnsafe` chooses for a fiber. -/
def homeList (r : FiberLocalStorage) : Option Node :=
  if r.activityLevel = activityLevelSuspended then some .suspendedList
  else (runListOf r.priority).map .runList

/-- The state that `AddToSchedulerUnsafe` gives to a fiber. -/
def homeState (r : FiberLocalStorage) : FiberState :=
  if r.activityLevel = activityLevelSuspended then .suspended else .scheduled

theorem homeState_ne_waiting (r : FiberLocalStorage) : homeState r ≠ .waiting := by
  unfold homeState
  split <;> simp

/-- The record of a fiber after its wait has ended. -/
def endedRecord (r : FiberLocalStorage) (result : Result) : FiberLocalStorage :=
  { r with fiberState := homeState r, lastResult := result }

/-- Pushes a node to the list, if there is one. -/
def pushHome (L : Links Node) (list : Option Node) (node : Node) : Links Node :=
  match list with
  | some list => L.pushBack list node
  | none => L

/-- The chosen list is a list head of the scheduler. -/
theorem homeList_eq_some {r : FiberLocalStorage} {list : Node} (h : homeList r = some list) :
    list = .suspendedList ∨ ∃ l, list = .runList l := by
  unfold homeList at h
  split at h
  · cases h
    exact Or.inl rfl
  · obtain ⟨l, -, rfl⟩ := Option.map_eq_some_iff.mp h
    exact Or.inr ⟨l, rfl⟩

theorem pushHome_coherent {L : Links Node} (hc : L.Coherent) (list : Option Node) (node : Node) :
    (pushHome L list node).Coherent := by
  cases list with
  | none => exact hc
  | some list => exact hc.pushBack list node

theorem pushHome_detached {L : Links Node} (hc : L.Coherent) {list : Option Node} {node y : Node}
    (hy : L.next y = y) (hlist : list ≠ some y) (hnode : node ≠ y) :
    (pushHome L list node).next y = y := by
  cases list with
  | none => exact hy
  | some list => exact Links.pushBack_next_of_next_eq hc hy (by simpa using hlist) hnode

theorem addToSchedulerUnsafe_fibers (s : UserScheduler) (f : FiberId) :
    (s.addToSchedulerUnsafe f).fibers = Function.update s.fibers f
      { s.fibers f with fiberState := homeState (s.fibers f) } := by
  unfold addToSchedulerUnsafe homeState
  split
  · rfl
  · cases runListOf (s.fibers f).priority <;> rfl

theorem addToSchedulerUnsafe_links (s : UserScheduler) (f : FiberId) :
    (s.addToSchedulerUnsafe f).links =
      pushHome s.links (homeList (s.fibers f)) (.schedulerListNode f) := by
  unfold addToSchedulerUnsafe homeList
  split
  · rfl
  · cases runListOf (s.fibers f).priority <;> rfl

@[simp] theorem addToSchedulerUnsafe_words (s : UserScheduler) (f : FiberId) :
    (s.addToSchedulerUnsafe f).words = s.words := by
  unfold addToSchedulerUnsafe
  split
  · rfl
  · cases runListOf (s.fibers f).priority <;> rfl

@[simp] theorem addToSchedulerUnsafe_handleTable (s : UserScheduler) (f : FiberId) :
    (s.addToSchedulerUnsafe f).handleTable = s.handleTable := by
  unfold addToSchedulerUnsafe
  split
  · rfl
  · cases runListOf (s.fibers f).priority <;> rfl

@[simp] theorem addToSchedulerUnsafe_userFiberLocalAllocator (s : UserScheduler) (f : FiberId) :
    (s.addToSchedulerUnsafe f).userFiberLocalAllocator = s.userFiberLocalAllocator := by
  unfold addToSchedulerUnsafe
  split
  · rfl
  · cases runListOf (s.fibers f).priority <;> rfl

@[simp] theorem addToSchedulerUnsafe_coreCount (s : UserScheduler) (f : FiberId) :
    (s.addToSchedulerUnsafe f).coreCount = s.coreCount := by
  unfold addToSchedulerUnsafe
  split
  · rfl
  · cases runListOf (s.fibers f).priority <;> rfl

theorem addToSchedulerUnsafe_runnableFibers (s : UserScheduler) (f : FiberId) :
    (s.addToSchedulerUnsafe f).runnableFibers =
      if (s.fibers f).activityLevel = activityLevelSuspended then s.runnableFibers
      else s.runnableFibers + 1 := by
  unfold addToSchedulerUnsafe
  split
  · rfl
  · cases runListOf (s.fibers f).priority <;> rfl

theorem endFiberWaitImpl_fibers (s : UserScheduler) (f : FiberId) (result : Result) :
    (s.endFiberWaitImpl f result).fibers =
      Function.update s.fibers f (endedRecord (s.fibers f) result) := by
  simp [endFiberWaitImpl, addToSchedulerUnsafe_fibers, endedRecord, homeState]

theorem endFiberWaitImpl_fibers_self (s : UserScheduler) (f : FiberId) (result : Result) :
    (s.endFiberWaitImpl f result).fibers f = endedRecord (s.fibers f) result := by
  rw [endFiberWaitImpl_fibers, Function.update_self]

theorem endFiberWaitImpl_fibers_of_ne (s : UserScheduler) {f g : FiberId} (h : g ≠ f)
    (result : Result) : (s.endFiberWaitImpl f result).fibers g = s.fibers g := by
  rw [endFiberWaitImpl_fibers, Function.update_of_ne h]

theorem endFiberWaitImpl_links (s : UserScheduler) (f : FiberId) (result : Result) :
    (s.endFiberWaitImpl f result).links =
      pushHome (s.links.unlink (.schedulerListNode f)) (homeList (s.fibers f))
        (.schedulerListNode f) := by
  simp [endFiberWaitImpl, addToSchedulerUnsafe_links, homeList]

@[simp] theorem endFiberWaitImpl_words (s : UserScheduler) (f : FiberId) (result : Result) :
    (s.endFiberWaitImpl f result).words = s.words := by
  simp [endFiberWaitImpl]

@[simp] theorem endFiberWaitImpl_handleTable (s : UserScheduler) (f : FiberId)
    (result : Result) : (s.endFiberWaitImpl f result).handleTable = s.handleTable := by
  simp [endFiberWaitImpl]

theorem endFiberWaitImpl_coherent {s : UserScheduler} (hc : s.links.Coherent) (f : FiberId)
    (result : Result) : (s.endFiberWaitImpl f result).links.Coherent := by
  rw [endFiberWaitImpl_links]
  exact pushHome_coherent (hc.unlink _) _ _

theorem endFiberWaitImpl_detached {s : UserScheduler} (hc : s.links.Coherent) {f : FiberId}
    {y : Node} (hy : s.links.next y = y) (hhome : homeList (s.fibers f) ≠ some y)
    (hf : .schedulerListNode f ≠ y) (result : Result) :
    (s.endFiberWaitImpl f result).links.next y = y := by
  rw [endFiberWaitImpl_links]
  exact pushHome_detached (hc.unlink _) (Links.unlink_next_of_next_eq hc hy) hhome hf

/-- The end of a wait takes the fiber out of every list but its new one. -/
theorem endFiberWaitImpl_ring {s : UserScheduler} (hc : s.links.Coherent) {f : FiberId}
    {list : Node} {xs : List Node} (hr : s.links.Ring list xs) (hf : .schedulerListNode f ≠ list)
    (hhome : ∀ home, homeList (s.fibers f) = some home → home ∉ list :: xs) (result : Result) :
    (s.endFiberWaitImpl f result).links.Ring list (xs.erase (.schedulerListNode f)) := by
  rw [endFiberWaitImpl_links]
  have hunlink := hr.unlink hc hf
  cases hlist : homeList (s.fibers f) with
  | none => exact hunlink
  | some home =>
      have hnode : Node.schedulerListNode f ∉ list :: xs.erase (.schedulerListNode f) := by
        simp only [List.mem_cons, not_or]
        exact ⟨hf, (List.nodup_cons.mp hr.nodup).2.not_mem_erase⟩
      have hnot : home ∉ list :: xs.erase (.schedulerListNode f) := by
        intro hm
        apply hhome home hlist
        rcases List.mem_cons.mp hm with rfl | hm
        · exact List.mem_cons_self
        · exact List.mem_cons_of_mem list (List.mem_of_mem_erase hm)
      exact hunlink.pushBack_of_notMem (hc.unlink _) hnot hnode

/-- Lists that hold neither the fiber nor its new list keep their elements. -/
theorem endFiberWaitImpl_ring_of_notMem {s : UserScheduler} (hc : s.links.Coherent) {f : FiberId}
    {list : Node} {xs : List Node} (hr : s.links.Ring list xs)
    (hf : .schedulerListNode f ∉ list :: xs)
    (hhome : ∀ home, homeList (s.fibers f) = some home → home ∉ list :: xs) (result : Result) :
    (s.endFiberWaitImpl f result).links.Ring list xs := by
  simp only [List.mem_cons, not_or] at hf
  have hring := endFiberWaitImpl_ring hc hr hf.1 hhome result
  rwa [List.erase_of_not_mem hf.2] at hring

/-- The fiber is the last element of its new list. -/
theorem endFiberWaitImpl_ring_home {s : UserScheduler} (hc : s.links.Coherent) {f : FiberId}
    {home : Node} {xs : List Node} (hr : s.links.Ring home xs)
    (hhome : homeList (s.fibers f) = some home) (hf : .schedulerListNode f ∉ home :: xs)
    (result : Result) :
    (s.endFiberWaitImpl f result).links.Ring home (xs ++ [.schedulerListNode f]) := by
  rw [endFiberWaitImpl_links, hhome]
  exact (hr.unlink_of_notMem hc hf).pushBack (hc.unlink _) (Links.unlink_next_self _ _) hf

theorem endWait_eq_ok {s s' : UserScheduler} {f : FiberId} {result : Result}
    (h : s.endWait f result = .ok s') :
    (s.fibers f).waitableObject ≠ none ∧ s' = s.endFiberWaitImpl f result := by
  unfold endWait at h
  split at h
  · cases h
  · rename_i hobject
    cases h
    simp [hobject]

theorem endWait_of_isSome {s : UserScheduler} {f : FiberId} {result : Result}
    (h : (s.fibers f).waitableObject ≠ none) :
    s.endWait f result = .ok (s.endFiberWaitImpl f result) := by
  unfold endWait
  split
  · contradiction
  · rfl

/-! ### `SleepThreadImpl` -/

/-- The record of a fiber that goes to sleep. -/
def sleepingRecord (r : FiberLocalStorage) (absoluteTimeout : BitVec 64) : FiberLocalStorage :=
  { r with timeout := if absoluteTimeout ≠ 0 then absoluteTimeout else r.timeout }

theorem sleepThreadImpl_eq (s : UserScheduler) (f : FiberId) (absoluteTimeout : BitVec 64) :
    s.sleepThreadImpl f absoluteTimeout =
      s.modifyFiber f fun r => sleepingRecord r absoluteTimeout := by
  unfold sleepThreadImpl sleepingRecord
  split
  · rfl
  · exact (congrArg (fun fibers => { s with fibers := fibers })
      (Function.update_eq_self f s.fibers)).symm

/-! ### The setters -/

/-- A setter changes nothing, lists a fiber again with its new record, or changes the record in
place. -/
def SetterCases (s : UserScheduler) (f : FiberId) (r : FiberLocalStorage)
    (changed relisted : Prop) (s' : UserScheduler) : Prop :=
  (¬ changed ∧ s' = s) ∨ changed ∧
    ((relisted ∧ s' = (s.modifyFiber f fun _ => r).reschedule f) ∨
    (¬ relisted ∧ s' = s.modifyFiber f fun _ => r))

theorem setPriorityImpl_cases {s s' : UserScheduler} {handle : UKernHandle} {f : FiberId}
    {priority : ℤ} {result : Result} (hget : s.getFiberByHandle handle = .ok (some f))
    (hcall : s.setPriorityImpl handle priority = .ok (result, s')) :
    SetterCases s f { s.fibers f with priority := priority }
      (¬ (-2 ≤ priority ∧ priority ≤ 2) ∧ (s.fibers f).priority ≠ priority)
      ((s.fibers f).fiberState = .scheduled) s' := by
  simp only [setPriorityImpl, hget, ok_bind, modifyFiber_fibers, Function.update_self] at hcall
  split_ifs at hcall with hrefused hsame hscheduled
  · cases hcall
    exact Or.inl ⟨fun hchanged => hchanged.1 hrefused, rfl⟩
  · cases hcall
    exact Or.inl ⟨fun hchanged => hchanged.2 hsame, rfl⟩
  · cases hcall
    exact Or.inr ⟨⟨hrefused, hsame⟩, Or.inl ⟨hscheduled, rfl⟩⟩
  · cases hcall
    exact Or.inr ⟨⟨hrefused, hsame⟩, Or.inr ⟨hscheduled, rfl⟩⟩

theorem setCoreMaskImpl_cases {s s' : UserScheduler} {handle : UKernHandle} {f : FiberId}
    {coreMask : BitVec 64} {result : Result} (hget : s.getFiberByHandle handle = .ok (some f))
    (hcall : s.setCoreMaskImpl handle coreMask = .ok (result, s')) :
    SetterCases s f { s.fibers f with coreMask := coreMask } ((s.fibers f).coreMask ≠ coreMask)
      ((s.fibers f).fiberState = .scheduled) s' := by
  simp only [setCoreMaskImpl, hget, ok_bind, modifyFiber_fibers, Function.update_self] at hcall
  split_ifs at hcall with hsame hscheduled
  · cases hcall
    exact Or.inl ⟨not_not.mpr hsame, rfl⟩
  · cases hcall
    exact Or.inr ⟨hsame, Or.inl ⟨hscheduled, rfl⟩⟩
  · cases hcall
    exact Or.inr ⟨hsame, Or.inr ⟨hscheduled, rfl⟩⟩

/-- Suspended fibers are listed again too. -/
theorem setActivityImpl_cases {s s' : UserScheduler} {handle : UKernHandle} {f : FiberId}
    {activityLevel : BitVec 16} {result : Result}
    (hget : s.getFiberByHandle handle = .ok (some f))
    (hcall : s.setActivityImpl handle activityLevel = .ok (result, s')) :
    SetterCases s f { s.fibers f with activityLevel := activityLevel }
      ((s.fibers f).activityLevel ≠ activityLevel)
      ((s.fibers f).fiberState = .scheduled ∨ (s.fibers f).fiberState = .suspended) s' := by
  simp only [setActivityImpl, hget, ok_bind, modifyFiber_fibers, Function.update_self] at hcall
  split_ifs at hcall with hsame hlisted
  · cases hcall
    exact Or.inl ⟨not_not.mpr hsame, rfl⟩
  · cases hcall
    exact Or.inr ⟨hsame, Or.inl ⟨hlisted, rfl⟩⟩
  · cases hcall
    exact Or.inr ⟨hsame, Or.inr ⟨hlisted, rfl⟩⟩

/-! ### Loops that touch the links only -/

theorem transferWaitList_preserves {P : UserScheduler → Prop}
    (hlinks : ∀ s L, P s → P { s with links := L }) {fuel : ℕ} {s s' : UserScheduler}
    {src dst : FiberId} (hp : P s) (h : s.transferWaitList fuel src dst = .ok s') : P s' := by
  apply rangeFor_preserves _ hp h
  intro node t t' ht hbody
  rcases hbody with hbody | hbody
  · cases hbody
    exact hlinks (t.unlink node) _ (hlinks t _ ht)
  · cases hbody

/-- `promoteWaiter` changes the links only. -/
theorem promoteWaiter_preserves {P : UserScheduler → Prop}
    (hlinks : ∀ s L, P s → P { s with links := L }) {fuel : ℕ} {s s' : UserScheduler}
    {f : FiberId} (hp : P s) (h : s.promoteWaiter fuel f = .ok s') : P s' := by
  unfold promoteWaiter at h
  split at h
  · cases h
    exact hp
  · obtain ⟨nextParent, -, h⟩ := bind_eq_ok_iff.mp h
    obtain ⟨t, ht, h⟩ := bind_eq_ok_iff.mp h
    cases h
    exact hlinks (t.unlink _) _ (hlinks t _ (transferWaitList_preserves hlinks (hlinks s _ hp) ht))

end DDFramework.UserScheduler
