import DDFramework.Verification.Scheduler.Records

/-! # Fibers on the scheduler's lists

Every scheduler list is the ring of the fibers that are filed on it, and every
operation of the scheduler moves one fiber. -/

namespace DDFramework

/-- The heads of the lists that link fibers through `scheduler_list_node`. -/
def Node.IsSchedulerList : Node → Prop
  | .runList _ => True
  | .suspendedList => True
  | .schedulerWaitList => True
  | _ => False

theorem Node.isSchedulerList_runList (l : RunList) : (Node.runList l).IsSchedulerList := trivial

theorem Node.isSchedulerList_suspendedList : Node.suspendedList.IsSchedulerList := trivial

namespace UserScheduler

/-- Each fiber is on the list `place` and on no other; nobody waits for a fiber. -/
structure Filed (L : Links Node) (place : FiberId → Option Node) : Prop where
  coherent : L.Coherent
  ring : ∀ list : Node, list.IsSchedulerList →
    ∃ fs : List FiberId, L.Ring list (fs.map .schedulerListNode) ∧ ∀ f, f ∈ fs ↔ place f = some list
  isList : ∀ f list, place f = some list → list.IsSchedulerList
  detached : ∀ f, place f = none → L.next (.schedulerListNode f) = .schedulerListNode f
  waitNode : ∀ f, L.next (.waitListNode f) = .waitListNode f
  waitList : ∀ f, L.next (.fiberWaitList f) = .fiberWaitList f

theorem schedulerListNode_ne_list {list : Node} (h : list.IsSchedulerList) (f : FiberId) :
    Node.schedulerListNode f ≠ list := by
  rintro rfl
  exact h

/-- The elements of a scheduler list are no list heads. -/
theorem list_notMem_nodes {list : Node} (h : list.IsSchedulerList) (fs : List FiberId) :
    list ∉ fs.map Node.schedulerListNode := by
  intro hm
  obtain ⟨f, -, rfl⟩ := List.mem_map.mp hm
  exact h

namespace Filed

variable {L : Links Node} {place : FiberId → Option Node}

/-- A list that nobody is filed on is empty. -/
theorem next_list (h : Filed L place) {list : Node} (hlist : list.IsSchedulerList)
    (hnone : ∀ f, place f ≠ some list) : L.next list = list := by
  obtain ⟨fs, hr, hmem⟩ := h.ring list hlist
  cases fs with
  | nil => exact Links.ring_nil.mp hr
  | cons f fs => exact (hnone f ((hmem f).mp (by simp))).elim

/-- The elements of the ring of a list are the fibers filed on it. -/
theorem mem_ring_iff (h : Filed L place) {list : Node} (hlist : list.IsSchedulerList)
    {fs : List FiberId} (hr : L.Ring list (fs.map .schedulerListNode)) (f : FiberId) :
    f ∈ fs ↔ place f = some list := by
  obtain ⟨gs, hgs, hmem⟩ := h.ring list hlist
  have he : fs = gs := List.map_injective_iff.mpr @Node.schedulerListNode.inj (hr.unique hgs)
  rw [he, hmem]

theorem ring_unlink (h : Filed L place) {list : Node} (hlist : list.IsSchedulerList)
    {fs : List FiberId} (hr : L.Ring list (fs.map .schedulerListNode)) (f : FiberId) :
    (L.unlink (.schedulerListNode f)).Ring list ((fs.erase f).map .schedulerListNode) := by
  rw [List.map_erase @Node.schedulerListNode.inj]
  exact hr.unlink h.coherent (schedulerListNode_ne_list hlist f)

theorem ring_pushBack (h : Filed L place) {f : FiberId} (hf : place f = none) {home list : Node}
    (hhome : home.IsSchedulerList) (hlist : list.IsSchedulerList) {fs : List FiberId}
    (hr : L.Ring list (fs.map .schedulerListNode)) :
    (L.pushBack home (.schedulerListNode f)).Ring list
      ((fs ++ if home = list then [f] else []).map .schedulerListNode) := by
  have hnot : f ∉ fs := by simp [h.mem_ring_iff hlist hr, hf]
  have hnode : Node.schedulerListNode f ∉ list :: fs.map Node.schedulerListNode := by
    simpa [hnot] using schedulerListNode_ne_list hlist f
  split
  · rename_i he
    subst home
    simpa using hr.pushBack h.coherent (h.detached f hf) hnode
  · rename_i he
    rw [List.append_nil]
    refine hr.pushBack_of_notMem h.coherent ?_ hnode
    simpa [he] using list_notMem_nodes hhome fs

/-- Unlinking a fiber takes it out of its list. -/
theorem unlink (h : Filed L place) (f : FiberId) :
    Filed (L.unlink (.schedulerListNode f)) (Function.update place f none) where
  coherent := h.coherent.unlink _
  ring := by
    intro list hlist
    obtain ⟨fs, hr, hmem⟩ := h.ring list hlist
    have hnodup : fs.Nodup := (List.nodup_cons.mp hr.nodup).2.of_map
    refine ⟨fs.erase f, h.ring_unlink hlist hr f, ?_⟩
    intro g
    rw [hnodup.mem_erase_iff, hmem]
    by_cases hg : g = f
    · simp [hg]
    · simp [hg]
  isList := by
    intro g list hg
    by_cases he : g = f
    · simp [he] at hg
    · exact h.isList g list (by rwa [Function.update_of_ne he] at hg)
  detached := by
    intro g hg
    by_cases he : g = f
    · rw [he, Links.unlink_next_self]
    · exact Links.unlink_next_of_next_eq h.coherent
        (h.detached g (by rwa [Function.update_of_ne he] at hg))
  waitNode g := Links.unlink_next_of_next_eq h.coherent (h.waitNode g)
  waitList g := Links.unlink_next_of_next_eq h.coherent (h.waitList g)

/-- Pushing a detached fiber files it on the list. -/
theorem pushBack (h : Filed L place) {f : FiberId} (hf : place f = none) {home : Node}
    (hhome : home.IsSchedulerList) :
    Filed (L.pushBack home (.schedulerListNode f)) (Function.update place f (some home)) where
  coherent := h.coherent.pushBack _ _
  ring := by
    intro list hlist
    obtain ⟨fs, hr, hmem⟩ := h.ring list hlist
    refine ⟨_, h.ring_pushBack hf hhome hlist hr, ?_⟩
    intro g
    by_cases hg : g = f
    · by_cases he : home = list
      · simp [hg, he]
      · simp [hg, he, hmem, hf]
    · by_cases he : home = list
      · simp [hg, he, hmem]
      · simp [hg, he, hmem]
  isList := by
    intro g list hg
    by_cases he : g = f
    · rw [he, Function.update_self, Option.some.injEq] at hg
      exact hg ▸ hhome
    · exact h.isList g list (by rwa [Function.update_of_ne he] at hg)
  detached := by
    intro g hg
    have he : g ≠ f := by
      rintro rfl
      simp at hg
    rw [Function.update_of_ne he] at hg
    apply Links.pushBack_next_of_next_eq h.coherent (h.detached g hg)
    · exact (schedulerListNode_ne_list hhome g).symm
    · simpa using he.symm
  waitNode g := by
    apply Links.pushBack_next_of_next_eq h.coherent (h.waitNode g)
    · rintro rfl
      exact hhome
    · simp
  waitList g := by
    apply Links.pushBack_next_of_next_eq h.coherent (h.waitList g)
    · rintro rfl
      exact hhome
    · simp

theorem ring_pushHome (h : Filed L place) {f : FiberId} (hf : place f = none)
    {home : Option Node} (hhome : ∀ list, home = some list → list.IsSchedulerList) {list : Node}
    (hlist : list.IsSchedulerList) {fs : List FiberId}
    (hr : L.Ring list (fs.map .schedulerListNode)) :
    (UserScheduler.pushHome L home (.schedulerListNode f)).Ring list
      ((fs ++ if home = some list then [f] else []).map .schedulerListNode) := by
  cases home with
  | none => simpa [UserScheduler.pushHome] using hr
  | some home => simpa [UserScheduler.pushHome] using h.ring_pushBack hf (hhome home rfl) hlist hr

theorem pushHome (h : Filed L place) {f : FiberId} (hf : place f = none) {home : Option Node}
    (hhome : ∀ list, home = some list → list.IsSchedulerList) :
    Filed (pushHome L home (.schedulerListNode f)) (Function.update place f home) := by
  cases home with
  | none =>
      have hplace : Function.update place f none = place := by rw [← hf, Function.update_eq_self]
      rwa [hplace]
  | some list => exact h.pushBack hf (hhome list rfl)

/-- Unlinking a fiber and pushing it to a list moves it there. -/
theorem move (h : Filed L place) (f : FiberId) {home : Option Node}
    (hhome : ∀ list, home = some list → list.IsSchedulerList) :
    Filed (UserScheduler.pushHome (L.unlink (.schedulerListNode f)) home (.schedulerListNode f))
      (Function.update place f home) := by
  have hmoved := (h.unlink f).pushHome (f := f) (by simp) hhome
  rwa [Function.update_idem] at hmoved

end Filed

theorem homeList_isSchedulerList {r : FiberLocalStorage} {list : Node}
    (h : homeList r = some list) : list.IsSchedulerList := by
  rcases homeList_eq_some h with rfl | ⟨l, rfl⟩ <;> trivial

/-- Constructing a node that is detached already changes nothing. -/
theorem construct_of_detached {L : Links Node} (hc : L.Coherent) {x : Node} (hx : L.next x = x) :
    L.construct x = L := by
  have hp : L.prev x = x := hc.next_eq_iff.mp hx
  apply Links.mk.injEq _ _ _ _ |>.mpr
  constructor
  · conv_rhs => rw [← Function.update_eq_self x L.next, hx]
    rfl
  · conv_rhs => rw [← Function.update_eq_self x L.prev, hp]
    rfl

theorem Filed.constructFiber {s : UserScheduler} {place : FiberId → Option Node}
    (h : Filed s.links place) {f : FiberId} (hf : place f = none) : s.constructFiber f = s := by
  unfold UserScheduler.constructFiber
  rw [construct_of_detached h.coherent (h.detached f hf),
    construct_of_detached h.coherent (h.waitNode f),
    construct_of_detached h.coherent (h.waitList f)]

end UserScheduler

end DDFramework
