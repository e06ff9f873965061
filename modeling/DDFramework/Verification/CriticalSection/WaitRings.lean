import DDFramework.Verification.Scheduler.SchedulerLists

/-! # The waiters of one lock

All waiters of the lock are on the `wait_list` of its owner, and nobody else has
waiters. The scheduler's own lists use other nodes. -/

namespace DDFramework.UserScheduler

/-- The waiters that are queued behind the fiber. -/
def waitersOf (owner : Option FiberId) (ws : List FiberId) (g : FiberId) : List FiberId :=
  if owner = some g then ws else []

@[simp] theorem waitersOf_owner (o : FiberId) (ws : List FiberId) :
    waitersOf (some o) ws o = ws := if_pos rfl

theorem waitersOf_of_ne {owner : Option FiberId} {g : FiberId} (h : owner ≠ some g)
    (ws : List FiberId) : waitersOf owner ws g = [] := if_neg h

@[simp] theorem waitersOf_nil (owner : Option FiberId) (g : FiberId) :
    waitersOf owner [] g = [] := by
  simp [waitersOf]

/-- `ws` is the queue behind the owner of the lock. -/
structure WaitRings (L : Links Node) (owner : Option FiberId) (ws : List FiberId) : Prop where
  coherent : L.Coherent
  ring : ∀ g, L.Ring (.fiberWaitList g) ((waitersOf owner ws g).map .waitListNode)
  detached : ∀ g, g ∉ ws → L.next (.waitListNode g) = .waitListNode g

namespace WaitRings

variable {L : Links Node} {owner : Option FiberId} {ws : List FiberId}

/-- The ring of the owner closes behind a single waiter. -/
theorem eq_singleton {o : FiberId} (h : WaitRings L (some o) ws) (hne : ws ≠ [])
    (hone : L.next (L.next (.fiberWaitList o)) = .fiberWaitList o) : ∃ w, ws = [w] := by
  have hpath := (h.ring o).path
  rw [waitersOf_owner] at hpath
  cases ws with
  | nil => exact (hne rfl).elim
  | cons w rest =>
      cases rest with
      | nil => exact ⟨w, rfl⟩
      | cons w' rest =>
          rw [List.map_cons, List.map_cons] at hpath
          rw [hpath.1, hpath.2.1] at hone
          cases hone

/-- Without waiters it does not matter who owns the lock. -/
theorem changeOwner (h : WaitRings L owner []) (owner' : Option FiberId) :
    WaitRings L owner' [] := by
  refine ⟨h.coherent, fun g => ?_, h.detached⟩
  have hr := h.ring g
  rwa [waitersOf_nil] at hr ⊢

/-- The scheduler's lists and nodes are in no ring of waiters. -/
theorem schedulerNode_notMem (f g : FiberId) (fs : List FiberId) :
    Node.schedulerListNode f ∉ .fiberWaitList g :: fs.map Node.waitListNode := by
  simp

theorem list_notMem {list : Node} (hlist : list.IsSchedulerList) (g : FiberId)
    (fs : List FiberId) : list ∉ .fiberWaitList g :: fs.map Node.waitListNode := by
  intro hm
  rcases List.mem_cons.mp hm with rfl | hm
  · exact hlist
  · obtain ⟨f, -, rfl⟩ := List.mem_map.mp hm
    exact hlist

theorem unlink_scheduler (h : WaitRings L owner ws) (f : FiberId) :
    WaitRings (L.unlink (.schedulerListNode f)) owner ws where
  coherent := h.coherent.unlink _
  ring g := (h.ring g).unlink_of_notMem h.coherent (schedulerNode_notMem f g _)
  detached g hg := Links.unlink_next_of_next_eq h.coherent (h.detached g hg)

theorem push_scheduler (h : WaitRings L owner ws) {list : Node} (hlist : list.IsSchedulerList)
    (f : FiberId) : WaitRings (L.pushBack list (.schedulerListNode f)) owner ws where
  coherent := h.coherent.pushBack _ _
  ring g := (h.ring g).pushBack_of_notMem h.coherent (list_notMem hlist g _)
    (schedulerNode_notMem f g _)
  detached g hg := by
    apply Links.pushBack_next_of_next_eq h.coherent (h.detached g hg)
    · rintro rfl
      exact hlist
    · simp

theorem pushHome_scheduler (h : WaitRings L owner ws) {home : Option Node}
    (hhome : ∀ list, home = some list → list.IsSchedulerList) (f : FiberId) :
    WaitRings (pushHome L home (.schedulerListNode f)) owner ws := by
  cases home with
  | none => exact h
  | some list => exact h.push_scheduler (hhome list rfl) f

/-- A fiber that does not wait yet is appended to the queue. -/
theorem enqueue {o f : FiberId} (h : WaitRings L (some o) ws) (hf : f ∉ ws) :
    WaitRings (L.pushBack (.fiberWaitList o) (.waitListNode f)) (some o) (ws ++ [f]) where
  coherent := h.coherent.pushBack _ _
  ring g := by
    have hr := h.ring g
    by_cases hg : o = g
    · subst g
      rw [waitersOf_owner] at hr ⊢
      simpa using hr.pushBack h.coherent (h.detached f hf) (by simpa using hf)
    · have hne : some o ≠ some g := by simpa using hg
      rw [waitersOf_of_ne hne] at hr ⊢
      exact hr.pushBack_of_notMem h.coherent (by simpa using hg) (by simp)
  detached g hg := by
    simp only [List.mem_append, List.mem_singleton, not_or] at hg
    apply Links.pushBack_next_of_next_eq h.coherent (h.detached g hg.1)
    · simp
    · simpa using Ne.symm hg.2

/-- The only waiter leaves the queue. -/
theorem dequeue {o w : FiberId} (h : WaitRings L (some o) [w]) :
    WaitRings (L.unlink (.waitListNode w)) (some o) [] where
  coherent := h.coherent.unlink _
  ring g := by
    have hr := h.ring g
    by_cases hg : o = g
    · subst g
      rw [waitersOf_owner] at hr ⊢
      exact hr.unlink_front h.coherent
    · have hne : some o ≠ some g := by simpa using hg
      rw [waitersOf_of_ne hne] at hr ⊢
      exact hr.unlink_of_notMem h.coherent (by simp)
  detached g _ := by
    by_cases hg : g = w
    · rw [hg, Links.unlink_next_self]
    · exact Links.unlink_next_of_next_eq h.coherent (h.detached g (by simpa using hg))

end WaitRings

end DDFramework.UserScheduler
