import DDFramework.Model.SchedulerMain
import DDFramework.Verification.Scheduler.Records

/-! # The fibers blocked on addresses and keys

The first fiber to wait on an address is an entry of `m_wait_list`; the later ones
are on the `wait_list` of that entry, its children. -/

namespace DDFramework.UserScheduler

/-- The fiber waits for a wake or a signal. -/
structure Blocked (s : UserScheduler) (w : FiberId) : Prop where
  state : (s.fibers w).fiberState = .waiting
  object : (s.fibers w).waitableObject = some .keyArbiter ∨
    (s.fibers w).waitableObject = some .waitAddressArbiter

theorem Blocked.object_ne_none {s : UserScheduler} {w : FiberId} (h : s.Blocked w) :
    (s.fibers w).waitableObject ≠ none := by
  rcases h.object with he | he <;> simp [he]

/-- `entries` are the fibers on `m_wait_list`, each with its children. -/
structure WaitQueues (s : UserScheduler) (entries : List FiberId)
    (children : FiberId → List FiberId) : Prop where
  coherent : s.links.Coherent
  entryRing : s.links.Ring .schedulerWaitList (entries.map .schedulerListNode)
  childRing : ∀ e ∈ entries, s.links.Ring (.fiberWaitList e) ((children e).map .waitListNode)
  blocked : ∀ e ∈ entries, ∀ w ∈ e :: children e, s.Blocked w

/-- `entries` are the fibers on `m_wait_list`, each with its `wait_list`. Beside the children it
holds the fibers that wait for a lock of the entry. -/
structure WaitLists (s : UserScheduler) (entries : List FiberId)
    (lists : FiberId → List FiberId) : Prop where
  coherent : s.links.Coherent
  entryRing : s.links.Ring .schedulerWaitList (entries.map .schedulerListNode)
  listRing : ∀ e ∈ entries, s.links.Ring (.fiberWaitList e) ((lists e).map .waitListNode)
  slot_lt : ∀ e ∈ entries, ∀ w ∈ lists e, w < maxThreadCount
  state : ∀ e ∈ entries, ∀ w ∈ e :: lists e, (s.fibers w).fiberState = .waiting
  object : ∀ e ∈ entries, ∀ w ∈ e :: lists e, (s.fibers w).waitableObject ≠ none

theorem WaitLists.nodup_list {s : UserScheduler} {entries : List FiberId}
    {lists : FiberId → List FiberId} (h : s.WaitLists entries lists) {e : FiberId}
    (he : e ∈ entries) : (lists e).Nodup :=
  List.Nodup.of_map _ (List.nodup_cons.mp (h.listRing e he).nodup).2

theorem WaitLists.nodup_entries {s : UserScheduler} {entries : List FiberId}
    {lists : FiberId → List FiberId} (h : s.WaitLists entries lists) : entries.Nodup :=
  List.Nodup.of_map _ (List.nodup_cons.mp h.entryRing.nodup).2

theorem WaitLists.length_list_le {s : UserScheduler} {entries : List FiberId}
    {lists : FiberId → List FiberId} (h : s.WaitLists entries lists) {e : FiberId}
    (he : e ∈ entries) : (lists e).length ≤ maxThreadCount := by
  have hsub : lists e ⊆ List.range maxThreadCount :=
    fun w hw => List.mem_range.mpr (h.slot_lt e he w hw)
  simpa using ((h.nodup_list he).subperm hsub).length_le

/-- The fiber is on `m_wait_list` or a child of one of its entries. -/
def Queued (s : UserScheduler) (w : FiberId) : Prop :=
  ∃ (entries : List FiberId) (children : FiberId → List FiberId),
    s.links.Ring .schedulerWaitList (entries.map .schedulerListNode) ∧
    (∀ e ∈ entries, s.links.Ring (.fiberWaitList e) ((children e).map .waitListNode)) ∧
    ∃ e ∈ entries, w ∈ e :: children e

theorem WaitQueues.queued {s : UserScheduler} {entries : List FiberId}
    {children : FiberId → List FiberId} (h : s.WaitQueues entries children) {e w : FiberId}
    (he : e ∈ entries) (hw : w ∈ e :: children e) : s.Queued w :=
  ⟨entries, children, h.entryRing, h.childRing, e, he, hw⟩

/-! ### Lists of fibers at the end of a wait -/

/-- A run list gets the fiber as its last element if it is the fiber's list. -/
theorem endFiberWaitImpl_runRing {s : UserScheduler} (hc : s.links.Coherent) {f : FiberId}
    {l : RunList} {fs : List FiberId}
    (hr : s.links.Ring (.runList l) (fs.map .schedulerListNode))
    (hf : .schedulerListNode f ∉ .runList l :: fs.map Node.schedulerListNode) (result : Result) :
    (s.endFiberWaitImpl f result).links.Ring (.runList l)
      ((fs ++ [f].filter fun g => homeList (s.fibers g) = some (.runList l)).map
        .schedulerListNode) := by
  by_cases hhome : homeList (s.fibers f) = some (.runList l)
  · simpa [hhome] using endFiberWaitImpl_ring_home hc hr hhome hf result
  · have hother : ∀ home, homeList (s.fibers f) = some home →
        home ∉ .runList l :: fs.map Node.schedulerListNode := by
      intro home he hm
      rcases homeList_eq_some he with rfl | ⟨l', rfl⟩
      · simp at hm
      · obtain rfl : l' = l := by simpa using hm
        exact hhome he
    simpa [hhome] using endFiberWaitImpl_ring_of_notMem hc hr hf hother result

theorem endFiberWaitImpl_entryRing {s : UserScheduler} (hc : s.links.Coherent) {f : FiberId}
    {entries : List FiberId}
    (hr : s.links.Ring .schedulerWaitList (entries.map .schedulerListNode)) (result : Result) :
    (s.endFiberWaitImpl f result).links.Ring .schedulerWaitList
      ((entries.erase f).map .schedulerListNode) := by
  rw [List.map_erase @Node.schedulerListNode.inj]
  apply endFiberWaitImpl_ring hc hr (by simp)
  intro home he
  rcases homeList_eq_some he with rfl | ⟨l, rfl⟩ <;> simp

theorem endFiberWaitImpl_schedulerNode {s : UserScheduler} (hc : s.links.Coherent)
    {f g : FiberId} (hg : s.links.next (.schedulerListNode g) = .schedulerListNode g)
    (hne : f ≠ g) (result : Result) :
    (s.endFiberWaitImpl f result).links.next (.schedulerListNode g) = .schedulerListNode g := by
  apply endFiberWaitImpl_detached hc hg _ (by simpa using hne)
  intro he
  rcases homeList_eq_some he with h | ⟨l, h⟩ <;> cases h

/-! ### Lists of children -/

/-- The end of a wait does not touch the lists of children. -/
theorem endFiberWaitImpl_childRing {s : UserScheduler} (hc : s.links.Coherent) {w f : FiberId}
    {xs : List Node} (hr : s.links.Ring (.fiberWaitList w) xs)
    (hnodes : ∀ x ∈ xs, ∃ y, x = .waitListNode y) (result : Result) :
    (s.endFiberWaitImpl f result).links.Ring (.fiberWaitList w) xs := by
  have hnot : ∀ z : Node, z ≠ .fiberWaitList w → (∀ y, z ≠ .waitListNode y) →
      z ∉ .fiberWaitList w :: xs := by
    intro z hw hz hm
    rcases List.mem_cons.mp hm with he | hm
    · exact hw he
    · obtain ⟨y, he⟩ := hnodes z hm
      exact hz y he
  apply endFiberWaitImpl_ring_of_notMem hc hr (hnot _ (by simp) (by simp))
  intro home hhome
  rcases homeList_eq_some hhome with rfl | ⟨l, rfl⟩
  · exact hnot _ (by simp) (by simp)
  · exact hnot _ (by simp) (by simp)

/-- What the loop over the children keeps: `xs` are the nodes still in the list. -/
structure ChildrenLeft (w : FiberId) (xs : List Node) (p : UserScheduler × BitVec 32) : Prop where
  coherent : p.1.links.Coherent
  ring : p.1.links.Ring (.fiberWaitList w) xs
  nodes : ∀ x ∈ xs, ∃ y, x = .waitListNode y

/-! ### The search in `m_wait_list` -/

theorem findWaiterStep_schedulerListNode (address : Address) (e : FiberId)
    (p : UserScheduler × Option FiberId) :
    findWaiterStep address (.schedulerListNode e) p =
      if (p.1.fibers e).waitAddress = address then .ok (.stop (p.1, some e))
      else .ok (.next p) := rfl

/-- The loop of `findWaiter` returns the first entry with the address. -/
theorem findWaiter_eq {s : UserScheduler} {entries : List FiberId} (hc : s.links.Coherent)
    (hr : s.links.Ring .schedulerWaitList (entries.map .schedulerListNode)) {fuel : ℕ}
    (hfuel : entries.length < fuel) (address : Address) :
    s.findWaiter fuel address =
      .ok (entries.find? fun e => (s.fibers e).waitAddress = address) := by
  have hkeep : ∀ x ∈ entries.map Node.schedulerListNode, ∀ p p' : UserScheduler × Option FiberId,
      p = (s, none) → findWaiterStep address x p = .ok (.next p') →
        p'.1.links = p.1.links ∧ p' = (s, none) := by
    intro x hx p p' hp hbody
    obtain ⟨e, -, rfl⟩ := List.mem_map.mp hx
    rw [findWaiterStep_schedulerListNode] at hbody
    split at hbody
    · cases hbody
    · cases hbody
      exact ⟨rfl, hp⟩
  have hloop : rangeFor (fun p : UserScheduler × Option FiberId => p.1.links) .schedulerWaitList
      (findWaiterStep address) fuel (s, none) =
        visit (findWaiterStep address) (entries.map .schedulerListNode) .ok (s, none) := by
    refine rangeFor_eq_visit (· = (s, none)) ?_ ?_ ?_ hkeep rfl
    · exact hc
    · exact hr
    · simpa using hfuel
  rw [findWaiter, hloop]
  clear hr hkeep hfuel hloop
  induction entries with
  | nil => rfl
  | cons e entries ih =>
      rw [List.map_cons, List.find?_cons]
      by_cases he : (s.fibers e).waitAddress = address
      · simp [visit, findWaiterStep_schedulerListNode, he]
      · simpa [visit, findWaiterStep_schedulerListNode, he] using ih

/-! ### The waiters on one address -/

/-- `ws` are the fibers that wait on the address, in the order of their arrival. -/
structure WaitersOn (s : UserScheduler) (entries : List FiberId)
    (lists : FiberId → List FiberId) (address : Address) (ws : List FiberId) : Prop where
  nodup : ws.Nodup
  waits : ∀ w ∈ ws, (s.fibers w).waitAddress = address
  first : ∀ e ∈ entries, (s.fibers e).waitAddress = address → ws.head? = some e
  entry : ∀ w rest, ws = w :: rest → w ∈ entries ∧ (lists w).filter (· ∈ ws) = rest

theorem WaitersOn.find?_eq {s : UserScheduler} {entries : List FiberId}
    {lists : FiberId → List FiberId} {address : Address} {ws : List FiberId}
    (h : s.WaitersOn entries lists address ws) :
    (entries.find? fun e => (s.fibers e).waitAddress = address) = ws.head? := by
  cases hfind : entries.find? fun e => (s.fibers e).waitAddress = address with
  | some e =>
      have he := List.find?_some hfind
      exact (h.first e (List.mem_of_find?_eq_some hfind) (by simpa using he)).symm
  | none =>
      cases ws with
      | nil => rfl
      | cons w rest =>
          have hw := List.find?_eq_none.mp hfind w (h.entry w rest rfl).1
          exact (hw (by simp [h.waits w (by simp)])).elim

/-- The search finds the first waiter; it only reads the links and the records. -/
theorem WaitersOn.findWaiter_eq {s t : UserScheduler} {entries : List FiberId}
    {lists : FiberId → List FiberId} {address : Address} {ws : List FiberId}
    (h : s.WaitersOn entries lists address ws) (hq : s.WaitLists entries lists)
    (hfibers : t.fibers = s.fibers) (hlinks : t.links = s.links) {fuel : ℕ}
    (hfuel : entries.length < fuel) : t.findWaiter fuel address = .ok ws.head? := by
  rw [UserScheduler.findWaiter_eq (hlinks ▸ hq.coherent) (hlinks ▸ hq.entryRing) hfuel, hfibers,
    h.find?_eq]

section Waiters

variable {s : UserScheduler} {entries : List FiberId} {lists : FiberId → List FiberId}
  {address : Address} {w : FiberId} {rest : List FiberId}

theorem WaitersOn.rest_subset (h : s.WaitersOn entries lists address (w :: rest)) :
    rest ⊆ lists w := by
  intro c hc
  rw [← (h.entry w rest rfl).2] at hc
  exact List.mem_of_mem_filter hc

/-- The first waiter is not on its own `wait_list`. -/
theorem WaitersOn.entry_notMem (h : s.WaitersOn entries lists address (w :: rest)) :
    w ∉ lists w := by
  intro hm
  have hrest : w ∈ (lists w).filter (· ∈ w :: rest) := List.mem_filter.mpr ⟨hm, by simp⟩
  rw [(h.entry w rest rfl).2] at hrest
  exact (List.nodup_cons.mp h.nodup).1 hrest

/-- The later waiters wait on no `m_wait_list`. -/
theorem WaitersOn.child_notMem_entries (h : s.WaitersOn entries lists address (w :: rest))
    {c : FiberId} (hc : c ∈ rest) : c ∉ entries := by
  intro hm
  have hfirst := h.first c hm (h.waits c (by simp [hc]))
  simp only [List.head?_cons, Option.some.injEq] at hfirst
  subst c
  exact (List.nodup_cons.mp h.nodup).1 hc

end Waiters

theorem toNat_ne_zero {count : BitVec 32} (h : count ≠ 0) : count.toNat ≠ 0 := by
  rwa [← BitVec.toNat_zero, ne_eq, BitVec.toNat_inj]

/-! ### A blocked main fiber -/

/-- The main fiber has blocked in `WaitForAddressIfEqualImpl` with the given deadline. -/
def mainBlocked (deadline : BitVec 64) : UserScheduler :=
  ((staticInstance fun _ => 0).modifyFiber 0 fun r => { r with
    priority := 2
    coreMask := 1
    activityLevel := activityLevelSchedulable
    waitableObject := some .waitAddressArbiter
    waitAddress := 16
    fiberState := .waiting
    timeout := deadline }).pushBack .schedulerWaitList (.schedulerListNode 0)

theorem WaitQueues.waitLists {s : UserScheduler} {entries : List FiberId}
    {children : FiberId → List FiberId} (h : s.WaitQueues entries children)
    (hslots : ∀ e ∈ entries, ∀ w ∈ children e, w < maxThreadCount) :
    s.WaitLists entries children where
  coherent := h.coherent
  entryRing := h.entryRing
  listRing := h.childRing
  slot_lt := hslots
  state e he w hw := (h.blocked e he w hw).state
  object e he w hw := (h.blocked e he w hw).object_ne_none

theorem mainBlocked_waitQueues (deadline : BitVec 64) :
    (mainBlocked deadline).WaitQueues [0] (fun _ => []) := by
  have hempty : (Links.detached Node).Ring .schedulerWaitList [] := Links.ring_nil.mpr rfl
  refine ⟨Links.detached_coherent.pushBack _ _, ?_, ?_, ?_⟩
  · exact hempty.pushBack Links.detached_coherent rfl (by simp)
  · intro e _
    exact Links.ring_nil.mpr
      (Links.pushBack_next_of_next_eq Links.detached_coherent rfl (by simp) (by simp))
  · intro e he w hw
    simp only [List.mem_singleton] at he hw
    subst e w
    exact ⟨rfl, Or.inr rfl⟩

end DDFramework.UserScheduler
