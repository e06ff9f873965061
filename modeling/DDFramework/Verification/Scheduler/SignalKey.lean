import DDFramework.Verification.Scheduler.SignalTurns

/-! # Signalling a condition variable

The abstract signal gives each waiter its turn at its lock word. The code agrees with
it as long as every word is free, no head of a list is reached, and the signalled
entry is not unlinked from a run list again. -/

namespace DDFramework.UserScheduler

/-- The fiber that a lock word names. -/
def namedOwner (s : UserScheduler) (word : BitVec 32) : Option FiberId :=
  match s.getFiberByHandle (word &&& ~~~hasChildWaitersBit) with
  | .ok owner => owner
  | .error _ => none

/-- The first `k` waiters have had their turns: the owners among them no longer wait and
stay on their run lists, the others are behind the owners of their locks, and the
remaining waiters are queued on the key. Fibers that wait for a lock stay where they are. -/
structure SignalServed (s s' : UserScheduler) (entries : List FiberId)
    (runs : RunList → List FiberId) (cvKey : Address) (ws : List FiberId) (k : ℕ) : Prop where
  words : ∀ address, address ≠ cvKey →
    s'.words address = (ws.take k).foldl (takeTurn s) s.words address
  owners : ∀ turn ∈ lockTurns s s.words (ws.take k), turn.2 = 0 →
    (s'.fibers turn.1).fiberState ≠ .waiting ∧ (s'.fibers turn.1).lastResult = resultSuccess
  runRing : ∀ l, s'.links.Ring (.runList l)
    ((runs l ++ ((lockTurns s s.words (ws.take k)).filter fun turn =>
      turn.2 = 0 ∧ homeList (s.fibers turn.1) = some (.runList l)).map Prod.fst).map
      .schedulerListNode)
  waiting : ∀ w ∈ ws.drop k, s'.fibers w = s.fibers w
  entryRing : s'.links.Ring .schedulerWaitList
    ((entries.filter (· ∉ ws) ++ (ws.drop k).take 1).map .schedulerListNode)
  /-- The remaining waiters are on the `wait_list` of the first of them. Beside them every
  `wait_list` holds the fibers that waited for a lock of its fiber, and then those whose turn
  found such a lock held. -/
  waitList : ∀ f, ∀ old : List FiberId, s.links.Ring (.fiberWaitList f) (old.map .waitListNode) →
    ∃ new : List FiberId, s'.links.Ring (.fiberWaitList f) (new.map .waitListNode) ∧
      new.filter (· ∈ ws.drop k) = (if (ws.drop k).head? = some f then (ws.drop k).tail else []) ∧
      new.filter (· ∉ ws.drop k) = old.filter (· ∉ ws) ++
        ((lockTurns s s.words (ws.take k)).filter fun turn =>
          turn.2 ≠ 0 ∧ namedOwner s turn.2 = some f).map Prod.fst

/-- The waiters on the key, each in one place, and the locks that they have to retake. A waiter
may own locks that other fibers wait for. -/
structure KeyWaiters (s : UserScheduler) (entries : List FiberId)
    (lists : FiberId → List FiberId) (runs : RunList → List FiberId) (cvKey : Address)
    (ws : List FiberId) : Prop where
  queues : s.WaitLists entries lists
  waiters : s.WaitersOn entries lists cvKey ws
  runRing : ∀ l, s.links.Ring (.runList l) ((runs l).map .schedulerListNode)
  entryNode : ∀ w, ws.head? = some w → s.links.next (.waitListNode w) = .waitListNode w
  childNode : ∀ c ∈ ws.tail, s.links.next (.schedulerListNode c) = .schedulerListNode c
  waitList : ∀ f, ∃ fs : List FiberId, s.links.Ring (.fiberWaitList f) (fs.map .waitListNode)
  lockAddress_ne : ∀ w ∈ ws, (s.fibers w).lockAddress ≠ 0 ∧ (s.fibers w).lockAddress ≠ cvKey
  /-- The other fibers behind the first waiter wait for a lock that is held. -/
  lockWaiter : ∀ w, ws.head? = some w → ∀ c ∈ lists w, c ∉ ws →
    (s.fibers c).lockAddress ≠ 0 ∧ s.words (s.fibers c).lockAddress ≠ 0

/-- The entry takes the first turn. -/
theorem KeyWaiters.signalled_entry {s : UserScheduler} {entries : List FiberId}
    {lists : FiberId → List FiberId} {runs : RunList → List FiberId} {cvKey : Address}
    {w : FiberId} {rest : List FiberId} (h : s.KeyWaiters entries lists runs cvKey (w :: rest))
    (hfree : s.words (s.fibers w).lockAddress = 0) :
    Signalled s entries runs w [w] (lists w) (s.lockTaken w, 1) := by
  have hw := (h.waiters.entry w rest rfl).1
  have hc := h.queues.coherent
  have hring := h.queues.listRing w hw
  have hnode : ∀ l, Node.schedulerListNode w ∉
      .runList l :: (runs l).map Node.schedulerListNode := by
    intro l hm
    exact h.queues.entryRing.disjoint hc (h.runRing l) (by simp)
      (List.mem_cons_of_mem _ (List.mem_map_of_mem hw)) hm
  have hne : ∀ c ∈ lists w, w ≠ c := by
    rintro c hm rfl
    exact h.waiters.entry_notMem hm
  constructor
  all_goals simp only [lockTaken_links, lockTaken_fibers, lockTaken_words]
  · exact endFiberWaitImpl_coherent hc w resultSuccess
  · exact endFiberWaitImpl_childRing hc hring (by simp) _
  · exact endFiberWaitImpl_entryRing hc h.queues.entryRing _
  · exact fun l => endFiberWaitImpl_runRing hc (h.runRing l) (hnode l) _
  · exact fun g _ old hold => endFiberWaitImpl_childRing hc hold (by simp) _
  · exact fun c hm hnode => endFiberWaitImpl_schedulerNode hc hnode (hne c hm) _
  · simp [takeTurn, hfree]
  · intro f hf
    rw [List.mem_singleton.mp hf]
    exact endFiberWaitImpl_fibers_self _ _ _
  · intro f hf
    exact endFiberWaitImpl_fibers_of_ne _ (by simpa using hf) _
  · rfl

/-! ### Signals that are served -/

/-- Nobody is appended behind an owner if all words are free. -/
theorem LocksFree.filter_held {s : UserScheduler} {words : Address → BitVec 32}
    {ws : List FiberId} (h : LocksFree s words ws) (f : FiberId) :
    (lockTurns s words ws).filter (fun turn => turn.2 ≠ 0 ∧ namedOwner s turn.2 = some f) = [] :=
  List.filter_eq_nil_iff.mpr fun turn hturn => by simp [h turn hturn]

/-- With free words a `wait_list` only loses waiters on the key. -/
theorem SignalServed.waitList_eq {s s' : UserScheduler} {entries : List FiberId}
    {runs : RunList → List FiberId} {cvKey : Address} {ws old : List FiberId} {k : ℕ} {f : FiberId}
    (h : SignalServed s s' entries runs cvKey ws k) (hfree : LocksFree s s.words (ws.take k))
    (hf : (ws.drop k).head? ≠ some f)
    (hold : s.links.Ring (.fiberWaitList f) (old.map .waitListNode)) :
    s'.links.Ring (.fiberWaitList f) ((old.filter (· ∉ ws)).map .waitListNode) := by
  obtain ⟨new, hnew, hin, hout⟩ := h.waitList f old hold
  rw [if_neg hf] at hin
  have hall : new.filter (· ∉ ws.drop k) = new := by
    refine List.filter_eq_self.mpr fun c hc => ?_
    simpa using List.filter_eq_nil_iff.mp hin c hc
  rw [hfree.filter_held, List.map_nil, List.append_nil, hall] at hout
  rwa [hout] at hnew

section Waiters

variable {s : UserScheduler} {entries : List FiberId} {lists : FiberId → List FiberId}
  {runs : RunList → List FiberId} {cvKey : Address} {w : FiberId} {rest : List FiberId}

theorem KeyWaiters.awaitsTurn (h : s.KeyWaiters entries lists runs cvKey (w :: rest)) :
    ∀ c ∈ lists w, s.AwaitsTurn entries c := by
  intro c hc
  have hobject := h.queues.object w (h.waiters.entry w rest rfl).1 c (by simp [hc])
  by_cases hm : c ∈ rest
  · refine ⟨(h.lockAddress_ne c (by simp [hm])).1, hobject, fun _ => ?_⟩
    exact ⟨h.waiters.child_notMem_entries hm, h.childNode c hm⟩
  · have hne : c ≠ w := fun he => h.waiters.entry_notMem (he ▸ hc)
    obtain ⟨haddress, hheld⟩ := h.lockWaiter w rfl c hc (by simp [hm, hne])
    exact ⟨haddress, hobject, fun hfree => (hheld hfree).elim⟩

/-- The fibers that find their locks free are the first waiters on the key. -/
theorem KeyWaiters.take_list (h : s.KeyWaiters entries lists runs cvKey (w :: rest)) {r : ℕ}
    (hle : r ≤ (lists w).length)
    (hlocks : LocksFree s (takeTurn s s.words w) ((lists w).take r)) :
    (lists w).take r = rest.take r ∧
      ((lists w).drop r).filter (· ∈ w :: rest) = rest.drop r ∧ r ≤ rest.length := by
  have hfront : ((lists w).take r).filter (· ∈ w :: rest) = (lists w).take r := by
    refine List.filter_eq_self.mpr fun c hc => decide_eq_true ?_
    by_contra hm
    have hheld := (h.lockWaiter w rfl c (List.mem_of_mem_take hc) hm).2
    exact takeTurn_ne_zero hheld w (hlocks.words_eq_zero c hc)
  have hrest : (lists w).take r ++ ((lists w).drop r).filter (· ∈ w :: rest) = rest := by
    have hall := (h.waiters.entry w rest rfl).2
    rwa [← List.take_append_drop r (lists w), List.filter_append, hfront] at hall
  have hlength : ((lists w).take r).length = r := List.length_take_of_le hle
  refine ⟨?_, ?_, ?_⟩
  · exact (List.take_left' hlength).symm.trans (congrArg (List.take r) hrest)
  · exact (List.drop_left' hlength).symm.trans (congrArg (List.drop r) hrest)
  · have hlen := congrArg List.length hrest
    rw [List.length_append, hlength] at hlen
    omega

theorem KeyWaiters.filter_entries (h : s.KeyWaiters entries lists runs cvKey (w :: rest)) :
    entries.filter (· ∉ w :: rest) = entries.erase w := by
  rw [h.queues.nodup_entries.erase_eq_filter]
  apply List.filter_congr
  intro x hx
  have hrest : x ∉ rest := fun hm => h.waiters.child_notMem_entries hm hx
  by_cases he : x = w <;> simp [he, hrest]

theorem KeyWaiters.entry_notMem_runs (h : s.KeyWaiters entries lists runs cvKey (w :: rest))
    (l : RunList) : w ∉ runs l := by
  intro hm
  exact h.queues.entryRing.disjoint h.queues.coherent (h.runRing l) (by simp)
    (List.mem_cons_of_mem _ (List.mem_map_of_mem (h.waiters.entry w rest rfl).1))
    (List.mem_cons_of_mem _ (List.mem_map_of_mem hm))

/-- The waiters on the key are on no other `wait_list`. -/
theorem KeyWaiters.notMem_waitList (h : s.KeyWaiters entries lists runs cvKey (w :: rest))
    {f : FiberId} (hf : f ≠ w) {old : List FiberId}
    (hold : s.links.Ring (.fiberWaitList f) (old.map .waitListNode)) :
    ∀ c ∈ old, c ∉ w :: rest := by
  intro c hc hm
  have hnode : Node.waitListNode c ∈ old.map Node.waitListNode := List.mem_map_of_mem hc
  rcases List.mem_cons.mp hm with rfl | hm
  · exact hold.next_ne_of_mem hnode (h.entryNode c rfl)
  · have hring := h.queues.listRing w (h.waiters.entry w rest rfl).1
    exact hring.disjoint h.queues.coherent hold (by simpa using hf)
      (List.mem_cons_of_mem _ (List.mem_map_of_mem (h.waiters.rest_subset hm)))
      (List.mem_cons_of_mem _ hnode)

theorem KeyWaiters.head?_drop_ne (h : s.KeyWaiters entries lists runs cvKey (w :: rest)) (r : ℕ) :
    (rest.drop r).head? ≠ some w := by
  intro he
  exact (List.nodup_cons.mp h.waiters.nodup).1 (List.mem_of_mem_drop (List.mem_of_head? he))

/-- With free words a signal is served when the waiters `rest.take r` have taken their locks
after the entry, and at most one waiter remains. -/
theorem KeyWaiters.served_of_locksFree (h : s.KeyWaiters entries lists runs cvKey (w :: rest))
    (hlist : lists w = rest) {s' : UserScheduler} {r : ℕ} (hone : (rest.drop r).tail = [])
    (hfree : LocksFree s s.words (w :: rest.take r))
    (hwords : ∀ address, address ≠ cvKey →
      s'.words address = (w :: rest.take r).foldl (takeTurn s) s.words address)
    (hended : ∀ f ∈ w :: rest.take r, s'.fibers f = endedRecord (s.fibers f) resultSuccess)
    (hruns : ∀ l, s'.links.Ring (.runList l)
      ((runs l ++ (w :: rest.take r).filter
        fun f => homeList (s.fibers f) = some (.runList l)).map .schedulerListNode))
    (hwaiting : ∀ v ∈ rest.drop r, s'.fibers v = s.fibers v)
    (hentry : s'.links.Ring .schedulerWaitList
      ((entries.erase w ++ (rest.drop r).take 1).map .schedulerListNode))
    (hempty : s'.links.Ring (.fiberWaitList w) [])
    (hother : ∀ g, g ≠ w → ∀ old : List FiberId,
      s.links.Ring (.fiberWaitList g) (old.map .waitListNode) →
        s'.links.Ring (.fiberWaitList g) (old.map .waitListNode)) :
    SignalServed s s' entries runs cvKey (w :: rest) (r + 1) where
  words := hwords
  owners turn hturn _ := by
    rw [List.take_succ_cons, hfree.turns_eq] at hturn
    obtain ⟨f, hf, rfl⟩ := List.mem_map.mp hturn
    rw [hended f hf]
    exact ⟨homeState_ne_waiting _, rfl⟩
  runRing l := by
    rw [List.take_succ_cons, hfree.turns_eq, List.filter_map, List.map_map]
    simpa [Function.comp_def] using hruns l
  waiting := hwaiting
  entryRing := by
    rw [h.filter_entries]
    exact hentry
  waitList f old hold := by
    rw [List.take_succ_cons, hfree.filter_held, List.drop_succ_cons, hone, ite_self]
    by_cases hf : f = w
    · subst f
      have hring := h.queues.listRing w (h.waiters.entry w rest rfl).1
      have hmap := hold.unique hring
      obtain rfl : old = rest := by
        rw [← hlist]
        exact List.map_injective_iff.mpr (fun _ _ => Node.waitListNode.inj) hmap
      refine ⟨[], hempty, rfl, ?_⟩
      have hgone : old.filter (· ∉ w :: old) = [] := by
        rw [List.filter_eq_nil_iff]
        exact fun c hc => by simp [hc]
      rw [hgone]
      rfl
    · have hnot := h.notMem_waitList hf hold
      have hleft : ∀ c ∈ old, c ∉ rest.drop r := fun c hc hm =>
        hnot c hc (List.mem_cons_of_mem w (List.mem_of_mem_drop hm))
      refine ⟨old, hother f hf old hold, ?_, ?_⟩
      · rw [List.filter_eq_nil_iff]
        exact fun c hc => by simp [hleft c hc]
      · rw [List.map_nil, List.append_nil, List.filter_eq_self.mpr, List.filter_eq_self.mpr]
        · exact fun c hc => decide_eq_true (hnot c hc)
        · exact fun c hc => decide_eq_true (hleft c hc)

theorem KeyWaiters.signalKeyImpl_of_held
    (h : s.KeyWaiters entries lists runs cvKey (w :: rest)) (hkey : cvKey ≠ 0)
    {signalCount : BitVec 32} (hcount : signalCount ≠ 0) {fuel : ℕ}
    (hfuel : entries.length < fuel) (hheld : s.words (s.fibers w).lockAddress ≠ 0) :
    s.signalKeyImpl fuel cvKey signalCount = .error .nullDereference := by
  have hfound := h.waiters.findWaiter_eq h.queues rfl rfl hfuel
  have hswap := swapLockForSignalKey_of_held (h.lockAddress_ne w (by simp)).1 hheld
  simp only [signalKeyImpl, if_neg hkey, if_neg hcount, hfound, ok_bind, List.head?_cons, hswap,
    error_bind]

theorem KeyWaiters.signalKeyImpl_of_free
    (h : s.KeyWaiters entries lists runs cvKey (w :: rest)) (hkey : cvKey ≠ 0)
    {signalCount : BitVec 32} (hcount : signalCount ≠ 0) {fuel : ℕ}
    (hfuel : entries.length < fuel) (hfree : s.words (s.fibers w).lockAddress = 0) :
    s.signalKeyImpl fuel cvKey signalCount =
      ((s.lockTaken w).signalChildren fuel w signalCount >>= fun t =>
        t.promoteWaiter fuel w >>= fun t' =>
          .ok (resultSuccess, { t' with words := Function.update t'.words cvKey 0 })) := by
  have hfound := h.waiters.findWaiter_eq h.queues rfl rfl hfuel
  have hobject := h.queues.object w (h.waiters.entry w rest rfl).1 w (by simp)
  have hswap := swapLockForSignalKey_of_free (h.lockAddress_ne w (by simp)).1 hfree hobject
  simp only [signalKeyImpl, if_neg hcount, hfound, ok_bind, List.head?_cons, hswap, writeWord,
    if_neg hkey]

/-- A single waiter with nobody behind it takes its lock if the word is free. -/
theorem KeyWaiters.signalKeyImpl_of_single (h : s.KeyWaiters entries lists runs cvKey [w])
    (hlist : lists w = []) (hkey : cvKey ≠ 0) {signalCount : BitVec 32} (hcount : signalCount ≠ 0)
    {fuel : ℕ} (hfuel : entries.length < fuel) (hfree : s.words (s.fibers w).lockAddress = 0) :
    s.signalKeyImpl fuel cvKey signalCount = .ok (resultSuccess,
      { s.lockTaken w with words := Function.update (s.lockTaken w).words cvKey 0 }) := by
  have hdone := h.signalled_entry hfree
  rw [hlist] at hdone
  have hempty := Links.ring_nil.mp hdone.children
  obtain ⟨n, rfl⟩ : ∃ n, fuel = n + 1 := ⟨fuel - 1, by omega⟩
  have hloop : rangeFor (fun p : UserScheduler × BitVec 32 => p.1.links) (.fiberWaitList w)
      (signalStep signalCount) (n + 1) (s.lockTaken w, 1) = .ok (s.lockTaken w, 1) :=
    rangeFor_nil hempty
  rw [h.signalKeyImpl_of_free hkey hcount hfuel hfree, UserScheduler.signalChildren, hloop]
  simp only [ok_bind, promoteWaiter_of_empty hempty]

/-! ### What remains after the turns -/

/-- All waiters have taken their locks. -/
theorem KeyWaiters.served_of_signalled
    (h : s.KeyWaiters entries lists runs cvKey (w :: rest)) (hlist : lists w = rest)
    {t : UserScheduler} {i : BitVec 32} (hfree : LocksFree s s.words (w :: rest))
    (hdone : Signalled s entries runs w (w :: rest) [] (t, i)) :
    SignalServed s { t with words := Function.update t.words cvKey 0 } entries runs cvKey
      (w :: rest) (rest.length + 1) := by
  have htake : rest.take rest.length = rest := List.take_length
  apply h.served_of_locksFree hlist (by simp)
  all_goals simp only [htake, List.drop_length, List.take_nil, List.append_nil]
  · exact hfree
  · intro address haddress
    simp only [Function.update_of_ne haddress, ← hdone.words]
  · exact hdone.ended
  · exact hdone.runRing
  · simp
  · exact hdone.entryRing
  · exact hdone.children
  · exact hdone.otherList

/-- All waiters but the last have taken their locks, and the last one is the new entry. -/
theorem KeyWaiters.served_of_promoted
    (h : s.KeyWaiters entries lists runs cvKey (w :: rest)) (hlist : lists w = rest)
    {t t' : UserScheduler} {i : BitVec 32} {r : ℕ} {v : FiberId} (hdrop : rest.drop r = [v])
    (hfree : LocksFree s s.words (w :: rest.take r))
    (hhome : ∀ l, homeList (s.fibers w) ≠ some (.runList l))
    (hdone : Signalled s entries runs w (w :: rest.take r) [v] (t, i))
    (hpromoted : Promoted s entries runs w v (w :: rest.take r) t t') :
    SignalServed s { t' with words := Function.update t'.words cvKey 0 } entries runs cvKey
      (w :: rest) (r + 1) := by
  have hnot : v ∉ w :: rest.take r := by
    have hn : (w :: rest.take r ++ [v]).Nodup := by
      rw [← hdrop, List.cons_append, List.take_append_drop]
      exact h.waiters.nodup
    exact fun hm => List.disjoint_of_nodup_append hn hm (by simp)
  apply h.served_of_locksFree hlist (by simp [hdrop]) hfree
  · intro address haddress
    simp only [Function.update_of_ne haddress, hpromoted.words, ← hdone.words]
  · intro f hf
    simp only [hpromoted.fibers]
    exact hdone.ended f hf
  · intro l
    have hring := hpromoted.runRing l
    rwa [List.erase_of_not_mem] at hring
    simp only [List.mem_append, List.mem_filter, decide_eq_true_eq, not_or, not_and]
    exact ⟨h.entry_notMem_runs l, fun _ => hhome l⟩
  · intro f hf
    rw [hdrop] at hf
    rw [List.mem_singleton.mp hf]
    simp only [hpromoted.fibers]
    exact hdone.kept v hnot
  · rw [hdrop]
    exact hpromoted.entryRing
  · exact hpromoted.list
  · exact hpromoted.otherList

/-- With two or more fibers left behind the entry, a node strays into its `wait_list`. -/
theorem KeyWaiters.not_served_of_many
    (h : s.KeyWaiters entries lists runs cvKey (w :: rest)) {t t' : UserScheduler}
    {i : BitVec 32} {r fuel : ℕ} {done xs : List FiberId} {v x : FiberId}
    (hdrop : (lists w).drop r = v :: x :: xs) (hfree : LocksFree s s.words (w :: rest.take r))
    (hdone : Signalled s entries runs w done (v :: x :: xs) (t, i))
    (hpromote : t.promoteWaiter fuel w = .ok t') :
    ¬ SignalServed s { t' with words := Function.update t'.words cvKey 0 } entries runs cvKey
      (w :: rest) (r + 1) := by
  intro hserved
  have hring := h.queues.listRing w (h.waiters.entry w rest rfl).1
  have hv : v ∈ lists w := List.mem_of_mem_drop (i := r) (by simp [hdrop])
  have hvw : v ≠ w := fun he => h.waiters.entry_notMem (he ▸ hv)
  obtain ⟨own, hown⟩ := h.waitList v
  obtain ⟨z, zs, hz, hstray⟩ := hdone.promoteWaiter_of_many hown hvw hpromote
  have hkept := hserved.waitList_eq hfree (h.head?_drop_ne r) hring
  have hmem : z ∈ (lists w).map Node.waitListNode := by
    have hin : z ∈ ((lists w).filter (· ∉ w :: rest)).map Node.waitListNode := by
      rw [← hstray.unique hkept]
      exact List.mem_cons_self
    obtain ⟨c, hc, rfl⟩ := List.mem_map.mp hin
    exact List.mem_map_of_mem (List.mem_of_mem_filter hc)
  exact hring.disjoint h.queues.coherent hown (by simpa using hvw) (List.mem_cons_of_mem _ hmem) hz

/-- With one remaining waiter the entry is unlinked from the run list it was put on. -/
theorem SignalServed.homeList_of_promoted {t t' : UserScheduler} {r : ℕ} {v : FiberId}
    (hserved : SignalServed s { t' with words := Function.update t'.words cvKey 0 } entries runs
      cvKey (w :: rest) (r + 1)) (hfree : LocksFree s s.words (w :: rest.take r))
    (hpromoted : Promoted s entries runs w v (w :: rest.take r) t t') (l : RunList) :
    homeList (s.fibers w) ≠ some (.runList l) := by
  intro hhome
  have hring := hserved.runRing l
  rw [List.take_succ_cons, hfree.turns_eq, List.filter_map, List.map_map] at hring
  have hlist := congrArg List.length (hring.unique (hpromoted.runRing l))
  have hmem : w ∈ runs l ++ (w :: rest.take r).filter
      fun f => homeList (s.fibers f) = some (.runList l) := by
    simp [hhome]
  simp only [List.length_map, List.length_erase_of_mem hmem] at hlist
  have hpos := List.length_pos_of_mem hmem
  simp only [List.length_append, List.length_map, Function.comp_def, true_and] at hlist hpos
  omega

/-- The state after the turns is promoted to a served one only if all fibers behind the entry
are waiters on the key, and none of them remains or one that takes the place of an entry in no
run list. -/
theorem KeyWaiters.shape_of_served
    (h : s.KeyWaiters entries lists runs cvKey (w :: rest)) {t t' : UserScheduler}
    {i : BitVec 32} {r n : ℕ} (hle : r ≤ (lists w).length)
    (hfree : s.words (s.fibers w).lockAddress = 0)
    (hlocks : LocksFree s (takeTurn s s.words w) ((lists w).take r))
    (hdone : Signalled s entries runs w (w :: (lists w).take r) ((lists w).drop r) (t, i))
    (hpromote : t.promoteWaiter (n + 1) w = .ok t')
    (hserved : SignalServed s { t' with words := Function.update t'.words cvKey 0 } entries runs
      cvKey (w :: rest) (r + 1)) :
    lists w = rest ∧
      (r = rest.length ∨ r + 1 = rest.length ∧ ∀ l, homeList (s.fibers w) ≠ some (.runList l)) := by
  obtain ⟨htake, hdrop, hr⟩ := h.take_list hle hlocks
  rw [htake] at hdone hlocks
  have hturns : LocksFree s s.words (w :: rest.take r) := locksFree_cons.mpr ⟨hfree, hlocks⟩
  have heq : (lists w).drop r = rest.drop r → lists w = rest := by
    intro he
    rw [← List.take_append_drop r (lists w), htake, he, List.take_append_drop]
  have hlength := List.length_drop (l := rest) (i := r)
  match hleft : (lists w).drop r with
  | [] =>
      have hnone : rest.drop r = [] := by rw [← hdrop, hleft]; rfl
      rw [hnone, List.length_nil] at hlength
      exact ⟨heq (hleft.trans hnone.symm), Or.inl (by omega)⟩
  | [v] =>
      rw [hleft] at hdone hdrop
      by_cases hv : v ∈ w :: rest
      · have hlast : rest.drop r = [v] := by
          rw [← hdrop, List.filter_singleton, decide_eq_true hv]
          rfl
        have hm : v ∈ rest := List.mem_of_mem_drop (i := r) (by simp [hlast])
        have hpromoted := hdone.promoted h.queues.nodup_entries (h.childNode v hm) hpromote
        rw [hlast, List.length_singleton] at hlength
        refine ⟨heq (hleft.trans hlast.symm), Or.inr ⟨by omega, ?_⟩⟩
        exact hserved.homeList_of_promoted hturns hpromoted
      · -- a fiber that waits for a lock has become an entry
        have hring := h.queues.listRing w (h.waiters.entry w rest rfl).1
        have hkept := hserved.waitList_eq hturns (h.head?_drop_ne r) hring
        have hlist := hdone.promoteWaiter_list hpromote
        have hgone := hkept.unique hlist
        have hstays : v ∈ (lists w).filter (· ∉ w :: rest) :=
          List.mem_filter.mpr ⟨List.mem_of_mem_drop (i := r) (by simp [hleft]), decide_eq_true hv⟩
        rw [List.map_eq_nil_iff.mp hgone] at hstays
        cases hstays
  | v :: x :: xs =>
      rw [hleft] at hdone
      exact (h.not_served_of_many hleft hturns hdone hpromote hserved).elim

/-- Conversely the promotion of such a state ends and serves. -/
theorem KeyWaiters.served_of_shape
    (h : s.KeyWaiters entries lists runs cvKey (w :: rest)) (hlist : lists w = rest)
    {t : UserScheduler} {i : BitVec 32} {r : ℕ} (n : ℕ)
    (hlocks : LocksFree s s.words (w :: rest.take r))
    (hshape : r = rest.length ∨
      r + 1 = rest.length ∧ ∀ l, homeList (s.fibers w) ≠ some (.runList l))
    (hdone : Signalled s entries runs w (w :: rest.take r) (rest.drop r) (t, i)) :
    ∃ t', t.promoteWaiter (n + 1) w = .ok t' ∧
      SignalServed s { t' with words := Function.update t'.words cvKey 0 } entries runs cvKey
        (w :: rest) (r + 1) := by
  rcases hshape with rfl | ⟨heq, hhome⟩
  · rw [List.take_length, List.drop_length] at hdone
    rw [List.take_length] at hlocks
    have hempty := Links.ring_nil.mp hdone.children
    exact ⟨t, promoteWaiter_of_empty hempty, h.served_of_signalled hlist hlocks hdone⟩
  · obtain ⟨v, hv⟩ : ∃ v, rest.drop r = [v] := by
      apply List.length_eq_one_iff.mp
      rw [List.length_drop]
      omega
    have hm : v ∈ rest := List.mem_of_mem_drop (i := r) (by simp [hv])
    rw [hv] at hdone
    have hpromote := hdone.promoteWaiter_of_one n
    have hpromoted := hdone.promoted h.queues.nodup_entries (h.childNode v hm) hpromote
    exact ⟨_, hpromote, h.served_of_promoted hlist hv hlocks hhome hdone hpromoted⟩

theorem KeyWaiters.served_iff_of_list
    (h : s.KeyWaiters entries lists runs cvKey (w :: rest)) (hlist : lists w ≠ [])
    (hkey : cvKey ≠ 0) {signalCount : BitVec 32} {r : ℕ} (hr : signalCount.toNat = r + 1)
    {fuel : ℕ} (hfuel : entries.length < fuel) (hfuel' : (lists w).length + 1 < fuel) :
    (∃ result s', s.signalKeyImpl fuel cvKey signalCount = .ok (result, s') ∧
      SignalServed s s' entries runs cvKey (w :: rest) (min (r + 1) (w :: rest).length)) ↔
    lists w = rest ∧ LocksFree s s.words (w :: rest.take r) ∧ (r = rest.length ∨
      r + 1 = rest.length ∧ ∀ l, homeList (s.fibers w) ≠ some (.runList l)) := by
  have hcount : signalCount ≠ 0 := by
    rintro rfl
    simp at hr
  by_cases hfree : s.words (s.fibers w).lockAddress = 0
  swap
  · rw [h.signalKeyImpl_of_held hkey hcount hfuel hfree, locksFree_cons]
    exact iff_of_false (by simp) (fun hlocks => hfree hlocks.2.1.1)
  have hstart := h.signalled_entry hfree
  have hwords : (s.lockTaken w).words = takeTurn s s.words w := by
    rw [lockTaken_words]
    simp [takeTurn, hfree]
  have hturns : signalCount.toNat = 1 + r := by omega
  have hnodup : (w :: lists w).Nodup :=
    List.nodup_cons.mpr ⟨h.waiters.entry_notMem, h.queues.nodup_list (h.waiters.entry w rest rfl).1⟩
  obtain ⟨hloop, hloop'⟩ := hstart.signalChildren hnodup h.awaitsTurn hlist hturns hfuel'
  rw [h.signalKeyImpl_of_free hkey hcount hfuel hfree]
  rw [hwords] at hloop hloop'
  obtain ⟨n, rfl⟩ : ∃ n, fuel = n + 1 := ⟨fuel - 1, by omega⟩
  constructor
  · rintro ⟨result, s', hs', hserved⟩
    obtain ⟨t, ht, hs'⟩ := bind_eq_ok_iff.mp hs'
    obtain ⟨t', ht', hs'⟩ := bind_eq_ok_iff.mp hs'
    cases hs'
    obtain ⟨hlocks, hle⟩ := hloop t ht
    obtain ⟨t₀, i, ht₀, hdone⟩ := hloop' hlocks hle
    obtain rfl : t₀ = t := by
      rw [ht] at ht₀
      exact (Except.ok.inj ht₀).symm
    obtain ⟨htake, -, hrest⟩ := h.take_list hle hlocks
    rw [Nat.min_eq_left (by simpa using hrest)] at hserved
    obtain ⟨heq, hshape⟩ := h.shape_of_served hle hfree hlocks hdone ht' hserved
    exact ⟨heq, locksFree_cons.mpr ⟨hfree, htake ▸ hlocks⟩, hshape⟩
  · rintro ⟨heq, hlocks, hshape⟩
    have hle : r ≤ rest.length := by omega
    rw [heq] at hloop'
    obtain ⟨t, i, ht, hdone⟩ := hloop' (locksFree_cons.mp hlocks).2 hle
    obtain ⟨t', ht', hserved⟩ := h.served_of_shape heq n hlocks hshape hdone
    rw [ht, Nat.min_eq_left (by simpa using hle)]
    exact ⟨_, _, by rw [ok_bind, ht']; rfl, hserved⟩

theorem KeyWaiters.served_iff_of_single (h : s.KeyWaiters entries lists runs cvKey [w])
    (hlist : lists w = []) (hkey : cvKey ≠ 0) {signalCount : BitVec 32} (hcount : signalCount ≠ 0)
    {fuel : ℕ} (hfuel : entries.length < fuel) :
    (∃ result s', s.signalKeyImpl fuel cvKey signalCount = .ok (result, s') ∧
      SignalServed s s' entries runs cvKey [w] 1) ↔ LocksFree s s.words [w] := by
  rw [locksFree_cons]
  by_cases hfree : s.words (s.fibers w).lockAddress = 0
  · have hdone := h.signalled_entry hfree
    rw [hlist] at hdone
    rw [h.signalKeyImpl_of_single hlist hkey hcount hfuel hfree]
    refine iff_of_true ⟨_, _, rfl, ?_⟩ ⟨hfree, locksFree_nil s _⟩
    exact h.served_of_signalled hlist (locksFree_cons.mpr ⟨hfree, locksFree_nil s _⟩) hdone
  · rw [h.signalKeyImpl_of_held hkey hcount hfuel hfree]
    exact iff_of_false (by simp) (fun hlocks => hfree hlocks.1)

end Waiters

/-- Nobody waits on the key, and nothing happens. -/
theorem signalServed_nil {s : UserScheduler} {entries : List FiberId}
    {runs : RunList → List FiberId} {cvKey : Address}
    (hentries : s.links.Ring .schedulerWaitList (entries.map .schedulerListNode))
    (hruns : ∀ l, s.links.Ring (.runList l) ((runs l).map .schedulerListNode)) :
    SignalServed s s entries runs cvKey [] 0 where
  words _ _ := rfl
  owners := by simp [lockTurns]
  runRing := by simpa [lockTurns] using hruns
  waiting := by simp
  entryRing := by simpa using hentries
  waitList _ old hold := ⟨old, hold, by simp [lockTurns]⟩

/-- A signal respects the locks exactly when nobody waits, or when all fibers behind the first
waiter wait on the key, each signalled waiter finds its lock word free, and the signal reaches
a single waiter, all waiters, or all but one while the entry is not put on a run list. -/
theorem signalKeyImpl_served_iff {s : UserScheduler} {entries : List FiberId}
    {lists : FiberId → List FiberId} {runs : RunList → List FiberId} {cvKey : Address}
    {ws : List FiberId} (h : s.KeyWaiters entries lists runs cvKey ws) (hkey : cvKey ≠ 0)
    {signalCount : BitVec 32} (hcount : signalCount ≠ 0) {fuel : ℕ}
    (hfuel : entries.length < fuel) (hfuel' : ∀ e ∈ entries, (lists e).length + 1 < fuel) :
    (∃ result s', s.signalKeyImpl fuel cvKey signalCount = .ok (result, s') ∧
      SignalServed s s' entries runs cvKey ws (min signalCount.toNat ws.length)) ↔
    ws = [] ∨ ((∀ w, ws.head? = some w → lists w = ws.tail) ∧
      LocksFree s s.words (ws.take signalCount.toNat) ∧
      (ws.length = 1 ∨ signalCount.toNat = ws.length ∨
        signalCount.toNat + 1 = ws.length ∧
          ∀ w, ws.head? = some w → ∀ l, homeList (s.fibers w) ≠ some (.runList l))) := by
  obtain ⟨r, hr⟩ := Nat.exists_eq_add_one_of_ne_zero (toNat_ne_zero hcount)
  match ws with
  | [] =>
      have hfound := h.waiters.findWaiter_eq h.queues rfl rfl hfuel
      refine iff_of_true ⟨resultInvalidAddress, s, ?_, ?_⟩ (Or.inl rfl)
      · simp only [signalKeyImpl, if_neg hkey, if_neg hcount, hfound, ok_bind, List.head?_nil]
      · simpa using signalServed_nil h.queues.entryRing h.runRing
  | w :: rest =>
      have hw := (h.waiters.entry w rest rfl).1
      by_cases hlist : lists w = []
      · have hrest : rest = [] := List.subset_nil.mp (hlist ▸ h.waiters.rest_subset)
        subst rest
        rw [hr, show min (r + 1) [w].length = 1 by simp,
          h.served_iff_of_single hlist hkey hcount hfuel]
        simp [hlist]
      · rw [hr, h.served_iff_of_list hlist hkey hr hfuel (hfuel' w hw)]
        by_cases hrest : rest = []
        · simp [hrest, hlist]
        · simp [hrest]

/-- The fiber waits for the lock, and for the key unless that is null. -/
def blockedOn (s : UserScheduler) (f : FiberId) (handle : UKernHandle) (key lock : Address) :
    UserScheduler :=
  s.modifyFiber f fun r => { r with
    priority := 2
    coreMask := 1
    ukernFiberHandle := handle
    activityLevel := activityLevelSchedulable
    waitTag := handle
    lockAddress := lock
    waitAddress := key
    waitableObject := some (if key = 0 then .lockArbiter else .keyArbiter)
    fiberState := .waiting }

/-- Fibers 1 and 2 wait on the key at address 32 for the free locks at 16 and 20. Fiber 2 owns
the lock at 24, for which fiber 3 waits. -/
def ownerBlocked : UserScheduler :=
  ((((((staticInstance fun address => if address = 24 then 0x400180fd else 0).blockedOn
      1 0x100fe 32 16).blockedOn 2 0x180fd 32 20).blockedOn 3 0x200fc 0 24).pushBack
    .schedulerWaitList (.schedulerListNode 1)).pushBack
    (.fiberWaitList 1) (.waitListNode 2)).pushBack (.fiberWaitList 2) (.waitListNode 3)

theorem ownerBlocked_links : ownerBlocked.links.Coherent ∧
    ownerBlocked.links.Ring .schedulerWaitList [.schedulerListNode 1] ∧
    ownerBlocked.links.Ring (.fiberWaitList 1) [.waitListNode 2] ∧
    ownerBlocked.links.Ring (.fiberWaitList 2) [.waitListNode 3] ∧
    ∀ node : Node, node ∉ [.schedulerWaitList, .schedulerListNode 1, .fiberWaitList 1,
      .waitListNode 2, .fiberWaitList 2, .waitListNode 3] →
      ownerBlocked.links.next node = node := by
  have h : (Links.detached Node).Coherent := Links.detached_coherent
  have h₁ := h.pushBack .schedulerWaitList (.schedulerListNode 1)
  have h₂ := h₁.pushBack (.fiberWaitList 1) (.waitListNode 2)
  refine ⟨h₂.pushBack _ _, ⟨⟨rfl, rfl⟩, by simp⟩, ⟨⟨rfl, rfl⟩, by simp⟩, ⟨⟨rfl, rfl⟩, by simp⟩, ?_⟩
  intro node hnode
  simp only [List.mem_cons, List.not_mem_nil, or_false, not_or] at hnode
  obtain ⟨hlist, hentry, hlist₁, hchild, hlist₂, hlock⟩ := hnode
  exact Links.pushBack_next_of_next_eq h₂ (Links.pushBack_next_of_next_eq h₁
    (Links.pushBack_next_of_next_eq h rfl (Ne.symm hlist) (Ne.symm hentry))
    (Ne.symm hlist₁) (Ne.symm hchild)) (Ne.symm hlist₂) (Ne.symm hlock)

theorem ownerBlocked_keyWaiters :
    ownerBlocked.KeyWaiters [1] (fun _ => [2]) (fun _ => []) 32 [1, 2] := by
  obtain ⟨hc, hentries, hlist₁, hlist₂, hnode⟩ := ownerBlocked_links
  refine ⟨⟨hc, hentries, ?_, ?_, ?_, ?_⟩, ?_, ?_, ?_, ?_, ?_, ?_, ?_⟩
  · simpa using hlist₁
  · simp [maxThreadCount]
  · simp [ownerBlocked, blockedOn]
  · simp [ownerBlocked, blockedOn]
  · refine ⟨by simp, by simp [ownerBlocked, blockedOn], by simp, ?_⟩
    intro w rest hws
    cases hws
    simp
  · exact fun l => Links.ring_nil.mpr (hnode _ (by simp))
  · intro w hw
    cases hw
    exact hnode _ (by simp)
  · intro c hc
    obtain rfl : c = 2 := by simpa using hc
    exact hnode _ (by simp)
  · intro f
    by_cases h₁ : f = 1
    · exact ⟨[2], h₁ ▸ hlist₁⟩
    by_cases h₂ : f = 2
    · exact ⟨[3], h₂ ▸ hlist₂⟩
    exact ⟨[], Links.ring_nil.mpr (hnode _ (by simp [h₁, h₂]))⟩
  · simp [ownerBlocked, blockedOn]
  · simp

theorem signalKeyImpl_served_ownerBlocked : ∃ result s',
    ownerBlocked.signalKeyImpl 6 32 2 = .ok (result, s') ∧
      SignalServed ownerBlocked s' [1] (fun _ => []) 32 [1, 2] (min (2 : BitVec 32).toNat 2) := by
  refine (signalKeyImpl_served_iff ownerBlocked_keyWaiters (by decide) (by decide) (by decide)
    (by simp)).mpr (Or.inr ⟨by simp, ?_, Or.inr (Or.inl rfl)⟩)
  exact locksFree_cons.mpr ⟨rfl, locksFree_cons.mpr ⟨rfl, locksFree_nil _ _⟩⟩

/-- Fiber 1 waits on the key at address 32 for the lock at address 16. -/
def keyBlocked (word : BitVec 32) : UserScheduler :=
  ((staticInstance fun address => if address = 16 then word else 0).blockedOn
    1 0x100fe 32 16).pushBack .schedulerWaitList (.schedulerListNode 1)

theorem keyBlocked_keyWaiters (word : BitVec 32) :
    (keyBlocked word).KeyWaiters [1] (fun _ => []) (fun _ => []) 32 [1] := by
  have hempty : (Links.detached Node).Ring .schedulerWaitList [] := Links.ring_nil.mpr rfl
  have hlinks : ∀ node : Node, node ≠ .schedulerWaitList → node ≠ .schedulerListNode 1 →
      (keyBlocked word).links.next node = node := fun _ hlist hnode =>
    Links.pushBack_next_of_next_eq Links.detached_coherent rfl hlist.symm hnode.symm
  refine ⟨⟨Links.detached_coherent.pushBack _ _, ?_, ?_, by simp, ?_, ?_⟩, ?_, ?_, ?_, by simp,
    ?_, ?_, by simp⟩
  · exact hempty.pushBack Links.detached_coherent rfl (by simp)
  · exact fun e _ => Links.ring_nil.mpr (hlinks _ nofun nofun)
  · simp [keyBlocked, blockedOn]
  · simp [keyBlocked, blockedOn]
  · exact ⟨by simp, by simp [keyBlocked, blockedOn], by simp, by simp⟩
  · exact fun l => Links.ring_nil.mpr (hlinks _ nofun nofun)
  · exact fun w _ => hlinks _ nofun nofun
  · exact fun f => ⟨[], Links.ring_nil.mpr (hlinks _ nofun nofun)⟩
  · simp [keyBlocked, blockedOn]

/-- The signalling fiber still holds the lock, as it may: the call dereferences null. -/
theorem signalKeyImpl_fails_keyBlocked :
    (keyBlocked 0x80ff).KeyWaiters [1] (fun _ => []) (fun _ => []) 32 [1] ∧
    (keyBlocked 0x80ff).signalKeyImpl 6 32 1 = .error .nullDereference ∧
    ¬ ∃ result s', (keyBlocked 0x80ff).signalKeyImpl 6 32 1 = .ok (result, s') ∧
      SignalServed (keyBlocked 0x80ff) s' [1] (fun _ => []) 32 [1] 1 := by
  have hfail : (keyBlocked 0x80ff).signalKeyImpl 6 32 1 = .error .nullDereference := rfl
  refine ⟨keyBlocked_keyWaiters _, hfail, ?_⟩
  rintro ⟨result, s', hs', -⟩
  rw [hfail] at hs'
  cases hs'

end DDFramework.UserScheduler
