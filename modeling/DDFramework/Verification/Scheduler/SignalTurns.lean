import DDFramework.Verification.Scheduler.Transfer
import DDFramework.Verification.Scheduler.WakeCalls

/-! # The loops of a signal

`SwapLockForSignalKey` gives each waiter its turn at its lock word, and the waiters that
remain get a new entry in `m_wait_list`. -/

namespace DDFramework.UserScheduler

/-! ### Turns at the lock words -/

/-- At its turn a waiter takes a free word; in a held word it only sets the waiters bit. -/
def takeTurn (s : UserScheduler) (words : Address → BitVec 32) (w : FiberId) :
    Address → BitVec 32 :=
  let address := (s.fibers w).lockAddress
  Function.update words address
    (if words address = 0 then (s.fibers w).waitTag else words address ||| hasChildWaitersBit)

/-- The waiters in the order of their turns, each with the word that it finds. -/
def lockTurns (s : UserScheduler) :
    (Address → BitVec 32) → List FiberId → List (FiberId × BitVec 32)
  | _, [] => []
  | words, w :: ws => (w, words (s.fibers w).lockAddress) :: lockTurns s (takeTurn s words w) ws

/-- Every waiter finds its word free. -/
def LocksFree (s : UserScheduler) (words : Address → BitVec 32) (ws : List FiberId) : Prop :=
  ∀ turn ∈ lockTurns s words ws, turn.2 = 0

theorem locksFree_nil (s : UserScheduler) (words : Address → BitVec 32) : LocksFree s words [] := by
  simp [LocksFree, lockTurns]

theorem locksFree_cons {s : UserScheduler} {words : Address → BitVec 32} {w : FiberId}
    {ws : List FiberId} : LocksFree s words (w :: ws) ↔
      words (s.fibers w).lockAddress = 0 ∧ LocksFree s (takeTurn s words w) ws := by
  simp [LocksFree, lockTurns]

theorem LocksFree.turns_eq {s : UserScheduler} {words : Address → BitVec 32} {ws : List FiberId}
    (h : LocksFree s words ws) : lockTurns s words ws = ws.map fun w => (w, 0) := by
  induction ws generalizing words with
  | nil => rfl
  | cons w ws ih =>
      obtain ⟨hw, hws⟩ := locksFree_cons.mp h
      rw [lockTurns, hw, ih hws, List.map_cons]

theorem takeTurn_ne_zero {s : UserScheduler} {words : Address → BitVec 32} {address : Address}
    (h : words address ≠ 0) (w : FiberId) : takeTurn s words w address ≠ 0 := by
  have hbit : words address ||| hasChildWaitersBit ≠ 0 := by
    simpa [BitVec.or_eq_zero_iff] using fun he => (h he).elim
  unfold takeTurn
  by_cases ha : address = (s.fibers w).lockAddress
  · subst address
    rwa [Function.update_self, if_neg h]
  · rwa [Function.update_of_ne ha]

theorem foldl_takeTurn_ne_zero {s : UserScheduler} {words : Address → BitVec 32}
    {address : Address} (h : words address ≠ 0) (ws : List FiberId) :
    ws.foldl (takeTurn s) words address ≠ 0 := by
  induction ws generalizing words with
  | nil => exact h
  | cons w ws ih => exact ih (takeTurn_ne_zero h w)

/-- A word that is free at the turn of a waiter is free before the first turn. -/
theorem LocksFree.words_eq_zero {s : UserScheduler} {words : Address → BitVec 32}
    {ws : List FiberId} (h : LocksFree s words ws) :
    ∀ w ∈ ws, words (s.fibers w).lockAddress = 0 := by
  induction ws generalizing words with
  | nil => simp
  | cons w ws ih =>
      obtain ⟨hw, hws⟩ := locksFree_cons.mp h
      intro v hv
      rcases List.mem_cons.mp hv with rfl | hv
      · exact hw
      · by_contra hheld
        exact takeTurn_ne_zero hheld w (ih hws v hv)

/-! ### One signalled waiter -/

/-- The handle that is looked up for a held lock is never valid. -/
theorem getFiberByHandle_not_hasChildWaitersBit (s : UserScheduler) :
    s.getFiberByHandle (~~~hasChildWaitersBit) = .ok none := by
  have hreject : (~~~hasChildWaitersBit) >>> 0x1e ≠ 0 := by decide
  unfold getFiberByHandle HandleTable.getObjectByHandle
  rw [if_pos (Or.inl hreject)]

/-- The state after a waiter has taken its free lock. -/
def lockTaken (s : UserScheduler) (f : FiberId) : UserScheduler :=
  { s with words := Function.update s.words (s.fibers f).lockAddress (s.fibers f).waitTag
    }.endFiberWaitImpl f resultSuccess

theorem lockTaken_links (s : UserScheduler) (f : FiberId) :
    (s.lockTaken f).links = (s.endFiberWaitImpl f resultSuccess).links := by
  rw [lockTaken, endFiberWaitImpl_links, endFiberWaitImpl_links]

theorem lockTaken_fibers (s : UserScheduler) (f : FiberId) :
    (s.lockTaken f).fibers = (s.endFiberWaitImpl f resultSuccess).fibers := by
  rw [lockTaken, endFiberWaitImpl_fibers, endFiberWaitImpl_fibers]

theorem lockTaken_words (s : UserScheduler) (f : FiberId) :
    (s.lockTaken f).words =
      Function.update s.words (s.fibers f).lockAddress (s.fibers f).waitTag := by
  rw [lockTaken, endFiberWaitImpl_words]

theorem swapLockForSignalKey_of_free {s : UserScheduler} {f : FiberId}
    (haddress : (s.fibers f).lockAddress ≠ 0) (hfree : s.words (s.fibers f).lockAddress = 0)
    (hobject : (s.fibers f).waitableObject ≠ none) :
    s.swapLockForSignalKey f = .ok (s.lockTaken f) := by
  unfold swapLockForSignalKey readWord writeWord
  simp only [if_neg haddress, ok_bind, hfree, ne_eq, not_true_eq_false, if_false]
  exact endWait_of_isSome hobject

/-- A held lock makes the signal dereference a null fiber. -/
theorem swapLockForSignalKey_of_held {s : UserScheduler} {f : FiberId}
    (haddress : (s.fibers f).lockAddress ≠ 0) (hheld : s.words (s.fibers f).lockAddress ≠ 0) :
    s.swapLockForSignalKey f = .error .nullDereference := by
  unfold swapLockForSignalKey readWord writeWord
  simp only [if_neg haddress, ok_bind, if_pos hheld, getFiberByHandle_not_hasChildWaitersBit]

theorem swapLockForSignalKey_eq_ok {s s' : UserScheduler} {f : FiberId}
    (h : s.swapLockForSignalKey f = .ok s') : s' = s.lockTaken f := by
  by_cases haddress : (s.fibers f).lockAddress = 0
  · simp [swapLockForSignalKey, readWord, haddress] at h
  · by_cases hheld : s.words (s.fibers f).lockAddress = 0
    · unfold swapLockForSignalKey readWord writeWord at h
      simp only [if_neg haddress, ok_bind, hheld, ne_eq, not_true_eq_false, if_false] at h
      exact (endWait_eq_ok h).2
    · rw [swapLockForSignalKey_of_held haddress hheld] at h
      cases h

/-! ### The loop over the children -/

theorem signalStep_eq_next {signalCount : BitVec 32} {c : FiberId}
    {p p' : UserScheduler × BitVec 32}
    (h : signalStep signalCount (.waitListNode c) p = .ok (.next p')) :
    p' = ((p.1.unlink (.waitListNode c)).lockTaken c, p.2 + 1) := by
  unfold signalStep at h
  split at h
  · cases h
  · simp only [waitNodeParent, ok_bind] at h
    obtain ⟨t, ht, h⟩ := bind_eq_ok_iff.mp h
    rw [swapLockForSignalKey_eq_ok ht] at h
    simp only [Except.ok.injEq, LoopExit.next.injEq] at h
    exact h.symm

theorem ChildrenLeft.signalStep {w : FiberId} {signalCount : BitVec 32} {x : Node}
    {xs : List Node} {p p' : UserScheduler × BitVec 32} (h : ChildrenLeft w (x :: xs) p)
    (hstep : signalStep signalCount x p = .ok (.next p')) : ChildrenLeft w xs p' := by
  obtain ⟨c, rfl⟩ := h.nodes x (by simp)
  have hnodes : ∀ x ∈ xs, ∃ y, x = Node.waitListNode y := fun z hz => h.nodes z (by simp [hz])
  have hc := h.coherent.unlink (.waitListNode c)
  have hring := h.ring.unlink_front h.coherent
  rw [signalStep_eq_next hstep]
  have hcoherent := endFiberWaitImpl_coherent (s := p.1.unlink (.waitListNode c)) hc c resultSuccess
  have hleft := endFiberWaitImpl_childRing (s := p.1.unlink (.waitListNode c)) (f := c) hc hring
    hnodes resultSuccess
  rw [← lockTaken_links] at hcoherent hleft
  exact ⟨hcoherent, hleft, hnodes⟩

/-- The waiters `done` have had their turns, and `left` are still on the `wait_list` of `w`. -/
structure Signalled (s : UserScheduler) (entries : List FiberId) (runs : RunList → List FiberId)
    (w : FiberId) (done left : List FiberId) (p : UserScheduler × BitVec 32) : Prop where
  coherent : p.1.links.Coherent
  children : p.1.links.Ring (.fiberWaitList w) (left.map .waitListNode)
  entryRing : p.1.links.Ring .schedulerWaitList ((entries.erase w).map .schedulerListNode)
  runRing : ∀ l, p.1.links.Ring (.runList l)
    ((runs l ++ done.filter fun f => homeList (s.fibers f) = some (.runList l)).map
      .schedulerListNode)
  otherList : ∀ g, g ≠ w → ∀ old : List FiberId,
    s.links.Ring (.fiberWaitList g) (old.map .waitListNode) →
      p.1.links.Ring (.fiberWaitList g) (old.map .waitListNode)
  childNode : ∀ c ∈ left, s.links.next (.schedulerListNode c) = .schedulerListNode c →
    p.1.links.next (.schedulerListNode c) = .schedulerListNode c
  words : p.1.words = done.foldl (takeTurn s) s.words
  ended : ∀ f ∈ done, p.1.fibers f = endedRecord (s.fibers f) resultSuccess
  kept : ∀ f, f ∉ done → p.1.fibers f = s.fibers f
  count : p.2.toNat = done.length

/-- A child takes the next turn. -/
theorem Signalled.lockTaken {s : UserScheduler} {entries : List FiberId}
    {runs : RunList → List FiberId} {w c : FiberId} {done left : List FiberId}
    {p : UserScheduler × BitVec 32} (h : Signalled s entries runs w done (c :: left) p)
    (hentry : c ∉ entries)
    (hdetached : s.links.next (.schedulerListNode c) = .schedulerListNode c)
    (hdone : c ∉ done) (hleft : c ∉ left)
    (hfree : p.1.words (s.fibers c).lockAddress = 0) (hbound : p.2.toNat + 1 < 2 ^ 32) :
    Signalled s entries runs w (done ++ [c]) left
      ((p.1.unlink (.waitListNode c)).lockTaken c, p.2 + 1) := by
  let u := p.1.unlink (.waitListNode c)
  have hc : u.links.Coherent := h.coherent.unlink (.waitListNode c)
  have hrecord : u.fibers c = s.fibers c := h.kept c hdone
  have hnode : u.links.next (.schedulerListNode c) = .schedulerListNode c :=
    Links.unlink_next_of_next_eq h.coherent (h.childNode c (by simp) hdetached)
  constructor
  all_goals simp only [lockTaken_links, lockTaken_fibers, lockTaken_words]
  · exact endFiberWaitImpl_coherent hc c resultSuccess
  · exact endFiberWaitImpl_childRing hc (h.children.unlink_front h.coherent) (by simp) _
  · have hring : u.links.Ring .schedulerWaitList ((entries.erase w).map .schedulerListNode) :=
      h.entryRing.unlink_of_notMem h.coherent (by simp)
    have herased := endFiberWaitImpl_entryRing (f := c) hc hring resultSuccess
    rwa [List.erase_of_not_mem (fun hm => hentry (List.mem_of_mem_erase hm))] at herased
  · intro l
    have hring : u.links.Ring (.runList l) _ :=
      (h.runRing l).unlink_of_notMem h.coherent (by simp)
    have hnot : Node.schedulerListNode c ∉ .runList l :: (runs l ++ done.filter
        fun f => homeList (s.fibers f) = some (.runList l)).map Node.schedulerListNode := by
      intro hm
      exact hring.next_ne_of_mem (by simpa using hm) hnode
    have hpushed := endFiberWaitImpl_runRing hc hring hnot resultSuccess
    rw [List.filter_append, ← List.append_assoc, List.filter_singleton]
    rwa [List.filter_singleton, hrecord] at hpushed
  · intro g hg old hold
    have hring := h.otherList g hg old hold
    have hnot : Node.waitListNode c ∉ .fiberWaitList g :: old.map Node.waitListNode := by
      intro hm
      exact h.children.disjoint h.coherent hring (by simp [hg]) (by simp) hm
    exact endFiberWaitImpl_childRing hc (hring.unlink_of_notMem h.coherent hnot) (by simp) _
  · intro d hd hnode
    have hne : c ≠ d := fun he => hleft (he ▸ hd)
    have hkept : u.links.next (.schedulerListNode d) = .schedulerListNode d :=
      Links.unlink_next_of_next_eq h.coherent (h.childNode d (by simp [hd]) hnode)
    exact endFiberWaitImpl_schedulerNode hc hkept hne _
  · rw [List.foldl_append, ← h.words]
    simp [takeTurn, hfree, h.kept c hdone]
  · intro f hf
    rcases List.mem_append.mp hf with hf | hf
    · have hne : f ≠ c := fun he => hdone (he ▸ hf)
      rw [endFiberWaitImpl_fibers_of_ne _ hne]
      exact h.ended f hf
    · rw [List.mem_singleton.mp hf, endFiberWaitImpl_fibers_self, hrecord]
  · intro f hf
    simp only [List.mem_append, List.mem_singleton, not_or] at hf
    rw [endFiberWaitImpl_fibers_of_ne _ hf.2]
    exact h.kept f hf.1
  · rw [BitVec.toNat_add, h.count, List.length_append]
    rw [h.count] at hbound
    simp
    omega

/-- A fiber behind the entry waits for a held lock, or it is on no list of the scheduler. -/
structure AwaitsTurn (s : UserScheduler) (entries : List FiberId) (c : FiberId) : Prop where
  lockAddress : (s.fibers c).lockAddress ≠ 0
  object : (s.fibers c).waitableObject ≠ none
  unlisted : s.words (s.fibers c).lockAddress = 0 →
    c ∉ entries ∧ s.links.next (.schedulerListNode c) = .schedulerListNode c

/-- What the loop does on `left` when `r` turns are still to be given. -/
theorem Signalled.visit {s : UserScheduler} {entries : List FiberId}
    {runs : RunList → List FiberId} {w : FiberId} {signalCount : BitVec 32}
    {done left : List FiberId} {p : UserScheduler × BitVec 32}
    (rest : UserScheduler × BitVec 32 → Except Fault (UserScheduler × BitVec 32)) {r : ℕ}
    (h : Signalled s entries runs w done left p) (hnodup : (done ++ left).Nodup)
    (hwaiter : ∀ c ∈ left, s.AwaitsTurn entries c)
    (hr : signalCount.toNat = done.length + r) :
    (¬ LocksFree s p.1.words (left.take r) →
      ∀ p', visit (signalStep signalCount) (left.map .waitListNode) rest p ≠ .ok p') ∧
    (LocksFree s p.1.words (left.take r) → r < left.length →
      ∃ p', visit (signalStep signalCount) (left.map .waitListNode) rest p = .ok p' ∧
        Signalled s entries runs w (done ++ left.take r) (left.drop r) p') ∧
    (LocksFree s p.1.words (left.take r) → left.length ≤ r →
      ∃ p', visit (signalStep signalCount) (left.map .waitListNode) rest p = rest p' ∧
        Signalled s entries runs w (done ++ left) [] p') := by
  have hlt := signalCount.isLt
  induction left generalizing done p r with
  | nil =>
      refine ⟨fun hnot => (hnot (by simpa using locksFree_nil s _)).elim, by simp, ?_⟩
      exact fun _ _ => ⟨p, rfl, by simpa using h⟩
  | cons c left ih =>
      obtain ⟨haddress, hobject, hunlisted⟩ := hwaiter c (by simp)
      have hdone : c ∉ done := fun hm => List.disjoint_of_nodup_append hnodup hm (by simp)
      have hleft : c ∉ left := (List.nodup_cons.mp hnodup.of_append_right).1
      have hrecord := h.kept c hdone
      cases r with
      | zero =>
          have hstop : signalStep signalCount (.waitListNode c) p = .ok (.stop p) := by
            rw [signalStep, if_pos]
            rw [BitVec.le_def, h.count, hr, Nat.add_zero]
          rw [List.map_cons, visit_stop hstop]
          refine ⟨fun hnot => (hnot (by simpa using locksFree_nil s _)).elim, ?_, by simp⟩
          exact fun _ _ => ⟨p, rfl, by simpa using h⟩
      | succ r =>
          have hgo : ¬ signalCount ≤ p.2 := by
            rw [BitVec.le_def, h.count]
            omega
          rw [List.take_succ_cons, locksFree_cons, List.map_cons]
          by_cases hfree : p.1.words (s.fibers c).lockAddress = 0
          · have hstep : signalStep signalCount (.waitListNode c) p =
                .ok (.next ((p.1.unlink (.waitListNode c)).lockTaken c, p.2 + 1)) := by
              have hswap := swapLockForSignalKey_of_free (s := p.1.unlink (.waitListNode c)) (f := c)
                (by rwa [unlink_fibers, hrecord]) (by rwa [unlink_fibers, hrecord])
                (by rwa [unlink_fibers, hrecord])
              simp only [signalStep, if_neg hgo, waitNodeParent, ok_bind, hswap]
            -- a word that is held at the start would be held at this turn
            have hstart : s.words (s.fibers c).lockAddress = 0 := by
              by_contra hheld
              exact foldl_takeTurn_ne_zero hheld done (by rw [← h.words]; exact hfree)
            obtain ⟨hentry, hdetached⟩ := hunlisted hstart
            have hnext := h.lockTaken hentry hdetached hdone hleft hfree (by rw [h.count]; omega)
            have hwords : takeTurn s p.1.words c =
                ((p.1.unlink (.waitListNode c)).lockTaken c).words := by
              rw [lockTaken_words]
              simp [takeTurn, hfree, hrecord]
            rw [visit_next hstep, hwords]
            obtain ⟨h₁, h₂, h₃⟩ := ih (r := r) hnext (by simpa using hnodup)
              (fun d hd => hwaiter d (by simp [hd])) (by simp; omega)
            refine ⟨fun hnot => h₁ (fun hf => hnot ⟨hfree, hf⟩), ?_, ?_⟩
            · intro hf hlen
              simpa using h₂ hf.2 (by simpa using hlen)
            · intro hf hlen
              simpa using h₃ hf.2 (by simpa using hlen)
          · have hstep : signalStep signalCount (.waitListNode c) p = .error .nullDereference := by
              have hswap := swapLockForSignalKey_of_held (s := p.1.unlink (.waitListNode c)) (f := c)
                (by rwa [unlink_fibers, hrecord]) (by rwa [unlink_fibers, hrecord])
              simp only [signalStep, if_neg hgo, waitNodeParent, ok_bind, hswap, error_bind]
            rw [visit_error hstep]
            exact ⟨by simp, fun hf => (hfree hf.1).elim, fun hf => (hfree hf.1).elim⟩

/-- Once all children are unlinked, the loop ends at the list head only if the count is
reached; else it takes the head for a fiber. -/
theorem Signalled.rangeLoop_head {s : UserScheduler} {entries : List FiberId}
    {runs : RunList → List FiberId} {w : FiberId} {signalCount : BitVec 32} {done : List FiberId}
    {p : UserScheduler × BitVec 32} {stop : Node} {n : ℕ}
    (h : Signalled s entries runs w done [] p) (hstop : .fiberWaitList w ≠ stop) :
    rangeLoop (fun p : UserScheduler × BitVec 32 => p.1.links) (signalStep signalCount) stop (n + 1)
        (.fiberWaitList w) p =
      if signalCount.toNat ≤ done.length then .ok p else .error .sentinelDereference := by
  have hprev : p.1.links.prev (.fiberWaitList w) = .fiberWaitList w :=
    h.coherent.next_eq_iff.mp (Links.ring_nil.mp h.children)
  split
  · rename_i hle
    apply rangeLoop_stop hstop
    rw [hprev, signalStep, if_pos]
    rwa [BitVec.le_def, h.count]
  · rename_i hle
    apply rangeLoop_error hstop
    rw [hprev, signalStep, if_neg]
    · rfl
    · rwa [BitVec.le_def, h.count]

/-- The loop over the children returns exactly when the words are free and the count is
reached at the list head at the latest. -/
theorem Signalled.signalChildren {s t : UserScheduler} {entries : List FiberId}
    {runs : RunList → List FiberId} {w : FiberId} {signalCount : BitVec 32}
    {rest : List FiberId} {r fuel : ℕ} (h : Signalled s entries runs w [w] rest (t, 1))
    (hnodup : (w :: rest).Nodup) (hwaiter : ∀ c ∈ rest, s.AwaitsTurn entries c)
    (hrest : rest ≠ []) (hr : signalCount.toNat = 1 + r) (hfuel : rest.length + 1 < fuel) :
    (∀ t', t.signalChildren fuel w signalCount = .ok t' →
      LocksFree s t.words (rest.take r) ∧ r ≤ rest.length) ∧
    (LocksFree s t.words (rest.take r) → r ≤ rest.length →
      ∃ t' i, t.signalChildren fuel w signalCount = .ok t' ∧
        Signalled s entries runs w (w :: rest.take r) (rest.drop r) (t', i)) := by
  obtain ⟨x, xs, rfl⟩ := List.exists_cons_of_ne_nil hrest
  simp only [List.length_cons] at hfuel
  obtain ⟨n, rfl⟩ : ∃ n, fuel = n + 1 + xs.length + 1 := ⟨fuel - xs.length - 2, by omega⟩
  have hleft : ChildrenLeft w ((x :: xs).map .waitListNode) (t, (1 : BitVec 32)) :=
    ⟨h.coherent, h.children, by simp⟩
  have hloop : rangeFor (fun p : UserScheduler × BitVec 32 => p.1.links) (.fiberWaitList w)
      (signalStep signalCount) (n + 1 + (xs.map Node.waitListNode).length + 1) (t, 1) = _ :=
    rangeFor_unlinking (ChildrenLeft w) (fun _ _ h => h.coherent) (fun _ _ h => h.ring)
      (fun _ _ _ _ h hs => h.signalStep hs) hleft
  rw [List.length_map, ← List.map_cons] at hloop
  obtain ⟨h₁, h₂, h₃⟩ := h.visit (r := r) (rangeLoop (fun p : UserScheduler × BitVec 32 =>
    p.1.links) (signalStep signalCount) (.waitListNode x) (n + 1) (.fiberWaitList w))
    (by simpa using hnodup) hwaiter (by simpa using hr)
  rw [UserScheduler.signalChildren, hloop]
  constructor
  · intro t' ht'
    obtain ⟨p, hp, -⟩ := bind_eq_ok_iff.mp ht'
    by_cases hfree : LocksFree s t.words ((x :: xs).take r)
    · refine ⟨hfree, ?_⟩
      by_contra hlen
      obtain ⟨q, hq, hdone⟩ := h₃ hfree (by omega)
      rw [hq, hdone.rangeLoop_head (by simp), if_neg] at hp
      · cases hp
      · simp at hlen ⊢
        omega
    · exact (h₁ hfree p hp).elim
  · intro hfree hlen
    rcases Nat.lt_or_eq_of_le hlen with hlt | heq
    · obtain ⟨p, hp, hdone⟩ := h₂ hfree hlt
      exact ⟨p.1, p.2, by rw [hp]; rfl, by simpa using hdone⟩
    · obtain ⟨p, hp, hdone⟩ := h₃ hfree (by omega)
      refine ⟨p.1, p.2, ?_, ?_⟩
      · rw [hp, hdone.rangeLoop_head (by simp), if_pos]
        · rfl
        · simp at heq ⊢
          omega
      · rw [heq, List.take_length, List.drop_length]
        simpa using hdone

/-! ### The remaining children -/

/-- More than one remaining child: a node that was not in the list of `w` gets into it, either
the list head of the new entry or an element of its list. -/
theorem Signalled.promoteWaiter_of_many {s t t' : UserScheduler} {entries : List FiberId}
    {runs : RunList → List FiberId} {w v x : FiberId} {done xs own : List FiberId} {i : BitVec 32}
    {fuel : ℕ} (h : Signalled s entries runs w done (v :: x :: xs) (t, i))
    (hlist : s.links.Ring (.fiberWaitList v) (own.map .waitListNode)) (hv : v ≠ w)
    (hpromote : t.promoteWaiter fuel w = .ok t') :
    ∃ z zs, z ∈ Node.fiberWaitList v :: own.map Node.waitListNode ∧
      t'.links.Ring (.fiberWaitList w) (z :: zs) := by
  have hc := h.coherent.unlink (.waitListNode v)
  have hsource := h.children.unlink_front h.coherent
  have hold := h.otherList v hv own hlist
  have hnot : Node.waitListNode v ∉ .fiberWaitList v :: own.map Node.waitListNode := by
    intro hm
    exact h.children.disjoint h.coherent hold (by simp [hv]) (by simp) hm
  have htarget := hold.unlink_of_notMem h.coherent hnot
  have hnext : t.links.next (.fiberWaitList w) = .waitListNode v := h.children.next_head
  have hempty : t.links.isEmpty (.fiberWaitList w) = false := by
    rw [h.children.isEmpty_eq]
    rfl
  simp only [promoteWaiter, hempty, Bool.false_eq_true, if_false, Links.popFront, hnext,
    waitNodeParent, ok_bind] at hpromote
  obtain ⟨u, hu, hpromote⟩ := bind_eq_ok_iff.mp hpromote
  obtain ⟨hcu, z, zs, hz, hmem, hring⟩ := transferWaitList_source hv.symm hc hsource htarget
    (by simp) hu
  cases hpromote
  refine ⟨z, zs, hz, ?_⟩
  have hnode : ∀ y, (∀ g, y ≠ Node.fiberWaitList g) → (∀ g, y ≠ .waitListNode g) →
      y ∉ Node.fiberWaitList w :: z :: zs := by
    intro y hlist hnode hm
    rcases List.mem_cons.mp hm with rfl | hm
    · exact hlist w rfl
    · rcases mem_waitNodes own (x :: xs) (hmem y hm) with ⟨g, rfl⟩ | ⟨g, rfl⟩
      · exact hlist g rfl
      · exact hnode g rfl
  have hunlinked := hring.unlink_of_notMem hcu
    (hnode (.schedulerListNode w) (by simp) (by simp))
  exact hunlinked.pushBack_of_notMem (hcu.unlink _) (hnode _ (by simp) (by simp))
    (hnode _ (by simp) (by simp))

/-- One remaining fiber becomes the entry, whatever it waits for. -/
theorem Signalled.promoteWaiter_of_one {s t : UserScheduler} {entries : List FiberId}
    {runs : RunList → List FiberId} {w v : FiberId} {done : List FiberId} {i : BitVec 32} (n : ℕ)
    (h : Signalled s entries runs w done [v] (t, i)) :
    t.promoteWaiter (n + 1) w = .ok (((t.unlink (.waitListNode v)).unlink
      (.schedulerListNode w)).pushBack .schedulerWaitList (.schedulerListNode v)) := by
  have hnext : t.links.next (.fiberWaitList w) = .waitListNode v := h.children.next_head
  have hempty : t.links.isEmpty (.fiberWaitList w) = false := by
    rw [h.children.isEmpty_eq]
    rfl
  let u := t.unlink (.waitListNode v)
  have hsource : u.links.Ring (.fiberWaitList w) [] := h.children.unlink_front h.coherent
  simp only [promoteWaiter, hempty, Bool.false_eq_true, if_false, Links.popFront, hnext,
    waitNodeParent, ok_bind]
  change (u.transferWaitList (n + 1) w v >>= _) = _
  rw [transferWaitList_of_empty (Links.ring_nil.mp hsource)]
  rfl

theorem Signalled.promoteWaiter_list {s t t' : UserScheduler} {entries : List FiberId}
    {runs : RunList → List FiberId} {w v : FiberId} {done : List FiberId} {i : BitVec 32} {n : ℕ}
    (h : Signalled s entries runs w done [v] (t, i))
    (hpromote : t.promoteWaiter (n + 1) w = .ok t') : t'.links.Ring (.fiberWaitList w) [] := by
  rw [h.promoteWaiter_of_one n] at hpromote
  cases hpromote
  have hcu : (t.unlink (.waitListNode v)).links.Coherent := h.coherent.unlink _
  have hsource := (h.children.unlink_front h.coherent).unlink_of_notMem hcu
    (show Node.schedulerListNode w ∉ [Node.fiberWaitList w] by simp)
  exact hsource.pushBack_of_notMem (hcu.unlink _) (by simp) (by simp)

/-- One remaining waiter becomes the entry; the old entry leaves whatever list it is in. -/
structure Promoted (s : UserScheduler) (entries : List FiberId) (runs : RunList → List FiberId)
    (w v : FiberId) (done : List FiberId) (t t' : UserScheduler) : Prop where
  words : t'.words = t.words
  fibers : t'.fibers = t.fibers
  entryRing : t'.links.Ring .schedulerWaitList ((entries.erase w ++ [v]).map .schedulerListNode)
  runRing : ∀ l, t'.links.Ring (.runList l)
    (((runs l ++ done.filter fun f => homeList (s.fibers f) = some (.runList l)).erase w).map
      .schedulerListNode)
  list : t'.links.Ring (.fiberWaitList w) []
  otherList : ∀ g, g ≠ w → ∀ old : List FiberId,
    s.links.Ring (.fiberWaitList g) (old.map .waitListNode) →
      t'.links.Ring (.fiberWaitList g) (old.map .waitListNode)

theorem Signalled.promoted {s t t' : UserScheduler} {entries : List FiberId}
    {runs : RunList → List FiberId} {w v : FiberId} {done : List FiberId} {i : BitVec 32} {n : ℕ}
    (h : Signalled s entries runs w done [v] (t, i)) (hentries : entries.Nodup)
    (hdetached : s.links.next (.schedulerListNode v) = .schedulerListNode v)
    (hpromote : t.promoteWaiter (n + 1) w = .ok t') : Promoted s entries runs w v done t t' := by
  have hlist := h.promoteWaiter_list hpromote
  rw [h.promoteWaiter_of_one n] at hpromote
  cases hpromote
  let u := t.unlink (.waitListNode v)
  have hcu : u.links.Coherent := h.coherent.unlink _
  let u' := u.unlink (.schedulerListNode w)
  have hcu' : u'.links.Coherent := hcu.unlink _
  have hnode : u'.links.next (.schedulerListNode v) = .schedulerListNode v :=
    Links.unlink_next_of_next_eq hcu
      (Links.unlink_next_of_next_eq h.coherent (h.childNode v (by simp) hdetached))
  have hentry : u'.links.Ring .schedulerWaitList ((entries.erase w).map .schedulerListNode) := by
    refine Links.Ring.unlink_of_notMem hcu (h.entryRing.unlink_of_notMem h.coherent (by simp)) ?_
    simpa using hentries.not_mem_erase
  refine ⟨rfl, rfl, ?_, ?_, hlist, ?_⟩
  · rw [List.map_append]
    refine hentry.pushBack hcu' hnode ?_
    intro hm
    exact hentry.next_ne_of_mem (by simpa using hm) hnode
  · intro l
    have hring : u.links.Ring (.runList l) _ :=
      (h.runRing l).unlink_of_notMem h.coherent (by simp)
    have herased : u'.links.Ring (.runList l) _ := hring.unlink hcu (by simp)
    rw [← List.map_erase @Node.schedulerListNode.inj] at herased
    refine herased.pushBack_of_notMem hcu' (by simp) ?_
    intro hm
    exact herased.next_ne_of_mem (by simpa using hm) hnode
  · intro g hg old hold
    have hring := h.otherList g hg old hold
    have hnot : Node.waitListNode v ∉ .fiberWaitList g :: old.map Node.waitListNode := by
      intro hm
      exact h.children.disjoint h.coherent hring (by simp [hg]) (by simp) hm
    have hu : u.links.Ring (.fiberWaitList g) (old.map .waitListNode) :=
      hring.unlink_of_notMem h.coherent hnot
    have hu' : u'.links.Ring (.fiberWaitList g) (old.map .waitListNode) :=
      hu.unlink_of_notMem hcu (by simp)
    exact hu'.pushBack_of_notMem hcu' (by simp) (by simp)

end DDFramework.UserScheduler
