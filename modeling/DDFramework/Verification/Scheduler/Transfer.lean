import DDFramework.Verification.Scheduler.Records

/-! # Moving the waiters of a fiber

The loop that moves a `wait_list` unlinks what it visits, so it goes on with the head
of the list it has emptied. It pushes that head to the destination as well. -/

namespace DDFramework.UserScheduler

theorem transferWaitList_of_empty {s : UserScheduler} {src dst : FiberId} {n : ℕ}
    (h : s.links.next (.fiberWaitList src) = .fiberWaitList src) :
    s.transferWaitList (n + 1) src dst = .ok s :=
  rangeFor_nil h

/-- After the move of some elements of `all`, `ys` are still to be moved. -/
structure Moving (s : UserScheduler) (src dst : FiberId) (all ys : List Node)
    (t : UserScheduler) : Prop where
  eq : t = { s with links := t.links }
  coherent : t.links.Coherent
  source : t.links.Ring (.fiberWaitList src) ys
  target : ∃ moved, moved ++ ys = all ∧ t.links.Ring (.fiberWaitList dst) moved

theorem Moving.transferStep {s t t' : UserScheduler} {src dst : FiberId} {all ys : List Node}
    {y : Node} (hne : src ≠ dst) (hdst : .fiberWaitList dst ∉ all)
    (h : Moving s src dst all (y :: ys) t) (hstep : transferStep dst y t = .ok (.next t')) :
    Moving s src dst all ys t' := by
  cases hstep
  obtain ⟨moved, hmoved, htarget⟩ := h.target
  have hlist : Node.fiberWaitList dst ∉ .fiberWaitList src :: y :: ys := by
    intro hm
    rcases List.mem_cons.mp hm with he | hm
    · exact hne (Node.fiberWaitList.inj he).symm
    · exact hdst (hmoved ▸ List.mem_append_right moved hm)
  have hdisjoint := h.source.disjoint h.coherent htarget hlist
  have hy : y ∉ .fiberWaitList dst :: moved := fun hm => hdisjoint (by simp) hm
  have hc := h.coherent.unlink y
  have hsource := h.source.unlink_front h.coherent
  have hys : y ∉ .fiberWaitList src :: ys := by
    have hn := h.source.nodup
    simp only [List.nodup_cons, List.mem_cons, not_or] at hn ⊢
    exact ⟨Ne.symm hn.1.1, hn.2.1⟩
  refine ⟨?_, hc.pushBack _ _, ?_, moved ++ [y], by simp [hmoved], ?_⟩
  · rw [h.eq]
    rfl
  · exact hsource.pushBack_of_notMem hc (fun hm => hlist (by simp at hm ⊢; tauto)) hys
  · exact (htarget.unlink_of_notMem h.coherent hy).pushBack hc (Links.unlink_next_self _ _) hy

theorem visit_transferStep (rest : UserScheduler → Except Fault UserScheduler)
    {s t : UserScheduler} {src dst : FiberId} {all ys : List Node} (hne : src ≠ dst)
    (hdst : .fiberWaitList dst ∉ all) (h : Moving s src dst all ys t) :
    ∃ t', visit (transferStep dst) ys rest t = rest t' ∧ Moving s src dst all [] t' := by
  induction ys generalizing t with
  | nil => exact ⟨t, rfl, h⟩
  | cons y ys ih =>
      have hstep : transferStep dst y t =
          .ok (.next ((t.unlink y).pushBack (.fiberWaitList dst) y)) := rfl
      rw [visit_next hstep]
      exact ih (h.transferStep hne hdst hstep)

/-- The state after the loop has visited `node`. -/
def pushed (t : UserScheduler) (dst : FiberId) (node : Node) : UserScheduler :=
  (t.unlink node).pushBack (.fiberWaitList dst) node

theorem pushed_coherent {t : UserScheduler} (hc : t.links.Coherent) (dst : FiberId)
    (node : Node) : (t.pushed dst node).links.Coherent :=
  (hc.unlink node).pushBack _ _

/-- The head of the emptied list becomes the last element of the destination. -/
theorem pushed_head {t : UserScheduler} {src dst : FiberId} {ys : List Node} (hne : src ≠ dst)
    (hc : t.links.Coherent) (hsource : t.links.Ring (.fiberWaitList src) [])
    (htarget : t.links.Ring (.fiberWaitList dst) ys) :
    (t.pushed dst (.fiberWaitList src)).links.Ring (.fiberWaitList dst)
        (ys ++ [.fiberWaitList src]) ∧
      (t.pushed dst (.fiberWaitList src)).links.next (.fiberWaitList src) = .fiberWaitList dst := by
  have hnot : Node.fiberWaitList src ∉ .fiberWaitList dst :: ys := by
    intro hm
    rcases List.mem_cons.mp hm with he | hm
    · exact hne (Node.fiberWaitList.inj he)
    · exact htarget.next_ne_of_mem hm (Links.ring_nil.mp hsource)
  have hself := t.links.unlink_next_self (.fiberWaitList src)
  constructor
  · exact (htarget.unlink_of_notMem hc hnot).pushBack (hc.unlink _) hself hnot
  · exact Links.pushBack_next_self (hc.unlink _) hself

/-- The last element stays the last one when it is pushed again. -/
theorem pushed_last {t : UserScheduler} {dst : FiberId} {node : Node} {ys : List Node}
    (hc : t.links.Coherent) (htarget : t.links.Ring (.fiberWaitList dst) (ys ++ [node])) :
    (t.pushed dst node).links.Ring (.fiberWaitList dst) (ys ++ [node]) := by
  have hnot : node ∉ .fiberWaitList dst :: ys := by
    have hn : (.fiberWaitList dst :: ys ++ [node]).Nodup := htarget.nodup
    exact fun hm => List.disjoint_of_nodup_append hn hm (by simp)
  have hremoved := htarget.unlink_middle hc
  rw [List.append_nil] at hremoved
  exact hremoved.pushBack (hc.unlink _) (Links.unlink_next_self _ _) hnot

/-! ### Past the last waiter -/

/-- Where the loop is after it has emptied the list of `src`. The elements that `dst` had
before are `us`, and those it got are `x :: xs`. -/
inductive Straying (src dst : FiberId) (us : List Node) (x : Node) (xs : List Node) :
    Node → UserScheduler → Prop where
  | atSource {t : UserScheduler} (hc : t.links.Coherent)
      (hsource : t.links.Ring (.fiberWaitList src) [])
      (htarget : t.links.Ring (.fiberWaitList dst) (us ++ x :: xs)) :
      Straying src dst us x xs (.fiberWaitList src) t
  | atTarget {t : UserScheduler} (hc : t.links.Coherent)
      (htarget : t.links.Ring (.fiberWaitList dst) (us ++ x :: xs ++ [.fiberWaitList src])) :
      Straying src dst us x xs (.fiberWaitList dst) t
  | again {t : UserScheduler} (hc : t.links.Coherent)
      (htarget : t.links.Ring (.fiberWaitList dst) (us ++ x :: xs ++ [.fiberWaitList src])) :
      Straying src dst us x xs (t.links.next (.fiberWaitList dst)) t
  | back {t : UserScheduler} {u : Node} {vs : List Node} (hc : t.links.Coherent)
      (hsource : t.links.Ring (.fiberWaitList src) (u :: vs ++ x :: xs))
      (hdst : .fiberWaitList dst ∉ .fiberWaitList src :: (u :: vs ++ x :: xs))
      (hmem : ∀ v ∈ u :: vs, v ∈ us) : Straying src dst us x xs (t.links.next u) t

variable {src dst : FiberId} {us xs : List Node} {x : Node}

theorem Straying.next {it : Node} {t t' : UserScheduler} (hne : src ≠ dst)
    (h : Straying src dst us x xs it t) (hit : it ≠ x)
    (hstep : transferStep dst (t.links.prev it) t = .ok (.next t')) :
    Straying src dst us x xs (t'.links.next it) t' := by
  cases hstep
  cases h with
  | atSource hc hsource htarget =>
      rw [hc.next_eq_iff.mp (Links.ring_nil.mp hsource)]
      obtain ⟨hring, hlast⟩ := pushed_head hne hc hsource htarget
      have hnext := Straying.atTarget (pushed_coherent hc dst _) hring
      rwa [← hlast] at hnext
  | atTarget hc htarget =>
      have hlast : t.links.prev (.fiberWaitList dst) = .fiberWaitList src :=
        hc.next_eq_iff.mp (Links.path_append.mp htarget.path).2
      rw [hlast]
      exact .again (pushed_coherent hc dst _) (pushed_last hc htarget)
  | again hc htarget =>
      rw [hc.prev_next]
      cases us with
      | nil => exact (hit htarget.next_head).elim
      | cons u us =>
          -- the head of the destination leaves its own ring
          have hu : t.links.next (.fiberWaitList dst) = u := htarget.next_head
          have hrotated : t.links.Ring (.fiberWaitList src)
              (.fiberWaitList dst :: (u :: us ++ x :: xs)) := htarget.rotate
          have hdst : Node.fiberWaitList dst ∉ .fiberWaitList src :: (u :: us ++ x :: xs) :=
            hrotated.front_notMem
          have hring : (t.pushed dst (.fiberWaitList dst)).links.Ring (.fiberWaitList src)
              (u :: us ++ x :: xs) :=
            (hrotated.unlink_front hc).pushBack_of_notMem (hc.unlink _) hdst hdst
          rw [hu]
          exact .back (pushed_coherent hc dst _) hring hdst fun _ hv => hv
  | @back _ u vs hc hsource hdst hmem =>
      rw [hc.prev_next]
      cases vs with
      | nil => exact (hit hsource.path.2.1).elim
      | cons v vs =>
          have hv : t.links.next u = v := hsource.path.2.1
          have hu : u ∉ .fiberWaitList src :: (v :: vs ++ x :: xs) := hsource.front_notMem
          have hdst' : Node.fiberWaitList dst ∉ .fiberWaitList src :: (v :: vs ++ x :: xs) := by
            intro hm
            apply hdst
            rcases List.mem_cons.mp hm with he | hm
            · exact he ▸ List.mem_cons_self
            · exact List.mem_cons_of_mem _ (List.mem_cons_of_mem u hm)
          have hring : (t.pushed dst u).links.Ring (.fiberWaitList src) (v :: vs ++ x :: xs) :=
            (hsource.unlink_front hc).pushBack_of_notMem (hc.unlink _) hdst' hu
          rw [hv]
          exact .back (pushed_coherent hc dst _) hring hdst' fun z hz =>
            hmem z (List.mem_cons_of_mem u hz)

/-- Wherever the loop ends, the list of the source has elements. The first is the head of the
destination or an element that the destination had before. -/
theorem Straying.exists_ring {it : Node} {t : UserScheduler}
    (h : Straying src dst us x xs it t) (hit : it = x) :
    t.links.Coherent ∧ ∃ z zs, z ∈ .fiberWaitList dst :: us ∧
      (∀ y ∈ z :: zs, y ∈ .fiberWaitList dst :: (us ++ x :: xs)) ∧
      t.links.Ring (.fiberWaitList src) (z :: zs) := by
  cases h with
  | atSource hc hsource htarget =>
      have hx : t.links.next x ≠ x := htarget.next_ne_of_mem (by simp)
      exact (hx (hit ▸ Links.ring_nil.mp hsource)).elim
  | atTarget hc htarget => exact (htarget.head_notMem (by simp [hit])).elim
  | again hc htarget => exact ⟨hc, _, _, by simp, fun _ hy => hy, htarget.rotate⟩
  | @back _ u vs hc hsource hdst hmem =>
      refine ⟨hc, u, vs ++ x :: xs, by simp [hmem u (by simp)], ?_, hsource⟩
      intro y hy
      apply List.mem_cons_of_mem
      rcases List.mem_append.mp (show y ∈ u :: vs ++ x :: xs from hy) with hy | hy
      · exact List.mem_append_left _ (hmem y hy)
      · exact List.mem_append_right us hy

/-- After the move of a list with elements, the list of the source has elements again. -/
theorem transferWaitList_source {s s' : UserScheduler} {fuel : ℕ} (hne : src ≠ dst)
    (hc : s.links.Coherent) (hsource : s.links.Ring (.fiberWaitList src) (x :: xs))
    (htarget : s.links.Ring (.fiberWaitList dst) us) (hdst : .fiberWaitList dst ∉ x :: xs)
    (h : s.transferWaitList fuel src dst = .ok s') :
    s'.links.Coherent ∧ ∃ z zs, z ∈ .fiberWaitList dst :: us ∧
      (∀ y ∈ z :: zs, y ∈ .fiberWaitList dst :: (us ++ x :: xs)) ∧
      s'.links.Ring (.fiberWaitList src) (z :: zs) := by
  have hall : Node.fiberWaitList dst ∉ us ++ x :: xs := by
    rw [List.mem_append]
    exact not_or.mpr ⟨htarget.head_notMem, hdst⟩
  have hmoving : Moving s src dst (us ++ x :: xs) (x :: xs) s :=
    ⟨rfl, hc, hsource, us, rfl, htarget⟩
  have hmore : s.transferWaitList (fuel + xs.length + 1) src dst = .ok s' := by
    rw [Nat.add_assoc]
    exact rangeLoop_fuel _ h
  have hloop : s.transferWaitList (fuel + xs.length + 1) src dst = _ :=
    rangeFor_unlinking (Moving s src dst (us ++ x :: xs)) (fun _ _ hm => hm.coherent)
      (fun _ _ hm => hm.source) (fun _ _ _ _ hm hs => hm.transferStep hne hall hs) hmoving
  obtain ⟨t, ht, hmoved⟩ := visit_transferStep
    (rangeLoop UserScheduler.links (transferStep dst) x fuel (.fiberWaitList src))
    hne hall hmoving
  obtain ⟨moved, hmovedAll, hring⟩ := hmoved.target
  rw [List.append_nil] at hmovedAll
  subst moved
  rw [hloop, ht] at hmore
  refine rangeLoop_invariant (P := Straying src dst us x xs) (fun t ht => ht.exists_ring rfl) ?_ ?_
    (.atSource hmoved.coherent hmoved.source hring) hmore
  · exact fun it t t' ht hit hstep => ht.next hne hit hstep
  · intro it t t' _ _ hstep
    cases hstep

/-- The nodes that a `wait_list` can get in a move. -/
theorem mem_waitNodes (us ws : List FiberId) {y : Node} (h : y ∈ Node.fiberWaitList dst ::
    (us.map Node.waitListNode ++ ws.map Node.waitListNode)) :
    (∃ g, y = .fiberWaitList g) ∨ ∃ g, y = .waitListNode g := by
  simp only [List.mem_cons, List.mem_append, List.mem_map] at h
  grind

theorem promoteWaiter_of_empty {s : UserScheduler} {f : FiberId} {fuel : ℕ}
    (h : s.links.next (.fiberWaitList f) = .fiberWaitList f) : s.promoteWaiter fuel f = .ok s := by
  rw [promoteWaiter, if_pos (Links.isEmpty_iff.mpr h)]

end DDFramework.UserScheduler
