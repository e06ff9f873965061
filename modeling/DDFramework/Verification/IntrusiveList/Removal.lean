import DDFramework.Verification.IntrusiveList.RangeFor

/-! # Loops that remove some of the elements they visit

`end()` stores the first element. A loop that removes the first element has nothing left to
stop at, and goes on with the list head as if it were an element. -/

namespace DDFramework

variable {α : Type*} [DecidableEq α]

/-- The memory of a loop and the nodes its body has been given. -/
structure RemovalState (α : Type*) where
  links : Links α
  visited : List α

/-- The body unlinks the node it is given when its position is in the set, and appends it to
another list if there is one. -/
def removalBody (positions : ℕ → Bool) (target : ℕ → Option α) (x : α) (s : RemovalState α) :
    Except Fault (LoopExit (RemovalState α)) :=
  let position := s.visited.length
  let links :=
    if positions position then
      match target position with
      | none => s.links.unlink x
      | some list => (s.links.unlink x).pushBack list x
    else s.links
  .ok (.next ⟨links, s.visited ++ [x]⟩)

/-- The elements at the other positions, the first of them at position `k`. -/
def keptFrom (positions : ℕ → Bool) : ℕ → List α → List α
  | _, [] => []
  | k, x :: xs => if positions k then keptFrom positions (k + 1) xs
    else x :: keptFrom positions (k + 1) xs

/-- The loop returns, has visited the elements in order and nothing else, and leaves the
elements at the other positions. -/
def RemovesSafely (L : Links α) (list : α) (es : List α) (positions : ℕ → Bool)
    (target : ℕ → Option α) : Prop :=
  ∃ fuel s, rangeFor RemovalState.links list (removalBody positions target) fuel ⟨L, []⟩ = .ok s ∧
    s.visited = es ∧ s.links.Ring list (keptFrom positions 0 es)

variable {L : Links α} {list x : α} {es xs ks : List α} {positions : ℕ → Bool}
  {target : ℕ → Option α} {s : RemovalState α}

omit [DecidableEq α] in
theorem keptFrom_subset (k : ℕ) (xs : List α) : keptFrom positions k xs ⊆ xs := by
  induction xs generalizing k with
  | nil => exact List.Subset.refl []
  | cons x xs ih =>
      rw [keptFrom]
      split
      · exact List.subset_cons_of_subset x (ih (k + 1))
      · exact List.cons_subset_cons x (ih (k + 1))

/-- Before the element at the head of `xs` is visited, the list holds the elements that were
kept and `xs`. -/
structure Removing (list : α) (es : List α) (positions : ℕ → Bool) (xs : List α)
    (s : RemovalState α) : Prop where
  coherent : s.links.Coherent
  visited : s.visited ++ xs = es
  ring : ∃ ks, s.links.Ring list (ks ++ xs) ∧
    ks ++ keptFrom positions s.visited.length xs = keptFrom positions 0 es

theorem Removing.next (h : Removing list es positions (x :: xs) s)
    (htarget : ∀ k other, target k = some other → other ∉ list :: es) :
    ∃ s', removalBody positions target x s = .ok (.next s') ∧
      Removing list es positions xs s' := by
  obtain ⟨ks, hring, hkept⟩ := h.ring
  rw [keptFrom] at hkept
  refine ⟨_, rfl, ?_⟩
  have hvisited : (s.visited ++ [x]) ++ xs = es := by simpa using h.visited
  by_cases hremove : positions s.visited.length
  · rw [if_pos hremove] at hkept
    have hunlinked := hring.unlink_middle h.coherent
    have hx : x ∉ list :: (ks ++ xs) := by
      have hnodup := hring.nodup
      rw [← List.cons_append, List.nodup_middle] at hnodup
      simpa using (List.nodup_cons.mp hnodup).1
    simp only [hremove, if_true]
    cases hother : target s.visited.length with
    | none =>
        exact ⟨h.coherent.unlink x, hvisited, ks, hunlinked, by simpa using hkept⟩
    | some other =>
        have hks : ∀ y ∈ ks, y ∈ es := fun y hy =>
          keptFrom_subset 0 es (hkept ▸ List.mem_append_left _ hy)
        have hne : other ∉ list :: (ks ++ xs) := by
          intro hm
          refine htarget _ other hother ?_
          simp only [List.mem_cons, List.mem_append] at hm ⊢
          rcases hm with rfl | hm | hm
          · exact .inl rfl
          · exact .inr (hks other hm)
          · exact .inr (h.visited ▸ by simp [hm])
        refine ⟨(h.coherent.unlink x).pushBack other x, hvisited, ks, ?_, by simpa using hkept⟩
        exact hunlinked.pushBack_of_notMem (h.coherent.unlink x) hne hx
  · rw [if_neg hremove] at hkept
    simp only [hremove]
    exact ⟨h.coherent, hvisited, ks ++ [x], by simpa using hring, by simpa using hkept⟩

/-- The loop visits all the elements and then compares the node after the list head with the
first element. -/
theorem rangeFor_removalBody (positions : ℕ → Bool) (hc : L.Coherent) (hr : L.Ring list (x :: xs))
    (htarget : ∀ k other, target k = some other → other ∉ list :: x :: xs) :
    ∃ t : RemovalState α, t.links.Coherent ∧ t.visited = x :: xs ∧
      t.links.Ring list (keptFrom positions 0 (x :: xs)) ∧
      ∀ fuel, rangeFor RemovalState.links list (removalBody positions target)
          (fuel + xs.length + 1) ⟨L, []⟩ =
        rangeLoop RemovalState.links (removalBody positions target) x fuel
          (t.links.next list) t := by
  have hstart : Removing list (x :: xs) positions (x :: xs) ⟨L, []⟩ :=
    ⟨hc, rfl, [], hr, rfl⟩
  have hnext : ∀ y ys s, Removing list (x :: xs) positions (y :: ys) s →
      ∃ s', removalBody positions target y s = .ok (.next s') ∧
        Removing list (x :: xs) positions ys s' := fun y ys s h => h.next htarget
  have hkeep : ∀ y ys s s', Removing list (x :: xs) positions (y :: ys) s →
      removalBody positions target y s = .ok (.next s') →
      Removing list (x :: xs) positions ys s' := by
    intro y ys s s' h hbody
    obtain ⟨t, ht, hinv⟩ := hnext y ys s h
    rw [ht] at hbody
    cases hbody
    exact hinv
  obtain ⟨t, ht, hvisit⟩ := visit_reaches (Removing list (x :: xs) positions) hnext hstart
  obtain ⟨ks, hring, hkept⟩ := ht.ring
  have hvisited : t.visited = x :: xs := by simpa using ht.visited
  have hks : ks = keptFrom positions 0 (x :: xs) := by simpa [keptFrom] using hkept
  refine ⟨t, ht.coherent, hvisited, by simpa [hks] using hring, fun fuel => ?_⟩
  rw [rangeFor_elements (Removing list (x :: xs) positions)
    (fun y _ s h => h.coherent.prev_next y) (fun _ s h => h.ring.imp fun _ hr => hr.1) hkeep hr
    hstart]
  exact hvisit _

theorem removesSafely_nil (hr : L.Ring list []) : RemovesSafely L list [] positions target :=
  ⟨1, ⟨L, []⟩, rangeFor_nil (Links.ring_nil.mp hr), rfl, hr⟩

theorem removesSafely_of_kept (hc : L.Coherent) (hr : L.Ring list (x :: xs))
    (htarget : ∀ k other, target k = some other → other ∉ list :: x :: xs)
    (hfirst : positions 0 = false) : RemovesSafely L list (x :: xs) positions target := by
  obtain ⟨t, _, hvisited, hring, hloop⟩ := rangeFor_removalBody positions hc hr htarget
  refine ⟨1 + xs.length + 1, t, ?_, hvisited, hring⟩
  have hhead : t.links.next list = x := by
    rw [keptFrom, hfirst] at hring
    exact hring.next_head
  rw [hloop, hhead, rangeLoop_done]

/-- Without its first element the loop visits the list head after the last element. -/
theorem not_removesSafely_of_removed (hc : L.Coherent) (hr : L.Ring list (x :: xs))
    (htarget : ∀ k other, target k = some other → other ∉ list :: x :: xs)
    (hfirst : positions 0 = true) : ¬ RemovesSafely L list (x :: xs) positions target := by
  rintro ⟨fuel, s, hrun, hs, -⟩
  obtain ⟨t, hct, hvisited, hring, hloop⟩ :=
    rangeFor_removalBody positions hc hr htarget
  have hne : t.links.next list ≠ x := by
    intro he
    have hn := hr.nodup
    simp only [List.nodup_cons, List.mem_cons, not_or] at hn
    rw [keptFrom, hfirst, if_pos rfl] at hring
    have hmem := hring.path.next_mem list (by simp)
    rw [he, List.mem_append, List.mem_singleton] at hmem
    rcases hmem with hmem | rfl
    · exact hn.2.1 (keptFrom_subset 1 xs hmem)
    · exact hn.1.1 rfl
  have hmore : rangeFor RemovalState.links list (removalBody positions target)
      (fuel + xs.length + 1) ⟨L, []⟩ = .ok s := rangeLoop_fuel (xs.length + 1) hrun
  rw [hloop] at hmore
  -- the next body runs on the list head, so more nodes are visited than there are elements
  have hlong : (x :: xs).length < s.visited.length := by
    cases fuel with
    | zero => cases hmore
    | succ fuel =>
        rw [rangeLoop_next hne rfl] at hmore
        refine rangeLoop_preserves (P := fun t => (x :: xs).length < t.visited.length) ?_ ?_ hmore
        · rintro y u u' hu (hbody | hbody)
          · cases hbody
            exact hu.trans_le (by simp)
          · cases hbody
        · simp [hvisited]
  rw [hs] at hlong
  exact Nat.lt_irrefl _ hlong

/-- Iterating while removing is safe exactly when the first element stays. -/
theorem removesSafely_iff (hc : L.Coherent) (hr : L.Ring list es)
    (htarget : ∀ k other, target k = some other → other ∉ list :: es) :
    RemovesSafely L list es positions target ↔ es = [] ∨ positions 0 = false := by
  cases es with
  | nil => exact iff_of_true (removesSafely_nil hr) (.inl rfl)
  | cons x xs =>
      cases hfirst : positions 0 with
      | false => exact iff_of_true (removesSafely_of_kept hc hr htarget hfirst) (.inr rfl)
      | true => simpa using not_removesSafely_of_removed hc hr htarget hfirst

/-- A list with the head 0 and the elements 1, 2 and 3. -/
def threeElements : Links ℕ :=
  (((Links.detached ℕ).pushBack 0 1).pushBack 0 2).pushBack 0 3

theorem threeElements_coherent : threeElements.Coherent :=
  ((Links.detached_coherent.pushBack 0 1).pushBack 0 2).pushBack 0 3

theorem threeElements_ring : threeElements.Ring 0 [1, 2, 3] :=
  ⟨⟨rfl, rfl, rfl, rfl⟩, by decide⟩

theorem removesSafely_threeElements :
    RemovesSafely threeElements 0 [1, 2, 3] (· == 1) (fun _ => some 9) :=
  (removesSafely_iff threeElements_coherent threeElements_ring
    (fun _ _ h => by cases h; decide)).mpr (.inr rfl)

/-- Removing the first of three elements. -/
theorem not_removesSafely_threeElements :
    ¬ RemovesSafely threeElements 0 [1, 2, 3] (· == 0) (fun _ => none) :=
  not_removesSafely_of_removed threeElements_coherent threeElements_ring (fun _ _ h => nomatch h)
    rfl

end DDFramework
