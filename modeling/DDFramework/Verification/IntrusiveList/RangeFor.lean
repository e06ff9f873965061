import DDFramework.Verification.IntrusiveList.Rings

/-! # Range-based loops over rings

A loop that leaves the links alone visits the elements and stops. A loop that
unlinks every element it visits runs past its last element: the node that `end()`
stored is no longer in the ring, so the list head itself is visited next. -/

namespace DDFramework

variable {α σ : Type*} {links : σ → Links α} {body : α → σ → Except Fault (LoopExit σ)}
  {stop : α}

/-- Runs `body` on the elements in order and then `rest`, unless the body breaks. -/
def visit (body : α → σ → Except Fault (LoopExit σ)) :
    List α → (σ → Except Fault σ) → σ → Except Fault σ
  | [], rest, s => rest s
  | x :: xs, rest, s =>
    match body x s with
    | .error fault => .error fault
    | .ok (.stop s) => .ok s
    | .ok (.next s) => visit body xs rest s

theorem visit_nil {rest : σ → Except Fault σ} {s : σ} : visit body [] rest s = rest s := rfl

theorem visit_error {x : α} {xs : List α} {rest : σ → Except Fault σ} {s : σ} {fault : Fault}
    (h : body x s = .error fault) : visit body (x :: xs) rest s = .error fault := by
  simp only [visit, h]

theorem visit_stop {x : α} {xs : List α} {rest : σ → Except Fault σ} {s s' : σ}
    (h : body x s = .ok (.stop s')) : visit body (x :: xs) rest s = .ok s' := by
  simp only [visit, h]

theorem visit_next {x : α} {xs : List α} {rest : σ → Except Fault σ} {s s' : σ}
    (h : body x s = .ok (.next s')) : visit body (x :: xs) rest s = visit body xs rest s' := by
  simp only [visit, h]

/-- A body that never fails and never breaks lets the visit finish. -/
theorem visit_returns (hbody : ∀ x s, ∃ s', body x s = .ok (.next s')) (xs : List α) (s : σ) :
    ∃ s', visit body xs .ok s = .ok s' := by
  induction xs generalizing s with
  | nil => exact ⟨s, rfl⟩
  | cons x xs ih =>
      obtain ⟨t, ht⟩ := hbody x s
      rw [visit_next ht]
      exact ih t

/-- A body that leaves the loop at the first element with a property, with what it computes
there. -/
theorem visit_find? {p : α → Bool} {f : α → Except Fault σ} {xs : List α} {s : σ}
    (hbody : ∀ x, body x s =
      if p x then (do let s' ← f x; .ok (.stop s')) else .ok (.next s)) :
    visit body xs .ok s = match xs.find? p with
      | none => .ok s
      | some x => f x := by
  induction xs with
  | nil => rfl
  | cons x xs ih =>
      by_cases hx : p x = true
      · rw [List.find?_cons_of_pos hx]
        have hstep := hbody x
        rw [if_pos hx] at hstep
        dsimp only
        cases hfound : f x with
        | error fault =>
            rw [hfound] at hstep
            exact visit_error hstep
        | ok s' =>
            rw [hfound] at hstep
            exact visit_stop hstep
      · rw [List.find?_cons_of_neg hx, visit_next (by rw [hbody, if_neg hx])]
        exact ih

theorem visit_preserves {P : σ → Prop}
    (hbody : ∀ x s s', P s → body x s = .ok (.next s') ∨ body x s = .ok (.stop s') → P s')
    {xs : List α} {rest : σ → Except Fault σ} {s s' : σ}
    (hrest : ∀ t, P t → rest t = .ok s' → P s') (hp : P s) (h : visit body xs rest s = .ok s') :
    P s' := by
  induction xs generalizing s with
  | nil => exact hrest s hp h
  | cons x xs ih =>
      cases hx : body x s with
      | error fault =>
          rw [visit_error hx] at h
          cases h
      | ok exit =>
          cases exit with
          | next t =>
              rw [visit_next hx] at h
              exact ih (hbody x s t hp (Or.inl hx)) h
          | stop t =>
              rw [visit_stop hx] at h
              cases h
              exact hbody x s _ hp (Or.inr hx)

/-- What follows the visit only matters where the visit can lead. -/
theorem visit_congr_rest {xs : List α} {rest rest' : σ → Except Fault σ} {s : σ}
    (Inv : List α → σ → Prop)
    (hnext : ∀ x xs s s', Inv (x :: xs) s → body x s = .ok (.next s') → Inv xs s')
    (hinv : Inv xs s) (hrest : ∀ t, Inv [] t → rest t = rest' t) :
    visit body xs rest s = visit body xs rest' s := by
  induction xs generalizing s with
  | nil => exact hrest s hinv
  | cons x xs ih =>
      cases hbody : body x s with
      | error fault => rw [visit_error hbody, visit_error hbody]
      | ok exit =>
          cases exit with
          | stop t => rw [visit_stop hbody, visit_stop hbody]
          | next t =>
              rw [visit_next hbody, visit_next hbody]
              exact ih (hnext x xs s t hinv hbody)

/-- A body that goes on from element to element reaches the end of the visit. -/
theorem visit_reaches (Inv : List α → σ → Prop)
    (hnext : ∀ x xs s, Inv (x :: xs) s → ∃ s', body x s = .ok (.next s') ∧ Inv xs s')
    {xs : List α} {s : σ} (hinv : Inv xs s) :
    ∃ t, Inv [] t ∧ ∀ rest, visit body xs rest s = rest t := by
  induction xs generalizing s with
  | nil => exact ⟨s, hinv, fun _ => rfl⟩
  | cons x xs ih =>
      obtain ⟨s', hbody, hinv'⟩ := hnext x xs s hinv
      obtain ⟨t, ht, hvisit⟩ := ih hinv'
      exact ⟨t, ht, fun rest => (visit_next hbody).trans (hvisit rest)⟩

/-! ### Iterations -/

variable [DecidableEq α]

theorem rangeLoop_done {fuel : ℕ} {s : σ} :
    rangeLoop links body stop (fuel + 1) stop s = .ok s := by
  simp [rangeLoop]

theorem rangeLoop_next {fuel : ℕ} {it : α} {s s' : σ} (hne : it ≠ stop)
    (h : body ((links s).prev it) s = .ok (.next s')) :
    rangeLoop links body stop (fuel + 1) it s =
      rangeLoop links body stop fuel ((links s').next it) s' := by
  simp only [rangeLoop, if_neg hne, h]

theorem rangeLoop_stop {fuel : ℕ} {it : α} {s s' : σ} (hne : it ≠ stop)
    (h : body ((links s).prev it) s = .ok (.stop s')) :
    rangeLoop links body stop (fuel + 1) it s = .ok s' := by
  simp only [rangeLoop, if_neg hne, h]

theorem rangeLoop_error {fuel : ℕ} {it : α} {s : σ} {fault : Fault} (hne : it ≠ stop)
    (h : body ((links s).prev it) s = .error fault) :
    rangeLoop links body stop (fuel + 1) it s = .error fault := by
  simp only [rangeLoop, if_neg hne, h]

/-- The invariant rule. `P` speaks about the stored node and the state before each
comparison, `Q` about the state after the loop. -/
theorem rangeLoop_invariant {P : α → σ → Prop} {Q : σ → Prop} (hdone : ∀ s, P stop s → Q s)
    (hnext : ∀ it s s', P it s → it ≠ stop → body ((links s).prev it) s = .ok (.next s') →
      P ((links s').next it) s')
    (hstop : ∀ it s s', P it s → it ≠ stop → body ((links s).prev it) s = .ok (.stop s') → Q s')
    {fuel : ℕ} {it : α} {s s' : σ} (hp : P it s)
    (h : rangeLoop links body stop fuel it s = .ok s') : Q s' := by
  induction fuel generalizing it s with
  | zero => cases h
  | succ fuel ih =>
      by_cases hit : it = stop
      · subst it
        rw [rangeLoop_done] at h
        cases h
        exact hdone _ hp
      · cases hbody : body ((links s).prev it) s with
        | error fault =>
            rw [rangeLoop_error hit hbody] at h
            cases h
        | ok exit =>
            cases exit with
            | next t =>
                rw [rangeLoop_next hit hbody] at h
                exact ih (hnext it s t hp hit hbody) h
            | stop t =>
                rw [rangeLoop_stop hit hbody] at h
                cases h
                exact hstop it s _ hp hit hbody

/-- More fuel does not change what a loop returns. -/
theorem rangeLoop_fuel {fuel : ℕ} (k : ℕ) {it : α} {s s' : σ}
    (h : rangeLoop links body stop fuel it s = .ok s') :
    rangeLoop links body stop (fuel + k) it s = .ok s' := by
  induction fuel generalizing it s with
  | zero => cases h
  | succ fuel ih =>
      rw [Nat.add_right_comm]
      by_cases hit : it = stop
      · subst it
        rw [rangeLoop_done] at h ⊢
        exact h
      · cases hbody : body ((links s).prev it) s with
        | error fault =>
            rw [rangeLoop_error hit hbody] at h
            cases h
        | ok exit =>
            cases exit with
            | next t =>
                rw [rangeLoop_next hit hbody] at h ⊢
                exact ih h
            | stop t =>
                rw [rangeLoop_stop hit hbody] at h ⊢
                exact h

/-- What every iteration preserves holds after the loop. -/
theorem rangeLoop_preserves {P : σ → Prop}
    (hbody : ∀ x s s', P s → body x s = .ok (.next s') ∨ body x s = .ok (.stop s') → P s')
    {fuel : ℕ} {it : α} {s s' : σ} (hp : P s)
    (h : rangeLoop links body stop fuel it s = .ok s') : P s' := by
  apply rangeLoop_invariant (P := fun _ s => P s) (Q := P) _ _ _ hp h
  · exact fun _ h => h
  · exact fun it s s' hs _ hb => hbody _ s s' hs (Or.inl hb)
  · exact fun it s s' hs _ hb => hbody _ s s' hs (Or.inr hb)

theorem rangeFor_preserves {P : σ → Prop}
    (hbody : ∀ x s s', P s → body x s = .ok (.next s') ∨ body x s = .ok (.stop s') → P s')
    {list : α} {fuel : ℕ} {s s' : σ} (hp : P s)
    (h : rangeFor links list body fuel s = .ok s') : P s' :=
  rangeLoop_preserves hbody hp h

/-- A loop over an empty list does nothing. -/
theorem rangeFor_nil {list : α} {fuel : ℕ} {s : σ} (h : (links s).next list = list) :
    rangeFor links list body (fuel + 1) s = .ok s := by
  rw [rangeFor, h, h, rangeLoop_done]

/-! ### Loops over the elements of a ring -/

/-- The loop visits the elements that are still ahead and then goes on after the list head.
`Inv xs s` says that the ring of `list` ends with `xs`; the body may do anything to the
elements before. -/
theorem rangeLoop_elements {list : α} (Inv : List α → σ → Prop)
    (hprev : ∀ x xs s, Inv (x :: xs) s → (links s).prev ((links s).next x) = x)
    (hring : ∀ xs s, Inv xs s → ∃ ks, (links s).Ring list (ks ++ xs))
    (hnext : ∀ x xs s s', Inv (x :: xs) s → body x s = .ok (.next s') → Inv xs s')
    {x : α} {xs : List α} {fuel : ℕ} {s : σ} (hinv : Inv (x :: xs) s)
    (hstop : stop ∉ list :: xs) :
    rangeLoop links body stop (fuel + xs.length + 1) ((links s).next x) s =
      visit body (x :: xs) (fun t => rangeLoop links body stop fuel ((links t).next list) t) s := by
  induction xs generalizing x s with
  | nil =>
      obtain ⟨ks, hr⟩ := hring _ s hinv
      have hx : (links s).next x = list := (Links.path_append.mp hr.path).2
      have hback : (links s).prev list = x := hx ▸ hprev _ _ s hinv
      have hne : list ≠ stop := fun he => hstop (by simp [he])
      rw [hx]
      cases hbody : body x s with
      | error fault => rw [visit_error hbody, rangeLoop_error hne (by rw [hback, hbody])]
      | ok exit =>
          cases exit with
          | stop t => rw [visit_stop hbody, rangeLoop_stop hne (by rw [hback, hbody])]
          | next t =>
              rw [visit_next hbody, rangeLoop_next hne (by rw [hback, hbody]), visit_nil]
              simp
  | cons y ys ih =>
      obtain ⟨ks, hr⟩ := hring _ s hinv
      have hy : (links s).next x = y := (Links.path_append.mp hr.path).2.1
      have hback : (links s).prev y = x := hy ▸ hprev _ _ s hinv
      have hne : y ≠ stop := fun he => hstop (by simp [he])
      rw [hy]
      cases hbody : body x s with
      | error fault => rw [visit_error hbody, rangeLoop_error hne (by rw [hback, hbody])]
      | ok exit =>
          cases exit with
          | stop t => rw [visit_stop hbody, rangeLoop_stop hne (by rw [hback, hbody])]
          | next t =>
              rw [visit_next hbody, rangeLoop_next hne (by rw [hback, hbody])]
              apply ih (hnext x _ s t hinv hbody)
              exact fun hm => hstop (by simp at hm ⊢; tauto)

/-- The node that `end()` stores is the first element. -/
theorem rangeFor_elements {list : α} (Inv : List α → σ → Prop)
    (hprev : ∀ x xs s, Inv (x :: xs) s → (links s).prev ((links s).next x) = x)
    (hring : ∀ xs s, Inv xs s → ∃ ks, (links s).Ring list (ks ++ xs))
    (hnext : ∀ x xs s s', Inv (x :: xs) s → body x s = .ok (.next s') → Inv xs s')
    {x : α} {xs : List α} {fuel : ℕ} {s : σ} (hr : (links s).Ring list (x :: xs))
    (hinv : Inv (x :: xs) s) :
    rangeFor links list body (fuel + xs.length + 1) s =
      visit body (x :: xs) (fun t => rangeLoop links body x fuel ((links t).next list) t) s := by
  rw [rangeFor, hr.next_head]
  apply rangeLoop_elements Inv hprev hring hnext hinv
  have hn := hr.nodup
  simp only [List.nodup_cons, List.mem_cons, not_or] at hn ⊢
  exact ⟨Ne.symm hn.1.1, hn.2.1⟩

/-- A loop whose body keeps the ring of its list visits each element once, in order. -/
theorem rangeFor_keeping (Inv : σ → Prop) {list : α} {xs : List α} {fuel : ℕ} {s : σ}
    (hprev : ∀ s, Inv s → ∀ x ∈ xs, (links s).prev ((links s).next x) = x)
    (hring : ∀ s, Inv s → (links s).Ring list xs) (hfuel : xs.length < fuel)
    (hkeep : ∀ x ∈ xs, ∀ s s', Inv s → body x s = .ok (.next s') → Inv s')
    (hinv : Inv s) : rangeFor links list body fuel s = visit body xs .ok s := by
  cases xs with
  | nil =>
      obtain ⟨fuel, rfl⟩ := Nat.exists_eq_add_one_of_ne_zero (Nat.ne_of_gt hfuel)
      exact rangeFor_nil (Links.ring_nil.mp (hring s hinv))
  | cons x xs =>
      obtain ⟨k, rfl⟩ := Nat.exists_eq_add_of_lt hfuel
      let Ahead (ys : List α) (s : σ) : Prop := Inv s ∧ ys <:+ x :: xs
      have hnext : ∀ y ys s s', Ahead (y :: ys) s → body y s = .ok (.next s') → Ahead ys s' := by
        intro y ys s s' ⟨hs, hsuffix⟩ hbody
        exact ⟨hkeep y (hsuffix.subset (by simp)) s s' hs hbody,
          (List.suffix_cons y ys).trans hsuffix⟩
      rw [show (x :: xs).length + k + 1 = (k + 1) + xs.length + 1 by simp; omega,
        rangeFor_elements Ahead _ _ hnext (hring s hinv) ⟨hinv, List.suffix_refl _⟩]
      · refine visit_congr_rest Ahead hnext ⟨hinv, List.suffix_refl _⟩ (fun t ht => ?_)
        rw [(hring t ht.1).next_head, rangeLoop_done]
      · exact fun y ys s h => hprev s h.1 y (h.2.subset (by simp))
      · rintro ys s ⟨hs, ks, hks⟩
        exact ⟨ks, hks ▸ hring s hs⟩

/-- A loop whose body keeps the links visits each element once, in order. -/
theorem rangeFor_eq_visit (Inv : σ → Prop) {list : α} {xs : List α} {fuel : ℕ} {s : σ}
    (hc : (links s).Coherent) (hr : (links s).Ring list xs) (hfuel : xs.length < fuel)
    (hkeep : ∀ x ∈ xs, ∀ s s', Inv s → body x s = .ok (.next s') → links s' = links s ∧ Inv s')
    (hinv : Inv s) : rangeFor links list body fuel s = visit body xs .ok s := by
  refine rangeFor_keeping (fun t => links t = links s ∧ Inv t) ?_ ?_ hfuel ?_ ⟨rfl, hinv⟩
  · exact fun t ht x _ => ht.1 ▸ hc.prev_next x
  · exact fun t ht => ht.1 ▸ hr
  · intro x hx t t' ht hbody
    obtain ⟨hlinks, ht'⟩ := hkeep x hx t t' ht.2 hbody
    exact ⟨hlinks.trans ht.1, ht'⟩

/-- Once all the elements are unlinked, the loop goes on with the list head. `Inv xs s` says
that `xs` is what is left in the ring of `list`. -/
theorem rangeFor_unlinking {list : α} (Inv : List α → σ → Prop)
    (hcoherent : ∀ xs s, Inv xs s → (links s).Coherent)
    (hring : ∀ xs s, Inv xs s → (links s).Ring list xs)
    (hnext : ∀ x xs s s', Inv (x :: xs) s → body x s = .ok (.next s') → Inv xs s')
    {x : α} {xs : List α} {fuel : ℕ} {s : σ} (hinv : Inv (x :: xs) s) :
    rangeFor links list body (fuel + xs.length + 1) s =
      visit body (x :: xs) (rangeLoop links body x fuel list) s := by
  rw [rangeFor_elements Inv (fun y _ t ht => (hcoherent _ t ht).prev_next y)
    (fun ys t ht => ⟨[], hring ys t ht⟩) hnext (hring _ s hinv) hinv]
  refine visit_congr_rest Inv hnext hinv (fun t ht => ?_)
  rw [Links.ring_nil.mp (hring [] t ht)]

end DDFramework
