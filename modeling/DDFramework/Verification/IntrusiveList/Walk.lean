import DDFramework.Verification.IntrusiveList.Rings

/-! # Loops over an explicit iterator

On a ring such a loop passes over the elements in order, and the iterator it ends with
tells whether it broke off at an element or came to `end()`. -/

namespace DDFramework

variable {α σ : Type*} {body : α → σ → LoopExit σ}

/-- Runs `body` on the elements in order, up to the element at which it breaks. -/
def scan (body : α → σ → LoopExit σ) : List α → σ → Option α × σ
  | [], s => (none, s)
  | x :: xs, s =>
    match body x s with
    | .stop s => (some x, s)
    | .next s => scan body xs s

theorem scan_stop {x : α} {xs : List α} {s s' : σ} (h : body x s = .stop s') :
    scan body (x :: xs) s = (some x, s') := by
  simp only [scan, h]

theorem scan_next {x : α} {xs : List α} {s s' : σ} (h : body x s = .next s') :
    scan body (x :: xs) s = scan body xs s' := by
  simp only [scan, h]

theorem Links.iteratorNode_iteratorTo {L : Links α} (hc : L.Coherent) (x : α) :
    L.iteratorNode (L.iteratorTo x) = x :=
  hc.prev_next x

theorem Links.iteratorTo_eq_listEnd_iff {L : Links α} (hc : L.Coherent) {list x : α} :
    L.iteratorTo x = L.listEnd list ↔ x = list :=
  ⟨hc.next_inj, fun he => by rw [he, listEnd]⟩

variable [DecidableEq α]

/-- The loop from the element behind `a`. -/
theorem walk_path {L : Links α} (hc : L.Coherent) {list a : α} {xs : List α}
    (hp : L.Path a xs list) (hl : list ∉ xs) {fuel : ℕ} (hfuel : xs.length < fuel) (s : σ) :
    walk L list body fuel (L.iteratorTo (L.next a)) s =
      .ok (L.iteratorTo ((scan body xs s).1.getD list), (scan body xs s).2) := by
  induction xs generalizing a fuel s with
  | nil =>
      obtain ⟨fuel, rfl⟩ := Nat.exists_eq_add_one_of_ne_zero (Nat.ne_of_gt hfuel)
      have ha : L.next a = list := hp
      rw [ha, walk, if_pos (by rfl)]
      rfl
  | cons x xs ih =>
      have hpos : fuel ≠ 0 := Nat.ne_of_gt (Nat.zero_lt_of_lt hfuel)
      obtain ⟨fuel, rfl⟩ := Nat.exists_eq_add_one_of_ne_zero hpos
      obtain ⟨hx, ht⟩ := hp
      have hne : L.iteratorTo x ≠ L.listEnd list := by
        rw [ne_eq, Links.iteratorTo_eq_listEnd_iff hc]
        rintro rfl
        exact hl (by simp)
      rw [hx, walk, if_neg hne, Links.iteratorNode_iteratorTo hc]
      cases hbody : body x s with
      | stop t => rw [scan_stop hbody, Option.getD_some]
      | next t =>
          rw [scan_next hbody]
          exact ih ht (fun hm => hl (by simp [hm])) (by simpa using hfuel) t

theorem walk_ring {L : Links α} (hc : L.Coherent) {list : α} {xs : List α} (hr : L.Ring list xs)
    {fuel : ℕ} (hfuel : xs.length < fuel) (s : σ) :
    walk L list body fuel (L.listBegin list) s =
      .ok (L.iteratorTo ((scan body xs s).1.getD list), (scan body xs s).2) :=
  walk_path hc hr.path hr.head_notMem hfuel s

end DDFramework
