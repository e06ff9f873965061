import Mathlib.Data.List.Pairwise
import Mathlib.Data.Set.Lattice
import Mathlib.Order.CompletePartialOrder

/-! # Trees with lists of children

Levels, preorder, and descents: going from a node to the first child that satisfies a predicate
until no child does. -/

namespace DDFramework

inductive RoseTree (α : Type*) where
  | node (value : α) (children : List (RoseTree α))

namespace RoseTree

variable {α β : Type*}

def value : RoseTree α → α
  | node a _ => a

def children : RoseTree α → List (RoseTree α)
  | node _ ts => ts

@[simp] theorem value_node (a : α) (ts : List (RoseTree α)) : (node a ts).value = a := rfl

@[simp] theorem children_node (a : α) (ts : List (RoseTree α)) : (node a ts).children = ts := rfl

/-- What holds of a node whenever it holds of its children holds of all trees. -/
@[elab_as_elim, induction_eliminator]
theorem induction {P : RoseTree α → Prop}
    (node : ∀ (a : α) (ts : List (RoseTree α)), (∀ t ∈ ts, P t) → P (.node a ts)) : ∀ t, P t
  | .node a ts => node a ts fun t _ => induction node t

/-- The number of levels. -/
def depth : RoseTree α → ℕ
  | node _ ts => depths ts + 1
where
  depths : List (RoseTree α) → ℕ
    | [] => 0
    | t :: ts => max t.depth (depths ts)

theorem depth_pos (t : RoseTree α) : 0 < t.depth := by
  cases t
  exact Nat.succ_pos _

theorem depth_le_depths {t : RoseTree α} {ts : List (RoseTree α)} (h : t ∈ ts) :
    t.depth ≤ depth.depths ts := by
  induction ts with
  | nil => cases h
  | cons u us ih =>
      rcases List.mem_cons.mp h with rfl | h
      · exact Nat.le_max_left _ _
      · exact (ih h).trans (Nat.le_max_right _ _)

theorem depth_lt_of_mem {a : α} {t : RoseTree α} {ts : List (RoseTree α)} (h : t ∈ ts) :
    t.depth < (node a ts).depth :=
  Nat.lt_succ_of_le (depth_le_depths h)

/-! ### Preorder -/

/-- A node before its subtrees, these in list order. -/
def preorder : RoseTree α → List α
  | node a ts => a :: preorders ts
where
  preorders : List (RoseTree α) → List α
    | [] => []
    | t :: ts => t.preorder ++ preorders ts

/-- The nodes below the root, in preorder. -/
def descendants (t : RoseTree α) : List α := preorder.preorders t.children

theorem preorder_eq (t : RoseTree α) : t.preorder = t.value :: t.descendants := by
  cases t
  rfl

theorem descendants_node (a : α) (ts : List (RoseTree α)) :
    (node a ts).descendants = preorder.preorders ts := rfl

/-! ### Levels -/

/-- The tree `d` stands `k` levels below the root of a tree. -/
inductive AtLevel : ℕ → RoseTree α → RoseTree α → Prop
  | root (t : RoseTree α) : AtLevel 0 t t
  | child {k : ℕ} {t c d : RoseTree α} (mem : c ∈ t.children) (below : AtLevel k c d) :
      AtLevel (k + 1) t d

/-- Sets of a node's children are apart and inside the set of the node. -/
def Nested (r : α → Set β) (t : RoseTree α) : Prop :=
  ∀ k d, AtLevel k t d → (∀ c ∈ d.children, r c.value ⊆ r d.value) ∧
    d.children.Pairwise fun c c' => Disjoint (r c.value) (r c'.value)

theorem Nested.of_mem {r : α → Set β} {t c : RoseTree α} (h : t.Nested r) (hc : c ∈ t.children) :
    c.Nested r :=
  fun k d hd => h (k + 1) d (.child hc hd)

/-- A subtree's set is inside the set of the root. -/
theorem Nested.subset {r : α → Set β} {t d : RoseTree α} {k : ℕ} (h : t.Nested r)
    (hd : AtLevel k t d) : r d.value ⊆ r t.value := by
  induction hd with
  | root t => exact Set.Subset.rfl
  | @child k t c d hc _ ih =>
      exact (ih (h.of_mem hc)).trans ((h 0 t (.root t)).1 c hc)

/-! ### Descents -/

/-- From `t`, `k` steps to the first child that satisfies `p` lead to `u`, and then no child
does. -/
inductive Descent (p : α → Bool) : ℕ → RoseTree α → RoseTree α → Prop
  | stay {t : RoseTree α} (none : ∀ c ∈ t.children, ¬ p c.value = true) : Descent p 0 t t
  | step {k : ℕ} {t c u : RoseTree α} (first : t.children.find? (fun c => p c.value) = some c)
      (descent : Descent p k c u) : Descent p (k + 1) t u

theorem exists_descent (p : α → Bool) (t : RoseTree α) : ∃ k u, Descent p k t u := by
  induction t with
  | node a ts ih =>
      cases hfind : ts.find? fun c => p c.value with
      | none =>
          refine ⟨0, node a ts, .stay ?_⟩
          simpa using List.find?_eq_none.mp hfind
      | some c =>
          obtain ⟨k, u, hu⟩ := ih c (List.mem_of_find?_eq_some hfind)
          exact ⟨k + 1, u, .step hfind hu⟩

namespace Descent

variable {p : α → Bool} {k : ℕ} {t u : RoseTree α}

theorem atLevel (h : Descent p k t u) : AtLevel k t u := by
  induction h with
  | stay _ => exact .root _
  | step first _ ih => exact .child (List.mem_of_find?_eq_some first) ih

theorem children_not (h : Descent p k t u) : ∀ c ∈ u.children, ¬ p c.value = true := by
  induction h with
  | stay none => exact none
  | step _ _ ih => exact ih

theorem value_of_value (h : Descent p k t u) (ht : p t.value = true) : p u.value = true := by
  induction h with
  | stay _ => exact ht
  | step first _ ih => exact ih (by simpa using List.find?_some first)

/-- In nested sets the descent towards a point ends at the one deepest set around it. -/
theorem deepest {r : α → Set β} {x : β} (hp : ∀ a, p a = true ↔ x ∈ r a) (h : Descent p k t u)
    (hnested : t.Nested r) {j : ℕ} {d : RoseTree α} (hd : AtLevel j t d) (hx : x ∈ r d.value) :
    j ≤ k ∧ (j = k → d = u) := by
  induction h generalizing j with
  | @stay t hnone =>
      cases hd with
      | root => exact ⟨Nat.zero_le _, fun _ => rfl⟩
      | @child j _ c _ hc hbelow =>
          exact absurd ((hp _).mpr ((hnested.of_mem hc).subset hbelow hx)) (hnone c hc)
  | @step k t c u first _ ih =>
      have hc := List.mem_of_find?_eq_some first
      cases hd with
      | root => exact ⟨Nat.zero_le _, fun he => absurd he.symm (Nat.succ_ne_zero k)⟩
      | @child j _ c' _ hc' hbelow =>
          -- the point is in no other child than the first one around it
          have hsame : c' = c := by
            by_contra hne
            have hinside := (hnested.of_mem hc').subset hbelow hx
            have hfirst := (hp _).mp (by simpa using List.find?_some first)
            have : Std.Symm fun e e' : RoseTree α => Disjoint (r e.value) (r e'.value) :=
              ⟨fun _ _ he => he.symm⟩
            have hapart := (hnested 0 t (.root t)).2.forall hc' hc hne
            exact Set.disjoint_left.mp hapart hinside hfirst
          subst hsame
          obtain ⟨hle, heq⟩ := ih (hnested.of_mem hc') hbelow
          exact ⟨Nat.succ_le_succ hle, fun he => heq (Nat.succ.inj he)⟩

end Descent

/-! ### A new last child -/

variable [DecidableEq α]

/-- The nodes with the value `a` get one more child. -/
def push (a : α) (new : RoseTree α) : RoseTree α → RoseTree α
  | node b ts => node b (pushes a new ts ++ if b = a then [new] else [])
where
  pushes (a : α) (new : RoseTree α) : List (RoseTree α) → List (RoseTree α)
    | [] => []
    | t :: ts => push a new t :: pushes a new ts

theorem pushes_eq_map (a : α) (new : RoseTree α) (ts : List (RoseTree α)) :
    push.pushes a new ts = ts.map (push a new) := by
  induction ts with
  | nil => rfl
  | cons t ts ih => rw [push.pushes, ih, List.map_cons]

@[simp] theorem push_value (a : α) (new t : RoseTree α) : (push a new t).value = t.value := by
  cases t
  rfl

theorem push_children (a : α) (new t : RoseTree α) :
    (push a new t).children =
      t.children.map (push a new) ++ if t.value = a then [new] else [] := by
  cases t
  rw [push, pushes_eq_map]
  rfl

/-- A subtree after the push is one from before, pushed, or a part of the new child. -/
theorem atLevel_push {a : α} {new t d : RoseTree α} {k : ℕ} (h : AtLevel k (push a new t) d) :
    (∃ d', AtLevel k t d' ∧ d = push a new d') ∨ ∃ j, AtLevel j new d := by
  induction t generalizing k with
  | node b ts ih =>
      cases h with
      | root => exact Or.inl ⟨node b ts, .root _, rfl⟩
      | @child k _ c _ hc hbelow =>
          rw [push_children, children_node, List.mem_append] at hc
          rcases hc with hc | hc
          · obtain ⟨t, ht, rfl⟩ := List.mem_map.mp hc
            rcases ih t ht hbelow with ⟨d', hd', rfl⟩ | hnew
            · exact Or.inl ⟨d', .child ht hd', rfl⟩
            · exact Or.inr hnew
          · split at hc
            · rw [List.mem_singleton.mp hc] at hbelow
              exact Or.inr ⟨k, hbelow⟩
            · cases hc

end RoseTree

end DDFramework
