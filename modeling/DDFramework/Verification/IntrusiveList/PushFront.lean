import DDFramework.Verification.IntrusiveList.Sequences

/-! # `PushFront` on sequences

`LinkPrev` on the head of a list links the node at the last element, so the node comes to lie
before that element and not before the first one. -/

namespace DDFramework

/-- `PushFront` is `PushBack` at the last element, or at the head of an empty list. -/
theorem Links.pushFront_eq_pushBack {α : Type*} [DecidableEq α] {L : Links α} (hc : L.Coherent)
    {list node : α} (hne : list ≠ node) :
    L.pushFront list node = L.pushBack (L.prev list) node := by
  have hnext : L.next (L.prev list) = list := hc.next_prev list
  have hlink : L.linkPrev (L.next (L.prev list)) node = L.linkNext (L.prev list) node :=
    linkPrev_eq_linkNext (by rw [hnext]) (by rwa [hnext])
  rwa [hnext] at hlink

namespace IntrusiveList

variable {H N : Type*} [DecidableEq H] [DecidableEq N] {L : Links (H ⊕ N)} {S : H → List N}
  {l : H} {x e : N} {xs : List N}

namespace Represents

theorem pushFront_of_nil (h : Represents L S) (hx : ∀ l, x ∉ S l) (hS : S l = []) :
    Represents (L.pushFront (.inl l) (.inr x)) (Function.update S l [x]) := by
  have hring := h.ring l
  rw [hS, List.map_nil, Links.ring_nil] at hring
  have hlast : L.prev (.inl l) = .inl l := h.coherent.next_eq_iff.mp hring
  rw [Links.pushFront_eq_pushBack h.coherent Sum.inl_ne_inr, hlast]
  have hpush := h.pushBack (l := l) hx
  rwa [hS, List.nil_append] at hpush

/-- The node is linked before the last element. -/
theorem pushFront_of_concat (h : Represents L S) (hx : ∀ l, x ∉ S l) (hS : S l = xs ++ [e]) :
    Represents (L.pushFront (.inl l) (.inr x)) (Function.update S l (xs ++ [x, e])) := by
  have hring := h.ring l
  rw [hS, List.map_append, List.map_singleton] at hring
  have hlast : L.prev (.inl l) = .inr e :=
    h.coherent.next_eq_iff.mp (Links.path_append.mp hring.path).2
  rw [Links.pushFront_eq_pushBack h.coherent Sum.inl_ne_inr, hlast]
  refine h.linkAt hx (by simp [hS]) ?_ fun y => by simp [hS, or_left_comm]
  have hnot : (.inr x : H ⊕ N) ∉ .inr e :: ([] ++ .inl l :: xs.map .inr) := by
    simpa [hS, or_comm] using hx l
  -- The ring of the list, read from its last element on.
  have hpush := hring.rotate.pushBack h.coherent (h.detached x hx) hnot
  have hrotated : (L.pushBack (.inr e) (.inr x)).Ring (.inl l)
      ((xs.map .inr ++ [.inr x]) ++ .inr e :: []) := Links.Ring.rotate hpush
  simpa using hrotated

/-- The node becomes the first one exactly when the list holds at most one element. -/
theorem pushFront_iff (h : Represents L S) (hx : ∀ l, x ∉ S l) :
    Represents (L.pushFront (.inl l) (.inr x)) (Function.update S l (x :: S l)) ↔
      (S l).length ≤ 1 := by
  rcases List.eq_nil_or_concat' (S l) with hS | ⟨xs, e, hS⟩
  · simpa [hS] using h.pushFront_of_nil hx hS
  · have hpush := h.pushFront_of_concat hx hS
    constructor
    · intro hfront
      have hring := (hfront.ring l).unique (hpush.ring l)
      rw [Function.update_self, Function.update_self, hS] at hring
      have heq : x :: (xs ++ [e]) = xs ++ [x, e] := (Sum.inr_injective.list_map) hring
      cases xs with
      | nil => simp [hS]
      | cons y ys =>
          have hxy : x = y := List.head_eq_of_cons_eq heq
          exact absurd (hS ▸ hxy ▸ List.mem_cons_self) (hx l)
    · intro hlength
      have hxs : xs = [] := by
        rw [hS, List.length_append, List.length_singleton] at hlength
        exact List.length_eq_zero_iff.mp (by omega)
      subst hxs
      rwa [hS]

theorem pushFront_iff_empty :
    Represents ((Links.detached (Unit ⊕ ℕ)).pushFront (.inl ()) (.inr 5))
      (Function.update (fun _ => []) () [5]) :=
  (pushFront_iff detached_represents (by simp)).mpr (by simp)

end Represents

/-- A list that holds the nodes 0 and 1. -/
def twoNodes : Links (Unit ⊕ ℕ) :=
  ((Links.detached _).pushBack (.inl ()) (.inr 0)).pushBack (.inl ()) (.inr 1)

theorem twoNodes_represents : Represents twoNodes (fun _ => [0, 1]) := by
  have hfirst := detached_represents (H := Unit) (N := ℕ) |>.pushBack (l := ()) (x := 0) (by simp)
  have hsecond := hfirst.pushBack (l := ()) (x := 1) (by simp)
  simp only [Function.update_eq_const_of_subsingleton, List.nil_append] at hsecond
  exact hsecond

/-- A node that is pushed to the front comes second. -/
theorem pushFront_comes_second :
    Represents twoNodes (fun _ => [0, 1]) ∧ (∀ l : Unit, 2 ∉ (fun _ => [0, 1]) l) ∧
      ¬ Represents (twoNodes.pushFront (.inl ()) (.inr 2))
        (Function.update (fun _ => [0, 1]) () (2 :: [0, 1])) := by
  refine ⟨twoNodes_represents, by simp, fun h => ?_⟩
  have hfirst := (h.ring ()).next_head
  rw [show (twoNodes.pushFront (.inl ()) (.inr 2)).next (.inl ()) = .inr 0 from rfl] at hfirst
  simp at hfirst

end IntrusiveList

end DDFramework
