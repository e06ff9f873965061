import Mathlib.Data.List.Nodup
import Mathlib.Logic.Function.Basic

/-! # Doubly linked sequences with null ends

A segment is a list of nodes that are linked in both directions, with what its first node has
before it and its last node after it. -/

namespace DDFramework

variable {α : Type*} {next prev next' prev' : α → Option α} {a b : Option α} {xs ys : List α}

/-- The nodes are linked in order, between `a` and `b`. -/
def Segment (next prev : α → Option α) : Option α → List α → Option α → Prop
  | _, [], _ => True
  | a, x :: xs, b => prev x = a ∧ next x = xs.head?.or b ∧ Segment next prev (some x) xs b

@[simp] theorem segment_nil : Segment next prev a [] b := trivial

@[simp] theorem segment_cons {x : α} : Segment next prev a (x :: xs) b ↔
    prev x = a ∧ next x = xs.head?.or b ∧ Segment next prev (some x) xs b := Iff.rfl

theorem getLast?_cons_or {x : α} (xs : List α) (a : Option α) :
    (x :: xs).getLast?.or a = xs.getLast?.or (some x) := by
  cases hxs : xs.getLast? with
  | none => simp [List.getLast?_cons, hxs]
  | some y => simp [List.getLast?_cons, hxs]

theorem segment_append : Segment next prev a (xs ++ ys) b ↔
    Segment next prev a xs (ys.head?.or b) ∧ Segment next prev (xs.getLast?.or a) ys b := by
  induction xs generalizing a with
  | nil => simp
  | cons x xs ih =>
      rw [List.cons_append, segment_cons, segment_cons, ih, getLast?_cons_or, List.head?_append,
        Option.or_assoc]
      tauto

/-- Only the links of the nodes in the segment matter. -/
theorem Segment.congr (h : Segment next prev a xs b)
    (he : ∀ x ∈ xs, next' x = next x ∧ prev' x = prev x) : Segment next' prev' a xs b := by
  induction xs generalizing a with
  | nil => trivial
  | cons x xs ih =>
      obtain ⟨hprev, hnext, hrest⟩ := h
      obtain ⟨hen, hep⟩ := he x (by simp)
      exact ⟨hep.trans hprev, hen.trans hnext,
        ih hrest fun y hy => he y (List.mem_cons_of_mem x hy)⟩

variable [DecidableEq α]

/-- The last node can be linked to another one. -/
theorem Segment.setNext_last {l : α} (h : Segment next prev a xs b) (hl : xs.getLast? = some l)
    (hn : xs.Nodup) (b' : Option α) : Segment (Function.update next l b') prev a xs b' := by
  obtain ⟨ys, rfl⟩ := List.getLast?_eq_some_iff.mp hl
  obtain ⟨hys, hlast⟩ := segment_append.mp h
  refine segment_append.mpr ⟨hys.congr fun y hy => ⟨?_, rfl⟩, hlast.1, ?_, trivial⟩
  · apply Function.update_of_ne
    rintro rfl
    exact List.disjoint_of_nodup_append hn hy (by simp)
  · simp

/-- The first node can be given another predecessor. -/
theorem Segment.setPrev_head {x : α} (h : Segment next prev a (x :: xs) b)
    (hn : (x :: xs).Nodup) (a' : Option α) :
    Segment next (Function.update prev x a') a' (x :: xs) b := by
  refine ⟨by simp, h.2.1, h.2.2.congr fun y hy => ⟨rfl, ?_⟩⟩
  apply Function.update_of_ne
  rintro rfl
  exact (List.nodup_cons.mp hn).1 hy

end DDFramework
