import Mathlib.Data.List.Basic

/-! # Singly linked chains

The value `name x` refers to the cell `x`, and `link x` is the value stored in it. -/

namespace DDFramework

variable {α β : Type*}

/-- Following the stored values from `v` visits the cells `xs` and ends with `stop`. -/
def Chain (name link : α → β) (stop : β) : β → List α → Prop
  | v, [] => v = stop
  | v, x :: xs => v = name x ∧ Chain name link stop (link x) xs

@[simp] theorem chain_nil {name link : α → β} {stop v : β} :
    Chain name link stop v [] ↔ v = stop := Iff.rfl

@[simp] theorem chain_cons {name link : α → β} {stop v : β} {x : α} {xs : List α} :
    Chain name link stop v (x :: xs) ↔ v = name x ∧ Chain name link stop (link x) xs := Iff.rfl

/-- Only the links of the visited cells matter. -/
theorem Chain.congr {name link link' : α → β} {stop v : β} {xs : List α}
    (h : Chain name link stop v xs) (he : ∀ x ∈ xs, link' x = link x) :
    Chain name link' stop v xs := by
  induction xs generalizing v with
  | nil => exact h
  | cons x xs ih =>
      refine ⟨h.1, ?_⟩
      rw [he x (by simp)]
      exact ih h.2 (fun y hy => he y (by simp [hy]))

/-- A chain is determined by its first value. -/
theorem Chain.unique {name link : α → β} {stop v : β} (hname : Function.Injective name)
    (hstop : ∀ x, name x ≠ stop) {xs ys : List α} (hx : Chain name link stop v xs)
    (hy : Chain name link stop v ys) : xs = ys := by
  induction xs generalizing v ys with
  | nil =>
      cases ys with
      | nil => rfl
      | cons y ys => exact (hstop y (hy.1.symm.trans hx)).elim
  | cons x xs ih =>
      cases ys with
      | nil => exact (hstop x (hx.1.symm.trans hy)).elim
      | cons y ys =>
          obtain rfl : x = y := hname (hx.1.symm.trans hy.1)
          rw [ih hx.2 hy.2]

end DDFramework
