import Mathlib.Data.List.Basic

/-! # Queues that keep the order of their elements

An implementation with the sequence it stands for. A send or a receive that cannot be made
yet returns nothing. -/

namespace DDFramework

structure FifoQueue (Q α : Type*) where
  empty : Q
  send : Q → α → Option Q
  receive : Q → Option (α × Q)
  /-- The elements from the oldest one on. -/
  contents : Q → List α
  contents_empty : contents empty = []
  contents_send : ∀ {q q' a}, send q a = some q' → contents q' = contents q ++ [a]
  receive_eq_none : ∀ {q}, receive q = none ↔ contents q = []
  contents_receive : ∀ {q a q'}, receive q = some (a, q') → contents q = a :: contents q'

namespace FifoQueue

variable {Q α : Type*} (fifo : FifoQueue Q α)

/-- A queue with elements hands out the oldest one. -/
theorem exists_receive {q : Q} {a : α} {as : List α} (h : fifo.contents q = a :: as) :
    ∃ q', fifo.receive q = some (a, q') ∧ fifo.contents q' = as := by
  cases hreceive : fifo.receive q with
  | none =>
      rw [fifo.receive_eq_none.mp hreceive] at h
      cases h
  | some pair =>
      obtain ⟨b, q'⟩ := pair
      have hcontents := fifo.contents_receive hreceive
      rw [h] at hcontents
      obtain ⟨rfl, hrest⟩ := List.cons.inj hcontents
      exact ⟨q', rfl, hrest.symm⟩

theorem receive_of_empty {q : Q} (h : fifo.contents q = []) : fifo.receive q = none :=
  fifo.receive_eq_none.mpr h

end FifoQueue

end DDFramework
