import DDFramework.Library.Chain
import DDFramework.Library.Machine
import Mathlib.Data.List.Perm.Basic
import Mathlib.Data.List.Dedup
import Mathlib.Logic.Function.Basic

/-! # Stacks of free slots

A pool hands out the slot that was given back last. Its free slots may be kept as a chain
of links that lie in the free slots themselves. -/

namespace DDFramework

variable {α β : Type*}

/-- The free slots, the next one to be handed out first, and the slots in use. -/
structure SlotStack (α : Type*) where
  free : List α
  live : List α

namespace SlotStack

variable {s : SlotStack α} {slots : List α} {x : α}

/-- Every slot is either free or in use. -/
def Partitions (s : SlotStack α) (slots : List α) : Prop := (s.free ++ s.live).Perm slots

def pop (s : SlotStack α) : SlotStack α :=
  match s.free with
  | [] => s
  | x :: free => ⟨free, x :: s.live⟩

theorem Partitions.pop (h : s.Partitions slots) : s.pop.Partitions slots := by
  obtain ⟨free, live⟩ := s
  cases free with
  | nil => exact h
  | cons x free => exact List.perm_middle.trans h

/-! ### What a partition says -/

theorem Partitions.nodup (h : s.Partitions slots) (hslots : slots.Nodup) :
    (s.free ++ s.live).Nodup := h.nodup_iff.mpr hslots

theorem Partitions.live_nodup (h : s.Partitions slots) (hslots : slots.Nodup) : s.live.Nodup :=
  (h.nodup hslots).of_append_right

theorem Partitions.free_nodup (h : s.Partitions slots) (hslots : slots.Nodup) : s.free.Nodup :=
  (h.nodup hslots).of_append_left

/-- The free slots are those that are not in use. -/
theorem Partitions.mem_free_iff (h : s.Partitions slots) (hslots : slots.Nodup) :
    x ∈ s.free ↔ x ∈ slots ∧ x ∉ s.live := by
  have hdisjoint := (List.nodup_append.mp (h.nodup hslots)).2.2
  constructor
  · intro hx
    exact ⟨h.mem_iff.mp (List.mem_append_left _ hx), fun hl => hdisjoint x hx x hl rfl⟩
  · rintro ⟨hx, hl⟩
    exact (List.mem_append.mp (h.mem_iff.mpr hx)).resolve_right hl

/-- The stack is empty exactly when every slot is in use. -/
theorem Partitions.free_eq_nil_iff (h : s.Partitions slots) :
    s.free = [] ↔ s.live.length = slots.length := by
  have hlength := h.length_eq
  rw [List.length_append] at hlength
  rw [← List.length_eq_zero_iff]
  omega

/-! ### Giving a slot back -/

section Push

variable [DecidableEq α]

def push (s : SlotStack α) (x : α) : SlotStack α := ⟨x :: s.free, s.live.erase x⟩

theorem Partitions.push (h : s.Partitions slots) (hx : x ∈ s.live) :
    (s.push x).Partitions slots := by
  have hback : (x :: s.live.erase x).Perm s.live := (List.perm_cons_erase hx).symm
  exact (List.perm_middle.symm.trans (hback.append_left s.free)).trans h

end Push

end SlotStack

/-! ### Stacks as chains of links -/

section Links

variable {name link : α → β} {stop v w : β} {xs : List α} {x : α}

/-- Only the empty chain starts with the value that ends it. -/
theorem Chain.eq_stop_iff (h : Chain name link stop v xs) (hstop : ∀ x ∈ xs, name x ≠ stop) :
    v = stop ↔ xs = [] := by
  cases xs with
  | nil => simpa using h
  | cons x xs =>
      have hne : v ≠ stop := h.1 ▸ hstop x List.mem_cons_self
      simp [hne]

/-- A chain of cells is a chain of their names. -/
theorem Chain.map {memory : β → β} (h : Chain name (fun x => memory (name x)) stop v xs) :
    Chain id memory stop v (xs.map name) := by
  induction xs generalizing v with
  | nil => exact h
  | cons x xs ih => exact ⟨h.1, ih h.2⟩

/-- Cells that are linked in the order of their numbers. The chain ends with what the last
cell holds. -/
theorem chain_range' {name link : ℕ → β} (m k : ℕ)
    (h : ∀ i, k ≤ i → i < k + m → link i = name (i + 1)) :
    Chain name link (link (k + m)) (name k) (List.range' k (m + 1)) := by
  induction m generalizing k with
  | zero => exact ⟨rfl, rfl⟩
  | succ m ih =>
      refine ⟨rfl, ?_⟩
      have hnext := ih (k + 1) fun i hk hi => h i (by omega) (by omega)
      rw [h k le_rfl (by omega), show k + (m + 1) = k + 1 + m by omega]
      exact hnext

variable [DecidableEq α]

/-- A write to a cell that is not on the chain. -/
theorem Chain.update (h : Chain name link stop v xs) (hx : x ∉ xs) :
    Chain name (Function.update link x w) stop v xs := by
  refine h.congr fun y hy => ?_
  have hne : y ≠ x := fun he => hx (he ▸ hy)
  exact Function.update_of_ne hne w link

/-- A cell whose link is the old head becomes the new head. -/
theorem Chain.push (h : Chain name link stop v xs) (hx : x ∉ xs) :
    Chain name (Function.update link x v) stop (name x) (x :: xs) := by
  refine ⟨rfl, ?_⟩
  rw [Function.update_self]
  exact h.update hx

end Links

end DDFramework
