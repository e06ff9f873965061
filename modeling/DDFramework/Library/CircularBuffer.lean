import Mathlib.Data.List.Basic

/-! # Circular buffers

A window of a buffer starts at one of its cells and goes on in the first cell after the
last one. -/

namespace DDFramework

variable {α : Type*}

/-- A position that is less than two rounds from the start of the buffer. -/
def wrap (capacity i : ℕ) : ℕ := if capacity ≤ i then i - capacity else i

theorem wrap_lt {capacity i : ℕ} (h : i < 2 * capacity) : wrap capacity i < capacity := by
  rw [wrap]
  split <;> omega

theorem wrap_add_inj {capacity start i j : ℕ} (hi : i < capacity) (hj : j < capacity)
    (he : wrap capacity (start + i) = wrap capacity (start + j)) : i = j := by
  simp only [wrap] at he
  split at he <;> split at he <;> omega

/-- The cells of the buffer from `start` on hold `xs`. -/
structure Window (buffer : List α) (start : ℕ) (xs : List α) : Prop where
  start_lt : start < buffer.length
  length_le : xs.length ≤ buffer.length
  get : ∀ i < xs.length, buffer[wrap buffer.length (start + i)]? = xs[i]?

theorem Window.nil {buffer : List α} {start : ℕ} (h : start < buffer.length) :
    Window buffer start [] :=
  ⟨h, Nat.zero_le _, fun _ hi => absurd hi (Nat.not_lt_zero _)⟩

theorem Window.head {buffer : List α} {start : ℕ} {x : α} {xs : List α}
    (h : Window buffer start (x :: xs)) : buffer[start]? = some x := by
  have hget := h.get 0 (by simp)
  rwa [Nat.add_zero, wrap, if_neg (Nat.not_le.mpr h.start_lt)] at hget

/-- The window without its first cell. -/
theorem Window.tail {buffer : List α} {start : ℕ} {x : α} {xs : List α}
    (h : Window buffer start (x :: xs)) :
    Window buffer (wrap buffer.length (start + 1)) xs where
  start_lt := by
    have hstart := h.start_lt
    exact wrap_lt (by omega)
  length_le := Nat.le_of_succ_le h.length_le
  get i hi := by
    have hstart := h.start_lt
    have hlength := h.length_le
    have hwrap : wrap buffer.length (wrap buffer.length (start + 1) + i) =
        wrap buffer.length (start + (i + 1)) := by
      simp only [List.length_cons] at hlength
      simp only [wrap]
      split <;> split <;> split <;> omega
    rw [hwrap, h.get (i + 1) (Nat.succ_lt_succ hi), List.getElem?_cons_succ]

/-- Writing the cell after the window makes the window longer. -/
theorem Window.concat {buffer : List α} {start : ℕ} {xs : List α} (h : Window buffer start xs)
    (hlt : xs.length < buffer.length) (x : α) :
    Window (buffer.set (wrap buffer.length (start + xs.length)) x) start (xs ++ [x]) where
  start_lt := by simpa using h.start_lt
  length_le := by simpa [Nat.succ_le_iff] using hlt
  get i hi := by
    have hstart := h.start_lt
    rw [List.length_set]
    rw [List.length_append, List.length_singleton, Nat.lt_succ_iff_lt_or_eq] at hi
    rcases hi with hi | rfl
    · have hne : wrap buffer.length (start + xs.length) ≠ wrap buffer.length (start + i) :=
        fun he => Nat.ne_of_gt hi (wrap_add_inj hlt (Nat.lt_trans hi hlt) he)
      rw [List.getElem?_set_ne hne, h.get i hi, List.getElem?_append_left hi]
    · rw [List.getElem?_set_self (wrap_lt (by omega)), List.getElem?_concat_length]

end DDFramework
