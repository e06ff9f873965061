import Mathlib.Data.List.Basic
import Mathlib.Data.List.TakeWhile

/-! # Texts in arrays of characters

The text in an array ends at the first zero. Writing a block of characters changes the text
up to its end; what follows depends on the character that was there before. -/

namespace DDFramework

variable {α : Type*}

/-- The array after the block has been written at the offset. -/
def overwrite (cs : List α) (offset : ℕ) (block : List α) : List α :=
  cs.take offset ++ block ++ cs.drop (offset + block.length)

theorem overwrite_nil (cs : List α) (offset : ℕ) : overwrite cs offset [] = cs := by
  simp [overwrite]

theorem length_overwrite {cs block : List α} {offset : ℕ}
    (h : offset + block.length ≤ cs.length) : (overwrite cs offset block).length = cs.length := by
  simp only [overwrite, List.length_append, List.length_take, List.length_drop]
  omega

/-- A block is written one character after the other. -/
theorem overwrite_set {cs block : List α} {offset : ℕ} (c : α)
    (h : offset + block.length < cs.length) :
    overwrite (cs.set offset c) (offset + 1) block = overwrite cs offset (c :: block) := by
  have htake : (cs.set offset c).take (offset + 1) = cs.take offset ++ [c] := by
    rw [List.take_add_one, List.take_set_of_le (Nat.le_refl offset)]
    simp [show offset < cs.length by omega]
  have hdrop : (cs.set offset c).drop (offset + 1 + block.length) =
      cs.drop (offset + (c :: block).length) := by
    rw [List.drop_set_of_lt (by omega), List.length_cons, Nat.add_assoc, Nat.add_comm 1]
  rw [overwrite, overwrite, htake, hdrop]
  simp

/-- Characters after the block are kept. -/
theorem getElem?_overwrite_of_le {cs block : List α} {offset i : ℕ}
    (hblock : offset + block.length ≤ cs.length) (hi : offset + block.length ≤ i) :
    (overwrite cs offset block)[i]? = cs[i]? := by
  have hlength : (cs.take offset ++ block).length = offset + block.length := by
    rw [List.length_append, List.length_take, Nat.min_eq_left (by omega)]
  rw [overwrite, List.getElem?_append_right (by omega), hlength, List.getElem?_drop]
  congr 1
  omega

/-! ### The text of an array -/

variable [Zero α] [DecidableEq α]

/-- The characters before the first zero. -/
def cString (cs : List α) : List α := cs.takeWhile fun c => c ≠ 0

theorem cString_isPrefix (cs : List α) : cString cs <+: cs := List.takeWhile_prefix _

theorem zero_notMem_cString (cs : List α) : (0 : α) ∉ cString cs := by
  intro h
  simpa using List.mem_takeWhile_imp h

/-- A text at the start of an array is at the start of its text. -/
theorem cString_append {text : List α} (h : (0 : α) ∉ text) (cs : List α) :
    cString (text ++ cs) = text ++ cString cs := by
  have htext : ∀ c ∈ text, decide (c ≠ 0) = true := by
    intro c hc
    rw [decide_eq_true_eq]
    rintro rfl
    exact h hc
  exact List.takeWhile_append_of_pos htext

theorem cString_append_zero {text : List α} (h : (0 : α) ∉ text) (rest : List α) :
    cString (text ++ 0 :: rest) = text := by
  rw [cString_append h, cString, List.takeWhile_cons_of_neg (by simp), List.append_nil]

/-- An array that starts with a text holds that text if a zero follows. -/
theorem cString_eq_iff {text cs : List α} (h : (0 : α) ∉ text) (hstart : text <+: cs) :
    cString cs = text ∧ text.length < cs.length ↔ cs[text.length]? = some 0 := by
  obtain ⟨rest, rfl⟩ := hstart
  cases rest with
  | nil => simp
  | cons c rest =>
      by_cases hc : c = 0
      · subst c
        simp [cString_append_zero h]
      · have hlong : cString (text ++ c :: rest) ≠ text := by
          rw [cString_append h, cString, List.takeWhile_cons_of_pos (by simpa)]
          simp
        simp [hlong, hc]

/-- The character after the text is a zero. -/
theorem getElem?_length_cString {cs : List α} (h : (cString cs).length < cs.length) :
    cs[(cString cs).length]? = some 0 :=
  (cString_eq_iff (zero_notMem_cString cs) (cString_isPrefix cs)).mp ⟨rfl, h⟩

end DDFramework
