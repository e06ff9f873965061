import DDFramework.Library.Computation
import DDFramework.Model.FixedString

/-! # The copy loops

On a source that ends with a zero, each copy writes one block of characters. -/

namespace DDFramework

/-- The source is the text with a zero after it. -/
structure Terminated (src : Source) (text : List CChar) : Prop where
  nonzero : 0 ∉ text
  get : ∀ i c, text[i]? = some c → src i = .ok c
  nul : src text.length = .ok 0

theorem CString.terminated (string : CString) : Terminated string.read string.val where
  nonzero := string.property
  get := by
    intro i c hc
    have hi := (List.getElem?_eq_some_iff.mp hc).1
    simp [CString.read, Nat.ne_of_lt hi, hc]
  nul := by simp [CString.read]

namespace Terminated

variable {src : Source} {text : List CChar}

/-- What a loop over the source finds at an index that it can reach. -/
theorem read_cases (h : Terminated src text) {i : ℕ} (hi : i ≤ text.length) :
    (i = text.length ∧ src i = .ok 0) ∨
      ∃ c, i < text.length ∧ text.drop i = c :: text.drop (i + 1) ∧ src i = .ok c ∧ c ≠ 0 := by
  rcases Nat.eq_or_lt_of_le hi with rfl | hlt
  · exact Or.inl ⟨rfl, h.nul⟩
  · refine Or.inr ⟨text[i], hlt, List.drop_eq_getElem_cons hlt, ?_, ?_⟩
    · exact h.get i _ (List.getElem?_eq_getElem hlt)
    · intro he
      exact h.nonzero (he ▸ List.getElem_mem hlt)

theorem strnlenFrom_eq (h : Terminated src text) {n len : ℕ} (hlen : len ≤ text.length) :
    strnlenFrom src n len = .ok (len + min n (text.length - len)) := by
  induction n generalizing len with
  | zero => simp [strnlenFrom]
  | succ n ih =>
      rcases h.read_cases hlen with ⟨rfl, hnul⟩ | ⟨c, hlt, -, hc, hne⟩
      · simp [strnlenFrom, hnul]
      · rw [strnlenFrom, hc, ok_bind, if_pos hne, ih hlt]
        congr 1
        omega

theorem strnlen_eq (h : Terminated src text) (n : ℕ) :
    strnlen src n = .ok (min n text.length) := by
  rw [strnlen, h.strnlenFrom_eq (Nat.zero_le _), Nat.zero_add, Nat.sub_zero]

/-- The character that `TStringLength` reads in addition is there. -/
theorem tStringLengthFrom_eq (h : Terminated src text) {n len : ℕ} (hlen : len ≤ text.length) :
    tStringLengthFrom src n len = strnlenFrom src n len := by
  induction n generalizing len with
  | zero =>
      rcases h.read_cases hlen with ⟨-, hnul⟩ | ⟨c, -, -, hc, -⟩
      · simp [tStringLengthFrom, strnlenFrom, hnul]
      · simp [tStringLengthFrom, strnlenFrom, hc]
  | succ n ih =>
      rcases h.read_cases hlen with ⟨-, hnul⟩ | ⟨c, hlt, -, hc, hne⟩
      · simp [tStringLengthFrom, strnlenFrom, hnul]
      · rw [tStringLengthFrom, strnlenFrom, hc, ok_bind, ok_bind, if_pos hne, if_pos hne, ih hlt]

theorem tStringLength_eq (h : Terminated src text) (n : ℕ) :
    tStringLength src n = .ok (min n text.length) := by
  rw [tStringLength, h.tStringLengthFrom_eq (Nat.zero_le _), ← strnlen, h.strnlen_eq]

end Terminated

namespace FixedString

variable {size : BufferSize} {src : Source} {text : List CChar}

/-! ### Blocks -/

/-- The string after a block has been written into its array. -/
def overwritten (s : FixedString size) (offset : ℕ) (block : List CChar)
    (h : offset + block.length ≤ size.val) : FixedString size :=
  { s with
    stringArray := overwrite s.stringArray offset block
    stringArray_length := by
      rw [length_overwrite (s.stringArray_length ▸ h), s.stringArray_length] }

theorem writeAll_of_le {offset : ℕ} {block : List CChar} (s : FixedString size)
    (h : offset + block.length ≤ size.val) :
    writeAll offset block s = .ok (s.overwritten offset block h) := by
  induction block generalizing offset s with
  | nil => simp [writeAll, overwritten, overwrite_nil]
  | cons c block ih =>
      have hlength := s.stringArray_length
      rw [List.length_cons] at h
      have hwrite : s.write offset c = .ok _ := if_pos (by omega)
      rw [writeAll, hwrite, ok_bind, ih _ (by omega)]
      simp only [overwritten, Except.ok.injEq, FixedString.mk.injEq, and_true]
      exact overwrite_set c (by omega)

theorem writeAll_singleton (offset : ℕ) (c : CChar) (s : FixedString size) :
    writeAll offset [c] s = s.write offset c := by
  cases hwrite : s.write offset c with
  | error fault => rw [writeAll, hwrite, error_bind]
  | ok t => rw [writeAll, hwrite, ok_bind, writeAll]

/-- A block that does not fit is written over the end of the array. -/
theorem writeAll_of_lt {offset : ℕ} {block : List CChar} (s : FixedString size)
    (hoffset : offset ≤ size.val) (h : size.val < offset + block.length) :
    writeAll offset block s = .error .outOfBounds := by
  induction block generalizing offset s with
  | nil => exact absurd h (by simpa using hoffset)
  | cons c block ih =>
      rw [List.length_cons] at h
      by_cases hlt : offset < size.val
      · have hwrite : s.write offset c = .ok _ := if_pos hlt
        rw [writeAll, hwrite, ok_bind, ih _ hlt (by omega)]
      · rw [writeAll, write, if_neg hlt, error_bind]

/-! ### `strncpy` and `TStringCopy` -/

theorem strncpyFrom_eq (h : Terminated src text) {offset n i : ℕ} (s : FixedString size)
    (hn : i + n ≤ text.length + 1) :
    strncpyFrom offset src n i s = writeAll (offset + i) (((text ++ [0]).drop i).take n) s := by
  induction n generalizing i s with
  | zero => simp [strncpyFrom, writeAll]
  | succ n ih =>
      have hi : i ≤ text.length := by omega
      rw [List.drop_append_of_le_length hi]
      rcases h.read_cases hi with ⟨rfl, hnul⟩ | ⟨c, hlt, hdrop, hc, hne⟩
      · obtain rfl : n = 0 := by omega
        rw [strncpyFrom, hnul, ok_bind]
        simp [padFrom, writeAll]
      · rw [strncpyFrom, hc, ok_bind, hdrop, List.cons_append, List.take_succ_cons, writeAll]
        congr 1
        funext t
        rw [if_neg hne, ih t (by omega), List.drop_append_of_le_length hlt, Nat.add_assoc]

theorem strncpy_eq (h : Terminated src text) (s : FixedString size) {offset n : ℕ}
    (hn : n ≤ text.length + 1) :
    s.strncpy offset src n = writeAll offset ((text ++ [0]).take n) s := by
  rw [strncpy, strncpyFrom_eq h s (by omega), Nat.add_zero, List.drop_zero]

theorem tStringCopyFrom_eq (h : Terminated src text) {offset n len : ℕ} (s : FixedString size)
    (hlen : len ≤ text.length) :
    tStringCopyFrom offset src n len s =
      (writeAll (offset + len) ((text.drop len).take n ++ [0]) s).map
        fun t => (len + min n (text.length - len), t) := by
  induction n generalizing len s with
  | zero =>
      have hread : ∃ c, src len = .ok c := by
        rcases h.read_cases hlen with ⟨-, hnul⟩ | ⟨c, -, -, hc, -⟩
        · exact ⟨0, hnul⟩
        · exact ⟨c, hc⟩
      obtain ⟨c, hc⟩ := hread
      rw [tStringCopyFrom, hc, ok_bind, List.take_zero, List.nil_append, writeAll_singleton,
        Nat.zero_min, Nat.add_zero]
      exact bind_ok_eq_map _ _
  | succ n ih =>
      rcases h.read_cases hlen with ⟨rfl, hnul⟩ | ⟨c, hlt, hdrop, hc, hne⟩
      · rw [tStringCopyFrom, hnul, ok_bind, if_neg (by simp), List.drop_length, List.take_nil,
          List.nil_append, writeAll_singleton, Nat.sub_self, Nat.min_zero, Nat.add_zero]
        exact bind_ok_eq_map _ _
      · rw [tStringCopyFrom, hc, ok_bind, if_pos hne, hdrop, List.take_succ_cons, List.cons_append,
          writeAll]
        cases hwrite : s.write (offset + len) c with
        | error fault => rfl
        | ok t =>
            rw [ok_bind, ok_bind, ih t hlt, Nat.add_assoc offset,
              show len + 1 + min n (text.length - (len + 1)) =
                len + min (n + 1) (text.length - len) by omega]

theorem tStringCopy_eq (h : Terminated src text) (s : FixedString size) (offset n : ℕ) :
    s.tStringCopy offset src n =
      (writeAll offset (text.take n ++ [0]) s).map fun t => (min n text.length, t) := by
  rw [tStringCopy, tStringCopyFrom_eq h s (Nat.zero_le _)]
  simp

end FixedString

end DDFramework
