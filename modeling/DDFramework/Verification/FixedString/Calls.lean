import DDFramework.Verification.FixedString.Copies

/-! # What the members of `FixedString` store

The run-time copies leave the character after the text as it was, unless it is the last one
of the array. The copies of constant evaluation and of `vsnprintf` write a zero there. -/

namespace DDFramework.FixedString

variable {size : BufferSize} {s : FixedString size}

/-- The C string in the array. -/
def text (s : FixedString size) : List CChar := cString s.stringArray

/-- `m_length` is the length of the C string in the array. -/
structure Valid (s : FixedString size) : Prop where
  length_lt : s.text.length < size.val
  length_eq : s.length.toNat = s.text.length

/-- The array has a zero at the index after `AssureTermination`. -/
def EndsAt (s : FixedString size) (n : ℕ) : Prop :=
  n = size.val - 1 ∨ s.stringArray[n]? = some 0

instance (s : FixedString size) (n : ℕ) : Decidable (s.EndsAt n) :=
  inferInstanceAs (Decidable (_ ∨ _))

theorem zero_notMem_text (s : FixedString size) : 0 ∉ s.text := zero_notMem_cString _

theorem text_prefix (s : FixedString size) : s.text <+: s.stringArray := cString_isPrefix _

theorem Valid.exists_rest (h : s.Valid) : ∃ rest, s.stringArray = s.text ++ 0 :: rest := by
  obtain ⟨rest, hrest⟩ := s.text_prefix
  have hlt : s.text.length < s.stringArray.length := by
    rw [s.stringArray_length]
    exact h.length_lt
  have hnul : s.stringArray[s.text.length]? = some 0 := getElem?_length_cString hlt
  rw [← hrest, List.getElem?_append_right (Nat.le_refl _), Nat.sub_self] at hnul
  cases rest with
  | nil => simp at hnul
  | cons c rest =>
      rw [List.getElem?_cons_zero, Option.some.injEq] at hnul
      exact ⟨rest, by rw [← hnul]; exact hrest.symm⟩

theorem Valid.terminated (h : s.Valid) : Terminated s.read s.text where
  nonzero := s.zero_notMem_text
  get := by
    intro i c hc
    obtain ⟨rest, hrest⟩ := s.text_prefix
    have hi := (List.getElem?_eq_some_iff.mp hc).1
    have harray : s.stringArray[i]? = some c := by
      rw [← hrest, List.getElem?_append_left hi, hc]
    simp [read, harray]
  nul := by
    obtain ⟨rest, hrest⟩ := h.exists_rest
    have hnul : s.stringArray[s.text.length]? = some 0 := by rw [hrest]; simp
    simp [read, hnul]

/-- A text at the start of the array is the whole C string if a zero follows it. -/
theorem text_assureTermination_iff {txt : List CChar} (h : 0 ∉ txt)
    (hstart : txt <+: s.stringArray) (hlt : txt.length < size.val) :
    s.assureTermination.text = txt ↔ s.EndsAt txt.length := by
  have hlength := s.stringArray_length
  have hstart' : txt <+: s.stringArray.set (size.val - 1) 0 := by
    rw [List.prefix_iff_eq_take, List.take_set_of_le (by omega)]
    exact List.prefix_iff_eq_take.mp hstart
  have hiff := cString_eq_iff h hstart'
  rw [List.length_set, hlength, and_iff_left hlt, List.getElem?_set] at hiff
  rw [text, assureTermination, hiff, EndsAt]
  by_cases he : size.val - 1 = txt.length
  · rw [if_pos he, if_pos (by omega)]
    simp [he]
  · rw [if_neg he]
    simp [Ne.symm he]

/-! ### Copies without a zero -/

/-- The text is copied to the offset and `m_length` set to its end. -/
def stored (s : FixedString size) (offset : ℕ) (block : List CChar)
    (h : offset + block.length < size.val) : FixedString size :=
  ((s.overwritten offset block (Nat.le_of_lt h)).setLength
    (BitVec.ofNat 32 (offset + block.length))).assureTermination

theorem toNat_ofNat_length {n : ℕ} (h : n < size.val) : (BitVec.ofNat 32 n).toNat = n := by
  have hsize := size.property.2
  rw [BitVec.toNat_ofNat]
  exact Nat.mod_eq_of_lt (by omega)

theorem stored_length {offset : ℕ} {block : List CChar} (h : offset + block.length < size.val) :
    (s.stored offset block h).length.toNat = offset + block.length :=
  toNat_ofNat_length h

theorem prefix_overwritten {pre block : List CChar} (hpre : pre <+: s.stringArray)
    (h : pre.length + block.length ≤ size.val) :
    pre ++ block <+: (s.overwritten pre.length block h).stringArray := by
  have htake : s.stringArray.take pre.length = pre := (List.prefix_iff_eq_take.mp hpre).symm
  refine ⟨s.stringArray.drop (pre.length + block.length), ?_⟩
  simp only [overwritten, overwrite, htake]

/-- The C string is the one that was copied if the array has a zero where it ends. -/
theorem stored_text_iff {pre block : List CChar} (hpre : pre <+: s.stringArray)
    (hzero : 0 ∉ pre ++ block) (h : pre.length + block.length < size.val) :
    (s.stored pre.length block h).text = pre ++ block ↔ s.EndsAt (pre.length + block.length) := by
  have hle : pre.length + block.length ≤ s.stringArray.length := by
    rw [s.stringArray_length]
    exact Nat.le_of_lt h
  have hiff := text_assureTermination_iff hzero
    (s := (s.overwritten pre.length block (Nat.le_of_lt h)).setLength
      (BitVec.ofNat 32 (pre.length + block.length)))
    (prefix_overwritten hpre (Nat.le_of_lt h)) (by rwa [List.length_append])
  rw [stored, hiff, List.length_append, EndsAt, EndsAt]
  simp only [setLength, overwritten, getElem?_overwrite_of_le hle (Nat.le_refl _)]

theorem stored_valid {pre block : List CChar} {h : pre.length + block.length < size.val}
    (htext : (s.stored pre.length block h).text = pre ++ block) :
    (s.stored pre.length block h).Valid := by
  refine ⟨by rwa [htext, List.length_append], ?_⟩
  rw [htext, List.length_append, stored_length]

/-! ### Copies with a zero -/

theorem length_append_zero {offset : ℕ} {block : List CChar}
    (h : offset + block.length < size.val) : offset + (block ++ [0]).length ≤ size.val := by
  rw [List.length_append, List.length_singleton]
  omega

/-- The text is copied to the offset with a zero after it. -/
def zeroEnded (s : FixedString size) (offset : ℕ) (block : List CChar)
    (h : offset + block.length < size.val) (length : BitVec 32) : FixedString size :=
  (s.overwritten offset (block ++ [0]) (length_append_zero h)).setLength length

theorem zeroEnded_stringArray {pre block : List CChar} (hpre : pre <+: s.stringArray)
    (h : pre.length + block.length < size.val) (length : BitVec 32) :
    ∃ rest, (s.zeroEnded pre.length block h length).stringArray = pre ++ block ++ 0 :: rest := by
  obtain ⟨rest, hrest⟩ := prefix_overwritten hpre (length_append_zero h)
  refine ⟨rest, ?_⟩
  rw [zeroEnded, setLength, ← hrest]
  simp

theorem zeroEnded_text {pre block : List CChar} (hpre : pre <+: s.stringArray)
    (hzero : 0 ∉ pre ++ block) (h : pre.length + block.length < size.val) (length : BitVec 32) :
    (s.zeroEnded pre.length block h length).text = pre ++ block := by
  obtain ⟨rest, hrest⟩ := zeroEnded_stringArray hpre h length
  rw [text, hrest, cString_append_zero hzero]

theorem zeroEnded_assureTermination_text {pre block : List CChar} (hpre : pre <+: s.stringArray)
    (hzero : 0 ∉ pre ++ block) (h : pre.length + block.length < size.val) (length : BitVec 32) :
    (s.zeroEnded pre.length block h length).assureTermination.text = pre ++ block := by
  obtain ⟨rest, hrest⟩ := zeroEnded_stringArray hpre h length
  refine (text_assureTermination_iff hzero ?_ (by rwa [List.length_append])).mpr (Or.inr ?_)
  · rw [hrest]
    exact List.prefix_append _ _
  · rw [hrest]
    simp

/-! ### The run-time branches -/

theorem length_take_lt {offset : ℕ} (h : offset < size.val) (cs : List CChar) :
    offset + (cs.take (size.val - 1 - offset)).length < size.val := by
  rw [List.length_take]
  omega

theorem zero_add_length_take_lt (cs : List CChar) :
    0 + (cs.take (size.val - 1)).length < size.val :=
  length_take_lt size.property.1 cs

theorem zero_notMem_take (string : CString) (n : ℕ) : 0 ∉ string.val.take n :=
  fun hm => string.property (List.mem_of_mem_take hm)

/-- A run-time copy of at most `n` characters of a string. -/
theorem strncpy_take {offset n : ℕ} (string : CString)
    (h : offset + (string.val.take n).length ≤ size.val) :
    s.strncpy offset string.read (min n string.val.length) =
      .ok (s.overwritten offset (string.val.take n) h) := by
  have htake : (string.val ++ [0]).take (min n string.val.length) = string.val.take n := by
    rw [List.take_append_of_le_length (Nat.min_le_right _ _), ← List.take_eq_take_min]
  rw [strncpy_eq string.terminated s (by omega), htake, writeAll_of_le s h]

theorem assign_eq {rhs : FixedString size} (hrhs : rhs.Valid) :
    assign false s rhs =
      .ok (s.stored 0 rhs.text (by rw [Nat.zero_add]; exact hrhs.length_lt)) := by
  have hlt := hrhs.length_lt
  have hlen : (if rhs.length.toNat < size.val - 1 then rhs.length.toNat else size.val - 1) =
      rhs.text.length := by
    rw [hrhs.length_eq]
    split <;> omega
  simp only [assign, Bool.false_eq_true, if_false, hlen]
  rw [strncpy_eq hrhs.terminated s (Nat.le_succ _), List.take_left' rfl,
    writeAll_of_le s (by omega), ok_bind]
  simp [stored]

theorem assignString_eq (rhs : CString) :
    assignString false s rhs =
      .ok (s.stored 0 (rhs.val.take (size.val - 1)) (zero_add_length_take_lt _)) := by
  have hle : 0 + (rhs.val.take (size.val - 1)).length ≤ size.val :=
    Nat.le_of_lt (zero_add_length_take_lt rhs.val)
  simp only [assignString, Bool.false_eq_true, if_false]
  rw [rhs.terminated.strnlen_eq, ok_bind, strncpy_take rhs hle, ok_bind]
  simp [stored]

theorem Valid.sizeLeft_toNat (h : s.Valid) : s.sizeLeft.toNat = size.val - s.text.length := by
  have hsize := size.property.2
  have hlt := h.length_lt
  rw [sizeLeft, BitVec.toNat_sub, BitVec.toNat_ofNat, BitVec.toNat_setWidth, h.length_eq]
  omega

theorem Valid.sizeLeft_sub_one_toNat (h : s.Valid) :
    (s.sizeLeft - 1).toNat = size.val - 1 - s.text.length := by
  have hsize := size.property.2
  have hlt := h.length_lt
  rw [BitVec.toNat_sub, h.sizeLeft_toNat]
  simp
  omega

/-- The stored length is moved on by the length of the appended text. -/
theorem Valid.length_add (h : s.Valid) (n : ℕ) :
    s.length + BitVec.ofNat 32 n = BitVec.ofNat 32 (s.text.length + n) := by
  rw [← h.length_eq, BitVec.ofNat_add, BitVec.ofNat_toNat, BitVec.setWidth_eq]

theorem append_eq (hs : s.Valid) (string : CString) :
    append false s string =
      let t := s.stored s.text.length (string.val.take (size.val - 1 - s.text.length))
        (length_take_lt hs.length_lt _)
      .ok (t.length.setWidth 64, t) := by
  have hle := Nat.le_of_lt (length_take_lt hs.length_lt string.val)
  simp only [append, Bool.false_eq_true, if_false]
  rw [string.terminated.strnlen_eq, ok_bind, hs.sizeLeft_sub_one_toNat, hs.length_eq,
    strncpy_take string hle, ok_bind, hs.length_add]
  simp [stored, returning]

/-- A string that does not fit is copied over the end of the array. -/
theorem construct_of_le {string : CString} (h : size.val ≤ string.val.length) :
    construct size false string = .error .outOfBounds := by
  simp only [construct, Bool.false_eq_true, if_false]
  rw [string.terminated.strnlen_eq, ok_bind, Nat.min_eq_left h,
    strncpy_eq string.terminated _ (by omega), writeAll_of_lt _ (Nat.zero_le _), error_bind]
  rw [List.length_take, List.length_append, List.length_singleton]
  omega

theorem construct_of_lt {string : CString} (h : string.val.length < size.val) :
    construct size false string =
      .ok ((zeroed size).zeroEnded 0 string.val (by omega)
        (BitVec.ofNat 32 string.val.length)).assureTermination := by
  have hle : 0 + (string.val ++ [0]).length ≤ size.val := by
    rw [List.length_append, List.length_singleton]
    omega
  simp only [construct, Bool.false_eq_true, if_false]
  rw [string.terminated.strnlen_eq, ok_bind, Nat.min_eq_right (Nat.le_of_lt h),
    strncpy_eq string.terminated _ (Nat.le_refl _), List.take_of_length_le (by simp),
    writeAll_of_le _ hle, ok_bind]
  rfl

/-! ### Formats -/

theorem vsnprintf_eq {offset : ℕ} (h : offset < size.val) (expansion : CString) :
    s.vsnprintf offset (size.val - offset) expansion =
      .ok (if expansion.val.length < 2 ^ 31 then BitVec.ofNat 32 expansion.val.length else -1,
        s.zeroEnded offset (expansion.val.take (size.val - 1 - offset)) (length_take_lt h _)
          s.length) := by
  have hle := length_append_zero (length_take_lt h expansion.val)
  rw [vsnprintf, if_neg (by omega), Nat.sub_right_comm, writeAll_of_le s hle, ok_bind]
  rfl

theorem toInt_ofNat_length {n : ℕ} (h : n < 2 ^ 31) : ¬ (BitVec.ofNat 32 n).toInt < 0 := by
  rw [BitVec.toInt_eq_toNat_cond, BitVec.toNat_ofNat]
  omega

theorem format_eq (expansion : CString) :
    format s expansion =
      if expansion.val.length < 2 ^ 31 then
        let t := (s.zeroEnded 0 (expansion.val.take (size.val - 1))
          (zero_add_length_take_lt _)
          (BitVec.ofNat 32 expansion.val.length)).assureTermination
        .ok (t.length.setWidth 64, t)
      else .error .assertFailed := by
  have hprint := vsnprintf_eq (s := s) size.property.1 expansion
  simp only [format, Nat.sub_zero] at hprint ⊢
  rw [hprint, ok_bind]
  by_cases hlength : expansion.val.length < 2 ^ 31
  · simp only [if_pos hlength, if_neg (toInt_ofNat_length hlength)]
    rfl
  · simp only [if_neg hlength]
    rfl

theorem appendFormat_eq (hs : s.Valid) (expansion : CString) :
    appendFormat s expansion =
      if expansion.val.length < 2 ^ 31 then
        let t := (s.zeroEnded s.text.length
          (expansion.val.take (size.val - 1 - s.text.length)) (length_take_lt hs.length_lt _)
          (BitVec.ofNat 32 (s.text.length + expansion.val.length))).assureTermination
        .ok (t.length.setWidth 64, t)
      else .error .assertFailed := by
  simp only [appendFormat]
  rw [hs.sizeLeft_toNat, hs.length_eq, vsnprintf_eq hs.length_lt, ok_bind]
  by_cases hlength : expansion.val.length < 2 ^ 31
  · simp only [if_pos hlength, if_neg (toInt_ofNat_length hlength), hs.length_add]
    rfl
  · simp only [if_neg hlength]
    rfl

/-! ### The branches of constant evaluation -/

/-- A copy of at most `n` characters of a source, with a zero after them. -/
theorem tStringCopy_take {src : Source} {txt : List CChar} {offset n : ℕ}
    (hsrc : Terminated src txt) (h : offset + (txt.take n).length < size.val) :
    s.tStringCopy offset src (min n txt.length) =
      .ok (min n txt.length, s.zeroEnded offset (txt.take n) h s.length) := by
  rw [tStringCopy_eq hsrc, ← List.take_eq_take_min, writeAll_of_le s (length_append_zero h),
    Nat.min_eq_left (Nat.min_le_right n txt.length)]
  rfl

theorem construct_constant_eq (string : CString) :
    construct size true string =
      .ok ((zeroed size).zeroEnded 0 (string.val.take (size.val - 1))
        (zero_add_length_take_lt _)
        (BitVec.ofNat 32 (string.val.take (size.val - 1)).length)).assureTermination := by
  simp only [construct, if_true]
  rw [string.terminated.tStringLength_eq, ok_bind, tStringCopy_take string.terminated
    (zero_add_length_take_lt _), ok_bind]
  rw [List.length_take]
  rfl

theorem assign_constant_eq {rhs : FixedString size} (hrhs : rhs.Valid) :
    assign true s rhs =
      .ok (s.zeroEnded 0 rhs.text (by rw [Nat.zero_add]; exact hrhs.length_lt)
        (BitVec.ofNat 32 rhs.text.length)).assureTermination := by
  have hlt := hrhs.length_lt
  have htake : rhs.text.take (size.val - 1) = rhs.text := List.take_of_length_le (by omega)
  have hcopy := tStringCopy_take (s := s) (n := size.val - 1) hrhs.terminated
    (zero_add_length_take_lt _)
  simp only [assign, if_true]
  rw [hrhs.terminated.tStringLength_eq, ok_bind, hcopy, ok_bind]
  simp only [htake, Nat.min_eq_right (show rhs.text.length ≤ size.val - 1 by omega)]
  rfl

theorem assignString_constant_eq (rhs : CString) :
    assignString true s rhs =
      .ok (s.zeroEnded 0 (rhs.val.take (size.val - 1)) (zero_add_length_take_lt _)
        (BitVec.ofNat 32 (rhs.val.take (size.val - 1)).length)) := by
  simp only [assignString, if_true]
  rw [rhs.terminated.tStringLength_eq, ok_bind, tStringCopy_take rhs.terminated
    (zero_add_length_take_lt _), ok_bind, List.length_take]
  rfl

theorem append_constant_eq (hs : s.Valid) (string : CString) :
    append true s string =
      let t := (s.zeroEnded s.text.length (string.val.take (size.val - 1 - s.text.length))
        (length_take_lt hs.length_lt _) (BitVec.ofNat 32 (s.text.length +
          (string.val.take (size.val - 1 - s.text.length)).length))).assureTermination
      .ok (t.length.setWidth 64, t) := by
  simp only [append, if_true]
  rw [string.terminated.tStringLength_eq, ok_bind, hs.sizeLeft_sub_one_toNat, hs.length_eq,
    tStringCopy_take string.terminated (length_take_lt hs.length_lt _), ok_bind, hs.length_add,
    List.length_take]
  rfl

end DDFramework.FixedString
