import DDFramework.Verification.PathUtil.Splitting

/-! # Replacing the delimiters of a path

The loop goes down to the index 1, so the first character of the path is never replaced. -/

namespace DDFramework

open FixedString

namespace PathUtil

variable {path : FixedString maxPath} {newDelimiter : CChar} {n : ℕ}

/-- The path with the new delimiter for each separator from the index 1 to `n`. -/
def replacedTo (newDelimiter : CChar) (path : FixedString maxPath) (n : ℕ) :
    FixedString maxPath :=
  { path with
    stringArray := replaceTo IsSeparator newDelimiter path.stringArray n
    stringArray_length := length_replaceTo.trans path.stringArray_length }

theorem replacedTo_stringArray : (replacedTo newDelimiter path n).stringArray =
    replaceTo IsSeparator newDelimiter path.stringArray n := rfl

theorem replacedTo_zero : replacedTo newDelimiter path 0 = path := by
  simp only [replacedTo, replaceTo_zero]

theorem replacedTo_congr {path' : FixedString maxPath} {m : ℕ}
    (hlength : path'.length = path.length)
    (harray : replaceTo IsSeparator newDelimiter path'.stringArray m =
      replaceTo IsSeparator newDelimiter path.stringArray n) :
    replacedTo newDelimiter path' m = replacedTo newDelimiter path n := by
  simp only [replacedTo, hlength, harray]

/-! ### The loop -/

/-- Every round replaces at most the character at the offset, and the rounds below it do not come
back to it. -/
theorem changeDelimitersFrom_eq {startOffset : BitVec 32} (hn : startOffset.toNat = n)
    (h : n < maxPath.val) (path : FixedString maxPath) :
    changeDelimitersFrom newDelimiter startOffset path = .ok (replacedTo newDelimiter path n) := by
  induction n generalizing startOffset path with
  | zero =>
      have hzero : startOffset = 0 := BitVec.eq_of_toNat_eq hn
      rw [changeDelimitersFrom, if_pos hzero, replacedTo_zero]
  | succ n ih =>
      have hne : startOffset ≠ 0 := by
        rintro rfl
        simp at hn
      have hnext : (startOffset - 1).toNat = n := by bv_omega
      have hlt : n + 1 < path.stringArray.length := path.stringArray_length.symm ▸ h
      have hread : path.read (n + 1) = .ok path.stringArray[n + 1] := listSource_of_lt hlt
      have hat : HasAt IsSeparator path.stringArray (n + 1) ↔
          path.stringArray[n + 1] = forwardSlash ∨ path.stringArray[n + 1] = backSlash := by
        simp [HasAt, hlt, IsSeparator, or_comm]
      rw [changeDelimitersFrom, if_neg hne, hn, hread, ok_bind]
      by_cases hseparator : HasAt IsSeparator path.stringArray (n + 1)
      · rw [if_pos (hat.mp hseparator), write, if_pos h, ok_bind]
        refine (ih hnext (Nat.lt_of_succ_lt h) _).trans (congrArg Except.ok ?_)
        exact replacedTo_congr rfl (replaceTo_set hseparator)
      · rw [if_neg (mt hat.mpr hseparator), ok_bind]
        refine (ih hnext (Nat.lt_of_succ_lt h) _).trans (congrArg Except.ok ?_)
        exact replacedTo_congr rfl (replaceTo_succ_of_not hseparator).symm

/-- The later of the two searches finds the last separator, so nothing behind it is left out. -/
theorem changeDirectoryDelimiter_eq (newDelimiter : CChar)
    (h : path.length.toNat < maxPath.val) : changeDirectoryDelimiter (some path) newDelimiter =
      .ok (some (replacedTo newDelimiter path path.length.toNat)) := by
  by_cases hzero : path.length = 0
  · have hnat : path.length.toNat = 0 := congrArg BitVec.toNat hzero
    rw [hnat, replacedTo_zero]
    simp only [changeDirectoryDelimiter, if_pos hzero]
  · have hlt : path.length.toNat < path.stringArray.length := path.stringArray_length.symm ▸ h
    have hfind : findDirectoryDelimiter path.read path.length = .ok (BitVec.ofNat 32
        (lastIndex IsSeparator path.stringArray path.length.toNat)) :=
      findDirectoryDelimiter_eq hlt
    have hlast : lastIndex IsSeparator path.stringArray path.length.toNat < maxPath.val :=
      Nat.lt_of_le_of_lt lastIndex_le h
    simp only [changeDirectoryDelimiter, if_neg hzero, hfind, ok_bind,
      changeDelimitersFrom_eq (toNat_ofNat_length hlast) hlast]
    exact congrArg (Except.ok ∘ some) (replacedTo_congr rfl replaceTo_lastIndex)

/-- A second call leaves the path as the first one returned it. -/
theorem changeDirectoryDelimiter_twice (newDelimiter : CChar)
    (h : path.length.toNat < maxPath.val) :
    (changeDirectoryDelimiter (some path) newDelimiter >>=
      fun out => changeDirectoryDelimiter out newDelimiter) =
      changeDirectoryDelimiter (some path) newDelimiter := by
  have hlength : (replacedTo newDelimiter path path.length.toNat).length = path.length := rfl
  rw [changeDirectoryDelimiter_eq _ h, ok_bind, changeDirectoryDelimiter_eq _ (hlength ▸ h),
    hlength]
  exact congrArg (Except.ok ∘ some) (replacedTo_congr rfl replaceTo_replaceTo)

/-! ### The text -/

/-- The array after a path whose text has been exchanged for one of the same length. -/
theorem valid_of_chars (hvalid : path.Valid) {out : FixedString maxPath} {text : List CChar}
    (hchars : out.stringArray = text ++ path.stringArray.drop path.text.length)
    (hlength : out.length = path.length) (hsame : text.length = path.text.length)
    (hzero : 0 ∉ text) : out.Valid ∧ out.text = text := by
  obtain ⟨rest, hrest⟩ := hvalid.exists_rest
  have htext : out.text = text := by
    rw [FixedString.text, hchars, hrest, List.drop_left, cString_append_zero hzero]
  refine ⟨⟨?_, ?_⟩, htext⟩
  · rw [htext, hsame]
    exact hvalid.length_lt
  · rw [htext, hsame, hlength]
    exact hvalid.length_eq

/-- The terminator is no separator, so what comes after the text is kept. -/
theorem replacedTo_chars (newDelimiter : CChar) (hvalid : path.Valid) :
    (replacedTo newDelimiter path path.length.toNat).stringArray =
      replaceTail IsSeparator newDelimiter path.text ++
        path.stringArray.drop path.text.length := by
  obtain ⟨rest, hrest⟩ := hvalid.exists_rest
  have hdrop : path.stringArray.drop path.text.length = 0 :: rest := by
    rw [hrest, List.drop_left]
  rw [replacedTo_stringArray, hvalid.length_eq, hdrop, hrest]
  exact replaceTo_append_cons not_isSeparator_zero

/-- The call keeps the first character and replaces every separator after it. -/
theorem changeDirectoryDelimiter_text (hvalid : path.Valid)
    (hzero : 0 ∉ replaceTail IsSeparator newDelimiter path.text) :
    ∃ out, changeDirectoryDelimiter (some path) newDelimiter = .ok (some out) ∧ out.Valid ∧
      out.text = replaceTail IsSeparator newDelimiter path.text := by
  have hrange : path.length.toNat < maxPath.val := hvalid.length_eq ▸ hvalid.length_lt
  exact ⟨_, changeDirectoryDelimiter_eq newDelimiter hrange,
    valid_of_chars hvalid (replacedTo_chars newDelimiter hvalid) rfl length_replaceTail hzero⟩

/-! ### All delimiters -/

/-- The text with the new delimiter for each of its separators. -/
def changedText (newDelimiter : CChar) (text : List CChar) : List CChar :=
  text.map (replaceIf IsSeparator newDelimiter)

/-- All separators of the path are replaced, and nothing else. Unless the new delimiter is the
terminator, the new text is the C string. -/
structure DelimitersChanged (newDelimiter : CChar) (path out : FixedString maxPath) : Prop where
  chars : out.stringArray =
    changedText newDelimiter path.text ++ path.stringArray.drop path.text.length
  length : out.length = path.length
  text : 0 ∉ changedText newDelimiter path.text →
    out.Valid ∧ out.text = changedText newDelimiter path.text

/-- The call returns the path with all its delimiters changed, and a second call has no effect. -/
structure ChangesAllDelimiters (newDelimiter : CChar) (path : FixedString maxPath) : Prop where
  once : ∃ out, changeDirectoryDelimiter (some path) newDelimiter = .ok (some out) ∧
    DelimitersChanged newDelimiter path out
  twice : (changeDirectoryDelimiter (some path) newDelimiter >>=
    fun out => changeDirectoryDelimiter out newDelimiter) =
    changeDirectoryDelimiter (some path) newDelimiter

/-- The first character is the only one that the loop leaves out. -/
theorem changesAllDelimiters_iff (hvalid : path.Valid) :
    ChangesAllDelimiters newDelimiter path ↔
      ∀ c ∈ path.text.head?, IsSeparator c → c = newDelimiter := by
  have hrange : path.length.toNat < maxPath.val := hvalid.length_eq ▸ hvalid.length_lt
  have hcall := changeDirectoryDelimiter_eq newDelimiter hrange
  have hchars := replacedTo_chars newDelimiter hvalid
  rw [← replaceTail_eq_map_iff]
  constructor
  · intro h
    obtain ⟨out, hout, hchanged⟩ := h.once
    rw [hcall] at hout
    cases hout
    exact List.append_cancel_right (hchars.symm.trans hchanged.chars)
  · intro h
    rw [h] at hchars
    have hsame : (changedText newDelimiter path.text).length = path.text.length :=
      List.length_map _
    exact ⟨⟨_, hcall, hchars, rfl, valid_of_chars hvalid hchars rfl hsame⟩,
      changeDirectoryDelimiter_twice newDelimiter hrange⟩

/-- `a/b\`, with both kinds of delimiters, one of them at the end. -/
def relativePath : FixedString maxPath :=
  copied (zeroed maxPath) [0x61, forwardSlash, 0x62, backSlash]

theorem changesAllDelimiters_iff_relativePath : ChangesAllDelimiters forwardSlash relativePath := by
  have hvalid : relativePath.Valid := ⟨by decide, by decide⟩
  exact (changesAllDelimiters_iff hvalid).mpr (by decide)

/-- `/a/b` -/
def rootedPath : FixedString maxPath :=
  copied (zeroed maxPath) [forwardSlash, 0x61, forwardSlash, 0x62]

/-- The delimiter at the start of the path stays. -/
theorem rootedPath_keeps_first_delimiter :
    rootedPath.Valid ∧
      (∃ out, changeDirectoryDelimiter (some rootedPath) backSlash = .ok (some out) ∧
        out.text = [forwardSlash, 0x61, backSlash, 0x62]) ∧
      ¬ ChangesAllDelimiters backSlash rootedPath := by
  have hvalid : rootedPath.Valid := ⟨by decide, by decide⟩
  have hzero : 0 ∉ replaceTail IsSeparator backSlash rootedPath.text := by decide
  obtain ⟨out, hout, -, htext⟩ := changeDirectoryDelimiter_text hvalid hzero
  refine ⟨hvalid, ⟨out, hout, htext⟩, fun h => ?_⟩
  obtain ⟨out', hout', hchanged⟩ := h.once
  rw [hout] at hout'
  cases hout'
  have hall := (hchanged.text (by decide)).2
  rw [htext] at hall
  revert hall
  decide

end PathUtil

end DDFramework
