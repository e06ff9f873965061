import DDFramework.Verification.PathUtil.Parts

/-! # Splitting a path

The two parts at a delimiter give the whole path. The delimiter is at the start of the second
part. -/

namespace DDFramework

open FixedString

namespace Path

/-- The path is a C string, or a `FixedString` that holds one. -/
def HasText : Path → List CChar → Prop
  | .string _ content, text => content.val = text
  | .fixedString path, text => path.Valid ∧ path.text = text

variable {path : Path} {text : List CChar}

theorem HasText.zero_notMem (h : path.HasText text) : 0 ∉ text := by
  cases path with
  | string isConstantEvaluated content => exact (show content.val = text from h) ▸ content.property
  | fixedString path => exact h.2 ▸ path.zero_notMem_text

theorem HasText.exists_rest (h : path.HasText text) : ∃ rest, path.chars = text ++ 0 :: rest := by
  cases path with
  | string isConstantEvaluated content =>
      cases h
      exact ⟨[], rfl⟩
  | fixedString path =>
      obtain ⟨hvalid, rfl⟩ := h
      exact hvalid.exists_rest

theorem HasText.seen_eq (h : path.HasText text) (hlength : text.length < maxPath.val) :
    path.seen = text.length := by
  have hmax : maxPath.val = 256 := rfl
  cases path with
  | string isConstantEvaluated content =>
      cases h
      cases isConstantEvaluated with
      | true => exact Nat.min_eq_right (by omega)
      | false => exact Nat.mod_eq_of_lt (by omega)
  | fixedString path => exact h.2 ▸ h.1.length_eq

theorem HasText.seen_le (h : path.HasText text) : path.seen ≤ text.length := by
  cases path with
  | string isConstantEvaluated content =>
      cases h
      cases isConstantEvaluated with
      | true => exact Nat.min_le_right _ _
      | false => exact Nat.mod_le _ _
  | fixedString path => exact (h.2 ▸ h.1.length_eq).le

theorem HasText.inRange (h : path.HasText text) : path.InRange := by
  cases path with
  | string isConstantEvaluated content => trivial
  | fixedString path =>
      rw [InRange, h.1.length_eq]
      exact h.1.length_lt

/-- The last delimiter of the path is the one of its text. -/
theorem HasText.lastIndex_eq (h : path.HasText text) {P : CChar → Prop} [DecidablePred P]
    (hP : ¬ P 0) : lastIndex P path.chars path.seen = lastIndex P text path.seen := by
  obtain ⟨rest, hrest⟩ := h.exists_rest
  rw [hrest]
  exact lastIndex_append_cons hP h.seen_le

end Path

namespace PathUtil

variable {path : Path} {text : List CChar}

/-! ### Delimiters in the text -/

theorem colon_ne_zero : ¬ (0 : CChar) = colon := by decide

theorem not_isSeparator_zero : ¬ IsSeparator 0 := by decide

theorem forwardSlash_ne_zero : ¬ (0 : CChar) = forwardSlash := by decide

theorem endsAt_zeroed {size : BufferSize} {n : ℕ} (h : n < size.val) : (zeroed size).EndsAt n := by
  refine Or.inr ?_
  simp [zeroed, h]

theorem zeroed_text {size : BufferSize} : (zeroed size).text = [] := by
  simp [FixedString.text, zeroed, cString]

theorem zeroed_valid {size : BufferSize} : (zeroed size).Valid where
  length_lt := zeroed_text ▸ size.property.1
  length_eq := zeroed_text ▸ rfl

/-- In a string that was zero before, the copied part is the C string as far as it fits. -/
theorem text_copied_zeroed {size : BufferSize} {block : List CChar} (hzero : 0 ∉ block) :
    (copied (zeroed size) block).text = block.take (size.val - 1) := by
  have hlt : 0 + (block.take (size.val - 1)).length < size.val := zero_add_length_take_lt block
  have hstart := @prefix_overwritten _ (zeroed size) [] _ List.nil_prefix (Nat.le_of_lt hlt)
  rw [Nat.zero_add] at hlt
  have hends := endsAt_zeroed hlt
  have hkept : (overwrite (zeroed size).stringArray 0
      (block.take (size.val - 1)))[(block.take (size.val - 1)).length]? =
        (zeroed size).stringArray[(block.take (size.val - 1)).length]? :=
    getElem?_overwrite_of_le (by rw [stringArray_length]; omega) (Nat.zero_add _).le
  rw [EndsAt, ← hkept] at hends
  exact (text_assureTermination_iff (fun hm => hzero (List.mem_of_mem_take hm)) hstart hlt).mpr
    hends

/-- What a function returns in a string that was zero before. -/
theorem Getter.call_zeroed (g : Getter) (htext : path.HasText text)
    (hle : g.start path.chars path.seen ≤ g.stop path.chars path.seen) :
    ∃ out, g.call (some (zeroed g.outSize)) (some path) = .ok (some out) ∧
      out.text = (span text (g.start path.chars path.seen) (g.stop path.chars path.seen)).take
        (g.outSize.val - 1) ∧
      (g.stop path.chars path.seen - g.start path.chars path.seen < g.outSize.val →
        out.Valid) := by
  have hstop := g.stop_le path.chars path.seen
  have hseen := htext.seen_le
  have hword := path.seen_lt_word
  by_cases hempty : path.seen = 0
  · refine ⟨zeroed g.outSize, by rw [call_eq, if_pos hempty], ?_, fun _ => zeroed_valid⟩
    have hzero : g.stop path.chars path.seen = 0 := Nat.le_zero.mp (hempty ▸ hstop)
    rw [zeroed_text, span, hzero, List.take_zero, List.drop_nil, List.take_nil]
  · have hcall := g.call_of_le (zeroed g.outSize) htext.inRange hempty hle
    generalize g.start path.chars path.seen = start at hle hcall ⊢
    generalize g.stop path.chars path.seen = stop at hle hcall hstop ⊢
    obtain ⟨rest, hrest⟩ := htext.exists_rest
    have hspan : span path.chars start stop = span text start stop := by
      rw [span, hrest, List.take_append_of_le_length (by omega), span]
    have hblock : (span text start stop).length = stop - start := length_span (by omega)
    have hzero : 0 ∉ span text start stop :=
      fun hm => htext.zero_notMem (List.mem_of_mem_take (List.mem_of_mem_drop hm))
    rw [hspan] at hcall
    refine ⟨_, hcall, text_copied_zeroed hzero, fun hfits => ?_⟩
    rw [← hblock] at hfits
    exact (copied_valid_iff _ (by omega)).mpr ⟨hfits, hzero, endsAt_zeroed hfits⟩

/-- A function that copies what follows the last delimiter, with the delimiter. -/
theorem Getter.call_back {P : CChar → Prop} [DecidablePred P] (hP : ¬ P 0) (g : Getter)
    (hstart : ∀ chars n, g.start chars n = lastIndex P chars n)
    (hstop : ∀ chars n, g.stop chars n = n) (htext : path.HasText text) :
    ∃ out, g.call (some (zeroed g.outSize)) (some path) = .ok (some out) ∧
      out.text = ((text.take path.seen).drop (lastIndex P text path.seen)).take
        (g.outSize.val - 1) ∧
      (path.seen < g.outSize.val → out.Valid) := by
  obtain ⟨out, hcall, hout, hvalid⟩ := g.call_zeroed htext
    (by rw [hstart, hstop]; exact lastIndex_le)
  rw [hstart, hstop, htext.lastIndex_eq hP] at hout hvalid
  exact ⟨out, hcall, hout, fun hlt => hvalid (by omega)⟩

/-- The strings hold the text before and after its last delimiter, with their lengths. -/
structure Splits (P : CChar → Prop) (text : List CChar) {size size' : BufferSize}
    (front : FixedString size) (back : FixedString size') : Prop where
  cut : ∃ i, CutAt P text i ∧ front.text = text.take i ∧ back.text = text.drop i
  concat : front.text ++ back.text = text
  front_valid : front.Valid
  back_valid : back.Valid

/-- A function that copies what is before the last delimiter, and one that copies the rest. -/
theorem Getter.splits {P : CChar → Prop} [DecidablePred P] (hP : ¬ P 0) (g g' : Getter)
    (hstart : ∀ chars n, g.start chars n = 0)
    (hstop : ∀ chars n, g.stop chars n = lastIndex P chars n)
    (hstart' : ∀ chars n, g'.start chars n = lastIndex P chars n)
    (hstop' : ∀ chars n, g'.stop chars n = n) (htext : path.HasText text)
    (hlength : text.length < maxPath.val) (hfits : lastIndex P text text.length < g.outSize.val)
    (hfits' : text.length < g'.outSize.val) :
    ∃ front back, g.call (some (zeroed g.outSize)) (some path) = .ok (some front) ∧
      g'.call (some (zeroed g'.outSize)) (some path) = .ok (some back) ∧
      Splits P text front back := by
  have hlast := htext.lastIndex_eq hP
  obtain ⟨front, hfront, htake, hvalid⟩ := g.call_zeroed htext
    (by rw [hstart]; exact Nat.zero_le _)
  obtain ⟨back, hback, hdrop, hvalid'⟩ := g'.call_back hP hstart' hstop' htext
  rw [hstart, hstop, hlast, htext.seen_eq hlength] at htake hvalid
  rw [htext.seen_eq hlength] at hdrop hvalid'
  rw [span, List.drop_zero, List.take_take, Nat.min_eq_right (by omega)] at htake
  rw [List.take_length, List.take_of_length_le (by rw [List.length_drop]; omega)] at hdrop
  refine ⟨front, back, hfront, hback, ?_, ?_, hvalid (by omega), hvalid' (by omega)⟩
  · exact ⟨lastIndex P text text.length, lastIndex_cutAt (Nat.le_succ _), htake, hdrop⟩
  · rw [htake, hdrop, List.take_append_drop]

/-- Splitting a path loses nothing: the drive and the rest, and the directory and the file name,
are the path cut at its last delimiter. -/
theorem split_parts (htext : path.HasText text) (hlength : text.length ≤ 255)
    (hdrive : ∀ i, HasAt (· = colon) text i → i < 32) :
    (∃ drive rest, getDriveFromPath (some (zeroed maxDrive)) (some path) = .ok (some drive) ∧
      getPathWithoutDrive (some (zeroed maxPath)) (some path) = .ok (some rest) ∧
      Splits (· = colon) text drive rest) ∧
    ∃ directory name, getDirectory (some (zeroed maxPath)) (some path) = .ok (some directory) ∧
      getFileNameFromPath (some (zeroed maxPath)) (some path) = .ok (some name) ∧
      Splits IsSeparator text directory name := by
  have hmax : text.length < maxPath.val := Nat.lt_succ_of_le hlength
  have hcolon : lastIndex (· = colon) text text.length < maxDrive.val := by
    rcases Nat.eq_zero_or_pos (lastIndex (· = colon) text text.length) with h | h
    · rw [h]
      decide
    · exact hdrive _ (hasAt_lastIndex (Nat.ne_of_gt h))
  have hseparator : lastIndex IsSeparator text text.length < maxPath.val :=
    lt_of_le_of_lt lastIndex_le hmax
  constructor
  · exact Getter.splits colon_ne_zero .drive .pathWithoutDrive
      (fun _ _ => rfl) (fun _ _ => rfl) (fun _ _ => rfl) (fun _ _ => rfl) htext hmax hcolon hmax
  · exact Getter.splits not_isSeparator_zero .directory .fileName
      (fun _ _ => rfl) (fun _ _ => rfl) (fun _ _ => rfl) (fun _ _ => rfl) htext hmax hseparator hmax

/-- `c:/a`, with both kinds of delimiters next to each other. -/
def driveText : CString := ⟨[0x63, colon, forwardSlash, 0x61], by decide⟩

def drivePath : Path := .string false driveText

theorem split_parts_drivePath :
    (∃ drive rest, getDriveFromPath (some (zeroed maxDrive)) (some drivePath) = .ok (some drive) ∧
      getPathWithoutDrive (some (zeroed maxPath)) (some drivePath) = .ok (some rest) ∧
      Splits (· = colon) [0x63, colon, forwardSlash, 0x61] drive rest) ∧
    ∃ directory name,
      getDirectory (some (zeroed maxPath)) (some drivePath) = .ok (some directory) ∧
      getFileNameFromPath (some (zeroed maxPath)) (some drivePath) = .ok (some name) ∧
      Splits IsSeparator [0x63, colon, forwardSlash, 0x61] directory name :=
  split_parts rfl (by decide) fun _ h => Nat.lt_trans h.lt (by decide)

end PathUtil

end DDFramework
