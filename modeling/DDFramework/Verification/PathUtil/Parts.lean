import DDFramework.Library.LastIndex
import DDFramework.Model.PathUtil
import DDFramework.Verification.FixedString.Calls

/-! # The span of a path that each function copies

All the functions copy the characters between two offsets, which they find from the last
delimiters. The recorded length is the difference of the offsets as a `u32`. -/

namespace DDFramework

open FixedString

/-! ### Sources in memory -/

/-- Reading an array. -/
def listSource (chars : List CChar) : Source := fun i =>
  match chars[i]? with
  | some c => .ok c
  | none => .error .outOfBounds

theorem listSource_of_lt {chars : List CChar} {i : ℕ} (h : i < chars.length) :
    listSource chars i = .ok chars[i] := by
  simp [listSource, h]

theorem listSource_of_le {chars : List CChar} {i : ℕ} (h : chars.length ≤ i) :
    listSource chars i = .error .outOfBounds := by
  simp [listSource, h]

theorem CString.read_eq (string : CString) : string.read = listSource (string.val ++ [0]) := by
  funext i
  rcases Nat.lt_trichotomy i string.val.length with h | h | h
  · simp [CString.read, listSource, h, Nat.ne_of_lt h, List.getElem?_append_left]
  · simp [CString.read, listSource, h]
  · have hlong : (string.val ++ [0]).length ≤ i := by simpa using Nat.succ_le_of_lt h
    rw [listSource_of_le hlong, CString.read, if_neg (Nat.ne_of_gt h),
      List.getElem?_eq_none (Nat.le_of_lt h)]

namespace Path

/-- The memory that the path lies in. -/
def chars : Path → List CChar
  | .string _ text => text.val ++ [0]
  | .fixedString path => path.stringArray

/-- The number of characters that the functions take the path to have. -/
def seen : Path → ℕ
  | .string isConstantEvaluated text =>
    if isConstantEvaluated then min (maxPath.val + 1) text.val.length
    else text.val.length % 2 ^ 32
  | .fixedString path => path.length.toNat

theorem read_eq (path : Path) : path.read = listSource path.chars := by
  cases path with
  | string isConstantEvaluated text => exact text.read_eq
  | fixedString path => rfl

theorem pathLen_eq (path : Path) : path.pathLen = .ok (BitVec.ofNat 32 path.seen) := by
  cases path with
  | string isConstantEvaluated text =>
      cases isConstantEvaluated with
      | true =>
          rw [pathLen, if_pos rfl, text.terminated.tStringLength_eq, ok_bind]
          rfl
      | false =>
          rw [pathLen, if_neg Bool.false_ne_true, seen, if_neg Bool.false_ne_true]
          exact congrArg Except.ok (BitVec.eq_of_toNat_eq (by simp))
  | fixedString path => simp [pathLen, seen]

theorem seen_lt_word (path : Path) : path.seen < 2 ^ 32 := by
  cases path with
  | string isConstantEvaluated text =>
      cases isConstantEvaluated with
      | true =>
          have hmin := Nat.min_le_left (maxPath.val + 1) text.val.length
          have hmax : maxPath.val = 256 := rfl
          simp only [seen, if_pos]
          omega
      | false => exact Nat.mod_lt _ (by decide)
  | fixedString path => exact path.length.isLt

/-- A `FixedString` path is shorter than its array. -/
def InRange : Path → Prop
  | .string _ _ => True
  | .fixedString path => path.length.toNat < maxPath.val

theorem InRange.seen_lt {path : Path} (h : path.InRange) : path.seen < path.chars.length := by
  cases path with
  | string isConstantEvaluated text =>
      rw [chars, List.length_append, List.length_singleton, Nat.lt_succ_iff]
      cases isConstantEvaluated with
      | true => exact Nat.min_le_right _ _
      | false => exact Nat.mod_le _ _
  | fixedString path =>
      rw [chars, path.stringArray_length]
      exact h

end Path

namespace PathUtil

variable {size : BufferSize} {chars : List CChar} {n : ℕ}

/-- `\` and `/`. -/
def IsSeparator (c : CChar) : Prop := c = backSlash ∨ c = forwardSlash

instance (c : CChar) : Decidable (IsSeparator c) := inferInstanceAs (Decidable (_ ∨ _))

/-! ### Delimiters -/

theorem scanBack_eq (c : CChar) (h : n < chars.length) :
    scanBack c (listSource chars) n = .ok (lastIndex (· = c) chars n) := by
  induction n with
  | zero => rfl
  | succ n ih =>
      have hat : HasAt (· = c) chars (n + 1) ↔ chars[n + 1] = c := by simp [HasAt, h]
      rw [scanBack, listSource_of_lt h, ok_bind, lastIndex]
      simp only [hat]
      split
      · rfl
      · exact ih (Nat.lt_of_succ_lt h)

theorem lastIndex_isSeparator : lastIndex IsSeparator chars n =
    if lastIndex (· = forwardSlash) chars n < lastIndex (· = backSlash) chars n then
      lastIndex (· = backSlash) chars n
    else lastIndex (· = forwardSlash) chars n := by
  refine lastIndex_or.trans ?_
  split
  · exact Nat.max_eq_left (Nat.le_of_lt ‹_›)
  · exact Nat.max_eq_right (Nat.le_of_not_lt ‹_›)

variable {pathLen : BitVec 32}

theorem findDriveDelimiter_eq (h : pathLen.toNat < chars.length) :
    findDriveDelimiter (listSource chars) pathLen =
      .ok (BitVec.ofNat 32 (lastIndex (· = colon) chars pathLen.toNat)) := by
  rw [findDriveDelimiter, scanBack_eq _ h, ok_bind]

theorem findDirectoryDelimiter_eq (h : pathLen.toNat < chars.length) :
    findDirectoryDelimiter (listSource chars) pathLen =
      .ok (BitVec.ofNat 32 (lastIndex IsSeparator chars pathLen.toNat)) := by
  rw [findDirectoryDelimiter, scanBack_eq _ h, ok_bind, scanBack_eq _ h, ok_bind,
    lastIndex_isSeparator]

theorem findExtensionDelimiter_eq (h : pathLen.toNat < chars.length) :
    findExtensionDelimiter (listSource chars) pathLen =
      .ok (BitVec.ofNat 32 (lastIndex (· = forwardSlash) chars pathLen.toNat)) := by
  rw [findExtensionDelimiter, scanBack_eq _ h, ok_bind]

/-! ### Copies -/

theorem memcpyFrom_eq {offset i : ℕ} (out : FixedString size)
    (h : offset + i + n ≤ chars.length) :
    memcpyFrom (listSource chars) offset n i out =
      writeAll i ((chars.drop (offset + i)).take n) out := by
  induction n generalizing i out with
  | zero => simp [memcpyFrom, writeAll]
  | succ n ih =>
      have hlt : offset + i < chars.length := by omega
      rw [memcpyFrom, listSource_of_lt hlt, ok_bind, List.drop_eq_getElem_cons hlt,
        List.take_succ_cons, writeAll]
      congr 1
      funext t
      exact ih t (by omega)

section Spans

variable {start stop : ℕ}

/-- The characters from `start` to `stop`. -/
def span (chars : List CChar) (start stop : ℕ) : List CChar := (chars.take stop).drop start

theorem length_span (hstop : stop ≤ chars.length) :
    (span chars start stop).length = stop - start := by
  rw [span, List.length_drop, List.length_take, Nat.min_eq_left hstop]

theorem toNat_sub_ofNat (hstart : start ≤ stop) (hword : stop < 2 ^ 32) :
    (BitVec.ofNat 32 stop - BitVec.ofNat 32 start).toNat = stop - start := by
  rw [BitVec.toNat_sub, BitVec.toNat_ofNat, BitVec.toNat_ofNat]
  omega

/-- The string after a part of a path has been copied into it. -/
def copied (out : FixedString size) (block : List CChar) : FixedString size :=
  ((out.overwritten 0 (block.take (size.val - 1))
    (Nat.le_of_lt (zero_add_length_take_lt block))).setLength
      (BitVec.ofNat 32 block.length)).assureTermination

/-- What a function copies when its offsets are in order. -/
theorem copyPart_eq (out : FixedString size) (hstart : start ≤ stop)
    (hstop : stop ≤ chars.length) (hword : stop < 2 ^ 32) :
    copyPart out (listSource chars) (BitVec.ofNat 32 start)
      (BitVec.ofNat 32 stop - BitVec.ofNat 32 start) =
      .ok (copied out (span chars start stop)) := by
  have hsize := size.property.1
  have hlength : (span chars start stop).length = stop - start := length_span hstop
  have hoffset : (BitVec.ofNat 32 start).toNat = start := by
    rw [BitVec.toNat_ofNat]
    omega
  have hcount : (if stop - start < size.val then stop - start else size.val - 1) =
      min (stop - start) (size.val - 1) := by
    split
    · omega
    · omega
  have hblock : (chars.drop (start + 0)).take (min (stop - start) (size.val - 1)) =
      (span chars start stop).take (size.val - 1) := by
    rw [Nat.add_zero, span, List.drop_take, List.take_take, Nat.min_comm]
  have hlength' : BitVec.ofNat 32 stop - BitVec.ofNat 32 start =
      BitVec.ofNat 32 (span chars start stop).length := by
    refine BitVec.eq_of_toNat_eq ?_
    rw [toNat_sub_ofNat hstart hword, hlength, BitVec.toNat_ofNat]
    omega
  simp only [copyPart, toNat_sub_ofNat hstart hword, hcount, hoffset]
  rw [memcpyFrom_eq out (by omega), hblock,
    writeAll_of_le out (Nat.le_of_lt (zero_add_length_take_lt _)), ok_bind, hlength', copied]

end Spans

theorem copied_of_lt (out : FixedString size) {block : List CChar} (h : block.length < size.val) :
    copied out block = out.stored 0 block (by rwa [Nat.zero_add]) := by
  have htake : block.take (size.val - 1) = block := List.take_of_length_le (by omega)
  simp only [copied, htake, stored, Nat.zero_add]

theorem copied_length (out : FixedString size) {block : List CChar} (h : block.length < 2 ^ 32) :
    (copied out block).length.toNat = block.length := by
  change (BitVec.ofNat 32 block.length).toNat = block.length
  rw [BitVec.toNat_ofNat]
  exact Nat.mod_eq_of_lt h

/-- A part that fits is the whole C string if a zero follows it. -/
theorem copied_text_iff (out : FixedString size) {block : List CChar}
    (h : block.length < size.val) (hzero : 0 ∉ block) :
    (copied out block).text = block ↔ out.EndsAt block.length := by
  rw [copied_of_lt out h]
  have hlt : ([] : List CChar).length + block.length < size.val := by simpa using h
  simpa using stored_text_iff (s := out) List.nil_prefix (by simpa using hzero) hlt

/-- The copied part is at the start of the array. -/
theorem prefix_copied (out : FixedString size) (block : List CChar) :
    block.take (size.val - 1) <+: (copied out block).stringArray := by
  have hlength := out.stringArray_length
  have hle : ([] : List CChar).length + (block.take (size.val - 1)).length ≤ size.val := by
    rw [List.length_take]
    simp only [List.length_nil]
    omega
  have hprefix := @prefix_overwritten _ out [] _ List.nil_prefix hle
  rw [List.nil_append, List.prefix_iff_eq_take] at hprefix
  rw [List.prefix_iff_eq_take]
  have htake : (block.take (size.val - 1)).length ≤ size.val - 1 := List.length_take_le _ _
  exact hprefix.trans (List.take_set_of_le htake).symm

/-- The result is valid exactly when the part has no zero and fits with the zero after it. -/
theorem copied_valid_iff (out : FixedString size) {block : List CChar}
    (hword : block.length < 2 ^ 32) :
    (copied out block).Valid ↔
      block.length < size.val ∧ 0 ∉ block ∧ out.EndsAt block.length := by
  constructor
  · intro hvalid
    have hlength : block.length = (copied out block).text.length :=
      (copied_length out hword).symm.trans hvalid.length_eq
    have hlt : block.length < size.val := hlength ▸ hvalid.length_lt
    have hprefix := prefix_copied out block
    rw [List.take_of_length_le (by omega)] at hprefix
    have hstart : block <+: (copied out block).text := by
      have htext := text_prefix (copied out block)
      exact List.prefix_of_prefix_length_le hprefix htext (Nat.le_of_eq hlength)
    have htext : (copied out block).text = block := (hstart.eq_of_length hlength).symm
    have hzero : 0 ∉ block := htext ▸ zero_notMem_text _
    exact ⟨hlt, hzero, (copied_text_iff out hlt hzero).mp htext⟩
  · rintro ⟨hlt, hzero, hends⟩
    have htext := (copied_text_iff out hlt hzero).mpr hends
    refine ⟨by rwa [htext], ?_⟩
    rw [htext]
    exact copied_length out hword

/-! ### The functions -/

inductive Getter where
  | drive
  | pathWithoutDrive
  | directory
  | directoryWithoutDrive
  | fileName
  | fileNameNoExtension
  | extension

namespace Getter

abbrev outSize : Getter → BufferSize
  | .drive => maxDrive
  | _ => maxPath

def body : (g : Getter) → FixedString g.outSize → Source → BitVec 32 →
    Except Fault (FixedString g.outSize)
  | .drive => driveFromPath
  | .pathWithoutDrive => PathUtil.pathWithoutDrive
  | .directory => PathUtil.directory
  | .directoryWithoutDrive => PathUtil.directoryWithoutDrive
  | .fileName => fileNameFromPath
  | .fileNameNoExtension => fileNameFromPathNoExtension
  | .extension => extensionFromPath

def call : (g : Getter) → Option (FixedString g.outSize) → Option Path →
    Except Fault (Option (FixedString g.outSize))
  | .drive => getDriveFromPath
  | .pathWithoutDrive => getPathWithoutDrive
  | .directory => getDirectory
  | .directoryWithoutDrive => getDirectoryWithoutDrive
  | .fileName => getFileNameFromPath
  | .fileNameNoExtension => getFileNameFromPathNoExtension
  | .extension => getExtensionFromPath

/-- Where the copied characters start in a path of `n` characters. -/
def start (chars : List CChar) (n : ℕ) : Getter → ℕ
  | .drive | .directory | .extension => 0
  | .pathWithoutDrive | .directoryWithoutDrive => lastIndex (· = colon) chars n
  | .fileName | .fileNameNoExtension => lastIndex IsSeparator chars n

/-- Where they end, if that is not before the start. -/
def stop (chars : List CChar) (n : ℕ) : Getter → ℕ
  | .drive => lastIndex (· = colon) chars n
  | .directory | .extension => lastIndex IsSeparator chars n
  | .directoryWithoutDrive => 0
  | .pathWithoutDrive | .fileName => n
  | .fileNameNoExtension => n - lastIndex (· = forwardSlash) chars n

theorem stop_le (g : Getter) (chars : List CChar) (n : ℕ) : g.stop chars n ≤ n := by
  cases g with
  | drive | directory | extension => exact lastIndex_le
  | directoryWithoutDrive => exact Nat.zero_le n
  | pathWithoutDrive | fileName => exact Nat.le_refl n
  | fileNameNoExtension => exact Nat.sub_le n _

theorem body_eq (g : Getter) (out : FixedString g.outSize) {n : ℕ} (h : n < chars.length)
    (hword : n < 2 ^ 32) :
    g.body out (listSource chars) (BitVec.ofNat 32 n) =
      copyPart out (listSource chars) (BitVec.ofNat 32 (g.start chars n))
        (BitVec.ofNat 32 (g.stop chars n) - BitVec.ofNat 32 (g.start chars n)) := by
  have hn : (BitVec.ofNat 32 n).toNat = n := by
    rw [BitVec.toNat_ofNat]
    exact Nat.mod_eq_of_lt hword
  have hlt : (BitVec.ofNat 32 n).toNat < chars.length := hn.symm ▸ h
  have hdrive := findDriveDelimiter_eq hlt
  have hdirectory := findDirectoryDelimiter_eq hlt
  have hextension := findExtensionDelimiter_eq hlt
  rw [hn] at hdrive hdirectory hextension
  cases g with
  | drive => simp [body, driveFromPath, hdrive, start, stop]
  | pathWithoutDrive => simp [body, PathUtil.pathWithoutDrive, hdrive, start, stop]
  | directory => simp [body, PathUtil.directory, hdirectory, start, stop]
  | directoryWithoutDrive =>
      have hcancel : ∀ a b : BitVec 32, a - b - a = 0#32 - b := by
        intro a b
        refine BitVec.eq_of_toNat_eq ?_
        simp only [BitVec.toNat_sub, BitVec.toNat_ofNat]
        omega
      simp [body, PathUtil.directoryWithoutDrive, hdrive, hdirectory, start, stop, hcancel]
  | fileName => simp [body, fileNameFromPath, hdirectory, start, stop]
  | fileNameNoExtension =>
      have hle : lastIndex (· = forwardSlash) chars n ≤ n := lastIndex_le
      have hswap : ∀ a b : ℕ, a ≤ n →
          BitVec.ofNat 32 n - BitVec.ofNat 32 b - BitVec.ofNat 32 a =
            BitVec.ofNat 32 (n - a) - BitVec.ofNat 32 b := by
        intro a b ha
        refine BitVec.eq_of_toNat_eq ?_
        simp only [BitVec.toNat_sub, BitVec.toNat_ofNat]
        omega
      simp only [body, fileNameFromPathNoExtension, hextension, hdirectory, ok_bind, start, stop,
        hswap _ _ hle]
  | extension => simp [body, extensionFromPath, hdirectory, start, stop]

theorem call_eq (g : Getter) (out : FixedString g.outSize) (path : Path) :
    g.call (some out) (some path) =
      if path.seen = 0 then .ok (some out)
      else (g.body out (listSource path.chars) (BitVec.ofNat 32 path.seen)).map some := by
  have hzero : BitVec.ofNat 32 path.seen = 0 ↔ path.seen = 0 := by
    have hword := path.seen_lt_word
    rw [← BitVec.toNat_inj, BitVec.toNat_ofNat, Nat.mod_eq_of_lt hword]
    rfl
  have hcall : g.call (some out) (some path) = withPath (some out) (some path) g.body := by
    cases g <;> rfl
  rw [hcall, withPath]
  simp only [path.pathLen_eq, path.read_eq, ok_bind, hzero]
  split
  · rfl
  · exact bind_ok_eq_map _ _

/-- A function whose offsets are in order copies what is between them. -/
theorem call_of_le (g : Getter) (out : FixedString g.outSize) {path : Path} (hrange : path.InRange)
    (hseen : path.seen ≠ 0)
    (hle : g.start path.chars path.seen ≤ g.stop path.chars path.seen) :
    g.call (some out) (some path) = .ok (some (copied out
      (span path.chars (g.start path.chars path.seen) (g.stop path.chars path.seen)))) := by
  have hstop := g.stop_le path.chars path.seen
  have hlt := hrange.seen_lt
  have hword := path.seen_lt_word
  rw [call_eq, if_neg hseen, g.body_eq out hlt hword,
    copyPart_eq out hle (by omega) (by omega)]
  rfl

end Getter

end PathUtil

end DDFramework
