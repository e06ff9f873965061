import DDFramework.Verification.PathUtil.Splitting

/-! # When the calls stay in bounds

The copies are clamped to the output, so what can go wrong is a size that wraps and a recorded
length that is not the length of the string. -/

namespace DDFramework

open FixedString

namespace Path

/-- The characters of the path and its terminator. -/
def own : Path → List CChar
  | .string _ text => text.val ++ [0]
  | .fixedString path => path.stringArray.take (path.length.toNat + 1)

theorem own_prefix (path : Path) : path.own <+: path.chars := by
  cases path with
  | string isConstantEvaluated text => exact List.prefix_refl _
  | fixedString path => exact List.take_prefix _ _

theorem InRange.seen_lt_own {path : Path} (h : path.InRange) : path.seen < path.own.length := by
  cases path with
  | string isConstantEvaluated text => exact h.seen_lt
  | fixedString path =>
      have hlt : path.length.toNat < maxPath.val := h
      rw [own, List.length_take, path.stringArray_length, seen]
      omega

end Path

namespace PathUtil

variable {chars own : List CChar} {n : ℕ}

theorem lastIndex_of_prefix {P : CChar → Prop} [DecidablePred P] (h : own <+: chars)
    (hn : n < own.length) : lastIndex P own n = lastIndex P chars n := by
  obtain ⟨rest, rfl⟩ := h
  refine lastIndex_congr fun i _ hi => ?_
  rw [HasAt, HasAt, List.getElem?_append_left (by omega)]

namespace Getter

/-- The subtractions of the function, the way it nests them. -/
def subtractions (chars : List CChar) (n : ℕ) : Getter → List (ℕ × ℕ)
  | .drive | .directory | .extension => []
  | .pathWithoutDrive => [(n, lastIndex (· = colon) chars n)]
  | .directoryWithoutDrive =>
    [(lastIndex IsSeparator chars n, lastIndex (· = colon) chars n),
      (lastIndex IsSeparator chars n - lastIndex (· = colon) chars n,
        lastIndex IsSeparator chars n)]
  | .fileName => [(n, lastIndex IsSeparator chars n)]
  | .fileNameNoExtension =>
    [(n, lastIndex IsSeparator chars n),
      (n - lastIndex IsSeparator chars n, lastIndex (· = forwardSlash) chars n)]

/-- A size does not wrap exactly when the offsets are in order. -/
theorem subtractions_le_iff (g : Getter) : (∀ s ∈ g.subtractions chars n, s.2 ≤ s.1) ↔
    g.start chars n ≤ g.stop chars n := by
  have hslash : lastIndex (· = forwardSlash) chars n ≤ n := lastIndex_le
  cases g with
  | drive | directory | extension => simp [subtractions, start, stop]
  | pathWithoutDrive => simp [subtractions, start, stop]
  | directoryWithoutDrive =>
      simp only [subtractions, start, stop, List.forall_mem_cons, List.not_mem_nil, false_imp_iff,
        implies_true, and_true]
      omega
  | fileName => simp [subtractions, start, stop]
  | fileNameNoExtension =>
      simp only [subtractions, start, stop, List.forall_mem_cons, List.not_mem_nil, false_imp_iff,
        implies_true, and_true]
      omega

/-- Both offsets depend on the characters up to the terminator only. -/
theorem body_own (g : Getter) (out : FixedString g.outSize) {path : Path} (hrange : path.InRange)
    (hle : g.start path.chars path.seen ≤ g.stop path.chars path.seen) :
    ∃ out', g.body out (listSource path.own) (BitVec.ofNat 32 path.seen) = .ok out' := by
  have hword := path.seen_lt_word
  have hbelow := g.stop_le path.chars path.seen
  have hown := hrange.seen_lt_own
  have hstart : g.start path.own path.seen = g.start path.chars path.seen := by
    cases g <;> simp only [start, lastIndex_of_prefix path.own_prefix hown]
  have hstop : g.stop path.own path.seen = g.stop path.chars path.seen := by
    cases g <;> simp only [stop, lastIndex_of_prefix path.own_prefix hown]
  rw [g.body_eq out hown hword, hstart, hstop, copyPart_eq out hle (by omega) (by omega)]
  exact ⟨_, rfl⟩

/-- What is copied of a path is a valid string if it fits as a text. -/
theorem copied_span_valid_iff {size : BufferSize} (out : FixedString size) {path : Path}
    (hrange : path.InRange) {start stop : ℕ} (hstop : stop ≤ path.seen) :
    (copied out (span path.chars start stop)).Valid ↔
      stop - start < size.val ∧ 0 ∉ span path.chars start stop ∧ out.EndsAt (stop - start) := by
  have hword := path.seen_lt_word
  have hlt := hrange.seen_lt
  have hlength : (span path.chars start stop).length = stop - start := length_span (by omega)
  rw [copied_valid_iff out (by omega), hlength]

/-- The call returns a string that is valid, has computed no size that wraps, and works as well
where nothing but the path and its terminator can be read. Writing outside of the output would
be a fault. -/
structure StaysInBounds (g : Getter) (out : FixedString g.outSize) (path : Path) : Prop where
  result : ∃ out', g.call (some out) (some path) = .ok (some out') ∧ out'.Valid
  sizes : path.seen ≠ 0 → ∀ s ∈ g.subtractions path.chars path.seen, s.2 ≤ s.1
  reads : path.seen ≠ 0 →
    ∃ out', g.body out (listSource path.own) (BitVec.ofNat 32 path.seen) = .ok out'

/-- An empty path leaves the output as it is. The part of another must have its ends in order,
leave room for a zero in the output, contain none, and have one after it in the output. -/
def Fits (g : Getter) (out : FixedString g.outSize) (path : Path) : Prop :=
  if path.seen = 0 then out.Valid
  else
    let start := g.start path.chars path.seen
    let stop := g.stop path.chars path.seen
    start ≤ stop ∧ stop - start < g.outSize.val ∧ 0 ∉ span path.chars start stop ∧
      out.EndsAt (stop - start)

theorem staysInBounds_iff (g : Getter) (out : FixedString g.outSize) {path : Path}
    (hrange : path.InRange) : g.StaysInBounds out path ↔ g.Fits out path := by
  by_cases hseen : path.seen = 0
  · have hcall : g.call (some out) (some path) = .ok (some out) := by rw [call_eq, if_pos hseen]
    rw [Fits, if_pos hseen]
    constructor
    · intro h
      obtain ⟨out', hout', hvalid⟩ := h.result
      rw [hcall] at hout'
      cases hout'
      exact hvalid
    · intro h
      exact ⟨⟨out, hcall, h⟩, fun hne => (hne hseen).elim, fun hne => (hne hseen).elim⟩
  · rw [Fits, if_neg hseen]
    refine Iff.trans ?_ (and_congr_right' (copied_span_valid_iff out hrange (g.stop_le _ _)))
    constructor
    · intro h
      have hle := g.subtractions_le_iff.mp (h.sizes hseen)
      obtain ⟨out', hout', hvalid'⟩ := h.result
      rw [g.call_of_le out hrange hseen hle] at hout'
      cases hout'
      exact ⟨hle, hvalid'⟩
    · rintro ⟨hle, hvalid'⟩
      exact ⟨⟨_, g.call_of_le out hrange hseen hle, hvalid'⟩,
        fun _ => g.subtractions_le_iff.mpr hle, fun _ => g.body_own out hrange hle⟩

theorem staysInBounds_iff_drivePath : drive.StaysInBounds (zeroed maxDrive) drivePath := by
  have hrange : drivePath.InRange := trivial
  refine (staysInBounds_iff drive (zeroed maxDrive) hrange).mpr ?_
  rw [Fits, if_neg (by decide)]
  exact ⟨by decide, by decide, by decide, endsAt_zeroed (by decide)⟩

/-- The size is the negated index of the colon, and the copy goes on after the path. -/
theorem directoryWithoutDrive_drivePath :
    getDirectoryWithoutDrive (some (zeroed maxPath)) (some drivePath) = .error .outOfBounds ∧
      ¬ directoryWithoutDrive.StaysInBounds (zeroed maxPath) drivePath := by
  refine ⟨rfl, fun h => ?_⟩
  have hsizes := h.sizes (by decide)
  revert hsizes
  decide

end Getter

end PathUtil

end DDFramework
