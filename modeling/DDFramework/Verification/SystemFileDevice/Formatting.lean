import DDFramework.Model.SystemFileDevice
import DDFramework.Verification.PathUtil.Delimiters

/-! # The paths that the devices format

A device puts its prefix before the path without its drive, which has been cut to the size of
its string and still has its delimiter. -/

namespace DDFramework

open FixedString PathUtil

/-! ### `FormatPath` -/

/-- The path from its last `:` on. -/
def withoutDrive : Option CString → List CChar
  | none => []
  | some path => path.val.drop (lastIndex (· = colon) path.val path.val.length)

/-- What the functions see of it, whose length is a `u32`. -/
def seenWithoutDrive : Option CString → List CChar
  | none => []
  | some path =>
    let n := path.val.length % 2 ^ 32
    (path.val.take n).drop (lastIndex (· = colon) path.val n)

theorem format_of_lt (s : FixedString maxPath) {expansion : CString}
    (h : expansion.val.length < 2 ^ 31) :
    ∃ s', s.format expansion = .ok (BitVec.ofNat 64 expansion.val.length, s') ∧
      s'.text = expansion.val.take (maxPath.val - 1) := by
  have hzero : 0 ∉ [] ++ expansion.val.take (maxPath.val - 1) := zero_notMem_take expansion _
  have htext := zeroEnded_assureTermination_text (s := s) List.nil_prefix hzero
    (zero_add_length_take_lt expansion.val) (BitVec.ofNat 32 expansion.val.length)
  have hlength : (BitVec.ofNat 32 expansion.val.length).setWidth 64 =
      BitVec.ofNat 64 expansion.val.length := by
    refine BitVec.eq_of_toNat_eq ?_
    simp only [BitVec.toNat_setWidth, BitVec.toNat_ofNat]
    omega
  refine ⟨_, ?_, htext⟩
  rw [format_eq, if_pos h]
  exact congrArg (fun length => Except.ok (length, _)) hlength

theorem getPathWithoutDrive_zeroed (path : Option CString) :
    ∃ out, getPathWithoutDrive (some (zeroed maxPath)) (path.map (Path.string false)) =
      .ok (some out) ∧ out.text = (seenWithoutDrive path).take (maxPath.val - 1) := by
  cases path with
  | none => exact ⟨zeroed maxPath, rfl, zeroed_text⟩
  | some path =>
      have htext : (Path.string false path).HasText path.val := rfl
      obtain ⟨out, hcall, hout, -⟩ := Getter.pathWithoutDrive.call_back colon_ne_zero
        (fun _ _ => rfl) (fun _ _ => rfl) htext
      exact ⟨out, hcall, hout⟩

theorem formatPathWith_eq {formatPrefix : CString} (h : formatPrefix.val.length < 2 ^ 30)
    (out : FixedString maxPath) (path : Option CString) :
    ∃ out', formatPathWith formatPrefix out path =
        .ok (if formatPrefix.val.length + min (maxPath.val - 1) (seenWithoutDrive path).length =
          maxPath.val then Res.resultPathTooLong else resultSuccess, out') ∧
      out'.text = (formatPrefix.val ++ (seenWithoutDrive path).take (maxPath.val - 1)).take
        (maxPath.val - 1) := by
  have hmax : maxPath.val = 256 := rfl
  obtain ⟨noDrive, hcall, hnoDrive⟩ := getPathWithoutDrive_zeroed path
  have hexpansion : (formatPrefix.append noDrive.getString).val =
      formatPrefix.val ++ (seenWithoutDrive path).take (maxPath.val - 1) :=
    congrArg (formatPrefix.val ++ ·) hnoDrive
  have hlength : (formatPrefix.append noDrive.getString).val.length =
      formatPrefix.val.length + min (maxPath.val - 1) (seenWithoutDrive path).length := by
    rw [hexpansion, List.length_append, List.length_take]
  obtain ⟨out', hformat, hout'⟩ := format_of_lt out (show
    (formatPrefix.append noDrive.getString).val.length < 2 ^ 31 by omega)
  rw [hexpansion] at hout'
  rw [hlength] at hformat
  have hword : BitVec.ofNat 64 (formatPrefix.val.length +
      min (maxPath.val - 1) (seenWithoutDrive path).length) = BitVec.ofNat 64 maxPath.val ↔
        formatPrefix.val.length + min (maxPath.val - 1) (seenWithoutDrive path).length =
          maxPath.val := by
    rw [← BitVec.toNat_inj, BitVec.toNat_ofNat, BitVec.toNat_ofNat]
    omega
  refine ⟨out', ?_, hout'⟩
  rw [formatPathWith, hcall, ok_bind]
  simp only [hformat, ok_bind, ne_eq, ite_not, hword]
  split <;> rfl

namespace FileDevice

def formatPrefix : FileDevice → CString
  | .content => contentPrefix
  | .save => savePrefix

theorem length_formatPrefix (device : FileDevice) :
    1 < device.formatPrefix.val.length ∧ device.formatPrefix.val.length < 9 := by
  cases device <;> decide

theorem formatPath_eq (device : FileDevice) (out : FixedString maxPath) (path : Option CString) :
    ∃ out', device.formatPath out path =
        .ok (if device.formatPrefix.val.length +
            min (maxPath.val - 1) (seenWithoutDrive path).length = maxPath.val then
          Res.resultPathTooLong else resultSuccess, out') ∧
      out'.text = device.formatPrefix.val ++
        (seenWithoutDrive path).take (maxPath.val - 1 - device.formatPrefix.val.length) := by
  have hmax : maxPath.val = 256 := rfl
  have hlength := device.length_formatPrefix
  have hformat : device.formatPath = formatPathWith device.formatPrefix := by cases device <;> rfl
  have hshort : device.formatPrefix.val.length < 2 ^ 30 := by omega
  obtain ⟨out', hcall, hout'⟩ := formatPathWith_eq hshort out path
  refine ⟨out', hformat ▸ hcall, ?_⟩
  rw [hout', List.take_append, List.take_of_length_le (by omega), List.take_take,
    Nat.min_eq_left (Nat.sub_le _ _)]

/-- The device succeeds with its prefix and the whole path without drive, or reports that they
do not fit. -/
def FormatsWhole (device : FileDevice) (out : FixedString maxPath) (path : Option CString) :
    Prop :=
  ∃ result out', device.formatPath out path = .ok (result, out') ∧
    (result = resultSuccess ∧
        device.formatPrefix.val.length + (withoutDrive path).length < maxPath.val ∧
        out'.text = device.formatPrefix.val ++ withoutDrive path ∨
      result = Res.resultPathTooLong)

theorem formatsWhole_iff_seen (device : FileDevice) (out : FixedString maxPath)
    (path : Option CString) : device.FormatsWhole out path ↔
      device.formatPrefix.val.length + (seenWithoutDrive path).length = maxPath.val ∨
        withoutDrive path =
          (seenWithoutDrive path).take (maxPath.val - 1 - device.formatPrefix.val.length) := by
  have hmax : maxPath.val = 256 := rfl
  have hlength := device.length_formatPrefix
  obtain ⟨out', hcall, hout'⟩ := device.formatPath_eq out path
  have hfull : device.formatPrefix.val.length + min (maxPath.val - 1)
      (seenWithoutDrive path).length = maxPath.val ↔
        device.formatPrefix.val.length + (seenWithoutDrive path).length = maxPath.val := by omega
  simp only [hfull] at hcall
  constructor
  · rintro ⟨result, out₁, hcall₁, hresult⟩
    rw [hcall, Except.ok.injEq, Prod.mk.injEq] at hcall₁
    obtain ⟨rfl, rfl⟩ := hcall₁
    rcases hresult with ⟨-, -, htext⟩ | hlong
    · rw [hout', List.append_cancel_left_eq] at htext
      exact Or.inr htext.symm
    · by_contra hne
      rw [if_neg fun h => hne (Or.inl h)] at hlong
      exact absurd hlong (by decide)
  · intro h
    by_cases hlong : device.formatPrefix.val.length + (seenWithoutDrive path).length = maxPath.val
    · rw [if_pos hlong] at hcall
      exact ⟨_, _, hcall, Or.inr rfl⟩
    · have hwhole := h.resolve_left hlong
      rw [if_neg hlong] at hcall
      refine ⟨_, _, hcall, Or.inl ⟨rfl, ?_, by rw [hout', hwhole]⟩⟩
      rw [hwhole, List.length_take]
      omega

/-- The test is for the one length that is too long by the terminator alone. A path whose length
is a `u32` is formatted right if it is not longer than that. -/
theorem formatsWhole_iff (device : FileDevice) (out : FixedString maxPath)
    (path : Option CString) :
    (device.FormatsWhole out path ↔
      device.formatPrefix.val.length + (seenWithoutDrive path).length = maxPath.val ∨
        withoutDrive path =
          (seenWithoutDrive path).take (maxPath.val - 1 - device.formatPrefix.val.length)) ∧
    ((∀ text ∈ path, text.val.length < 2 ^ 32) → (device.FormatsWhole out path ↔
      device.formatPrefix.val.length + (withoutDrive path).length ≤ maxPath.val)) := by
  have hmax : maxPath.val = 256 := rfl
  have hlength := device.length_formatPrefix
  refine ⟨device.formatsWhole_iff_seen out path, fun hword => ?_⟩
  have hseen : seenWithoutDrive path = withoutDrive path := by
    cases path with
    | none => rfl
    | some text =>
        simp only [seenWithoutDrive, withoutDrive, Nat.mod_eq_of_lt (hword text rfl),
          List.take_length]
  have htake : withoutDrive path =
      (withoutDrive path).take (maxPath.val - 1 - device.formatPrefix.val.length) ↔
        (withoutDrive path).length ≤ maxPath.val - 1 - device.formatPrefix.val.length :=
    eq_comm.trans (List.take_eq_self_iff _)
  rw [device.formatsWhole_iff_seen out path, hseen, htake]
  omega

theorem formatsWhole_iff_driveText : save.FormatsWhole (zeroed maxPath) (some driveText) :=
  ((formatsWhole_iff save (zeroed maxPath) (some driveText)).2 (by decide)).mpr (by decide)

/-- A path that is too long by two characters is cut and formatted with success. -/
theorem content_not_formatsWhole :
    ¬ content.FormatsWhole (zeroed maxPath) (some ⟨List.replicate 249 0x61, by decide⟩) := by
  have hcut : lastIndex (· = colon) (List.replicate 249 0x61) 249 = 0 := by
    refine lastIndex_eq_zero_iff.mpr ?_
    rintro i - - ⟨c, hc, hcolon⟩
    have hc : c = 0x61 := List.eq_of_mem_replicate (List.mem_of_getElem? hc)
    exact absurd (hc ▸ hcolon) (by decide)
  have hmod : 249 % 2 ^ 32 = 249 := rfl
  have hprefix : content.formatPrefix.val.length = 8 := rfl
  have hmax : maxPath.val = 256 := rfl
  rw [formatsWhole_iff_seen, seenWithoutDrive, withoutDrive, List.length_replicate, hmod, hcut,
    List.take_of_length_le List.length_replicate.le, List.drop_zero, hprefix, hmax]
  rintro (h | h)
  · rw [List.length_replicate] at h
    omega
  · have hlength := congrArg List.length h
    rw [List.length_take, List.length_replicate] at hlength
    omega

end FileDevice

/-! ### The delimiter in the parts -/

theorem FileDevice.formatPath_keeps (device : FileDevice) {path : CString}
    {drive rest : List CChar} (hpath : path.val = drive ++ colon :: rest) (hrest : colon ∉ rest)
    (hlength : path.val.length < maxPath.val) (out : FixedString maxPath) :
    ∃ result out' more, device.formatPath out (some path) = .ok (result, out') ∧
      out'.text = device.formatPrefix.val ++ colon :: more := by
  have hmax : maxPath.val = 256 := rfl
  have hprefix := device.length_formatPrefix
  have hseen : seenWithoutDrive (some path) = colon :: rest := by
    have hcut : lastIndex (· = colon) path.val path.val.length = drive.length := by
      rw [hpath]
      exact lastIndex_append_cons_of_forall rfl fun x hx heq => hrest (heq ▸ hx)
    simp only [seenWithoutDrive]
    rw [Nat.mod_eq_of_lt (by omega), List.take_length, hcut, hpath, List.drop_left]
  obtain ⟨out', hcall, hout'⟩ := device.formatPath_eq out (some path)
  obtain ⟨k, hk⟩ : ∃ k, maxPath.val - 1 - device.formatPrefix.val.length = k + 1 :=
    ⟨maxPath.val - 2 - device.formatPrefix.val.length, by omega⟩
  rw [hseen, hk, List.take_succ_cons] at hout'
  exact ⟨_, out', _, hcall, hout'⟩

/-- The path without the drive and what the devices make of it start with the colon, whatever
the output was. A file name from a path that is seen whole starts with the separator. -/
theorem parts_keep_delimiter (path : Path) (device : FileDevice) (out : FixedString maxPath) :
    (∀ drive rest, path.HasText (drive ++ colon :: rest) → colon ∉ rest →
      (drive ++ colon :: rest).length < maxPath.val →
      ¬ ∃ out', getPathWithoutDrive (some out) (some path) = .ok (some out') ∧
        out'.text = rest) ∧
    (∀ dir separator name, path.HasText (dir ++ separator :: name) → IsSeparator separator →
      (∀ c ∈ name, ¬ IsSeparator c) →
      ((∃ out, getFileNameFromPath (some (zeroed maxPath)) (some path) = .ok (some out) ∧
        out.text = name) ↔ ShowsName (dir ++ separator :: name) path.seen name) ∧
      (path.seen = (dir ++ separator :: name).length →
        ¬ ShowsName (dir ++ separator :: name) path.seen name)) ∧
    (∀ (text : CString) (drive rest : List CChar), text.val = drive ++ colon :: rest →
      colon ∉ rest → text.val.length < maxPath.val →
      ¬ ∃ result out', device.formatPath out (some text) = .ok (result, out') ∧
        out'.text = device.formatPrefix.val ++ rest) := by
  refine ⟨?_, ?_, ?_⟩
  · rintro drive rest htext hrest hlength ⟨out', hcall, rfl⟩
    obtain ⟨out₁, more, hcall₁, hout₁⟩ := getPathWithoutDrive_keeps htext hrest hlength out
    rw [hcall, Except.ok.injEq, Option.some.injEq] at hcall₁
    rw [hcall₁, hout₁] at hrest
    exact hrest List.mem_cons_self
  · intro dir separator name htext hseparator hname
    refine ⟨getFileNameFromPath_iff htext hname, fun hseen => ?_⟩
    rw [hseen]
    exact not_showsName hseparator
  · rintro text drive rest htext hrest hlength ⟨result, out', hcall, hout'⟩
    obtain ⟨_, out₁, more, hcall₁, hout₁⟩ := device.formatPath_keeps htext hrest hlength out
    rw [hcall, Except.ok.injEq, Prod.mk.injEq] at hcall₁
    rw [hcall₁.2, hout₁, List.append_cancel_left_eq] at hout'
    exact hrest (hout' ▸ List.mem_cons_self)

theorem parts_keep_delimiter_drivePath :
    (¬ ∃ out', getPathWithoutDrive (some (zeroed maxPath)) (some drivePath) = .ok (some out') ∧
      out'.text = [forwardSlash, 0x61]) ∧
    (¬ ∃ result out', FileDevice.save.formatPath (zeroed maxPath) (some driveText) =
        .ok (result, out') ∧
      out'.text = FileDevice.save.formatPrefix.val ++ [forwardSlash, 0x61]) := by
  obtain ⟨hrest, -, hformat⟩ := parts_keep_delimiter drivePath .save (zeroed maxPath)
  exact ⟨hrest [0x63] [forwardSlash, 0x61] rfl (by decide) (by decide),
    hformat driveText [0x63] [forwardSlash, 0x61] rfl (by decide) (by decide)⟩

/-- `:/a` instead of `/a`, and `content/:/a` instead of `content//a`. -/
theorem drivePath_keeps_colon :
    (∃ out, getPathWithoutDrive (some (zeroed maxPath)) (some drivePath) = .ok (some out) ∧
      out.text = [colon, forwardSlash, 0x61]) ∧
    ∃ result out, ContentFileDevice.formatPath (zeroed maxPath) (some driveText) =
        .ok (result, out) ∧
      out.text = contentPrefix.val ++ [colon, forwardSlash, 0x61] := by
  obtain ⟨out, hcall, hout⟩ := getPathWithoutDrive_zeroed (some driveText)
  obtain ⟨out', hcall', hout'⟩ := FileDevice.content.formatPath_eq (zeroed maxPath)
    (some driveText)
  exact ⟨⟨out, hcall, hout.trans (by decide)⟩, _, out', hcall', hout'.trans (by decide)⟩

end DDFramework
