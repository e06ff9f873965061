import DDFramework.Verification.PathUtil.Splitting

/-! # Parts and their delimiters

The second part of a path starts with the delimiter it was cut at, and the extension is the
directory, since no function looks for a dot. -/

namespace DDFramework

open FixedString

namespace PathUtil

variable {path : Path} {text : List CChar}

/-! ### The path without its drive -/

theorem text_copied_cons {size : BufferSize} (out : FixedString size) {c : CChar}
    {rest : List CChar} (hc : c ≠ 0) (hsize : 1 < size.val) :
    ∃ more, (copied out (c :: rest)).text = c :: more := by
  obtain ⟨tail, htail⟩ := prefix_copied out (c :: rest)
  obtain ⟨k, hk⟩ : ∃ k, size.val - 1 = k + 1 := ⟨size.val - 2, by omega⟩
  rw [hk, List.take_succ_cons, List.cons_append] at htail
  refine ⟨cString (rest.take k ++ tail), ?_⟩
  rw [FixedString.text, ← htail, cString, List.takeWhile_cons_of_pos (by simpa using hc)]
  rfl

theorem getPathWithoutDrive_keeps {drive rest : List CChar}
    (htext : path.HasText (drive ++ colon :: rest)) (hrest : colon ∉ rest)
    (hlength : (drive ++ colon :: rest).length < maxPath.val) (out : FixedString maxPath) :
    ∃ out' more, getPathWithoutDrive (some out) (some path) = .ok (some out') ∧
      out'.text = colon :: more := by
  have hseen := htext.seen_eq hlength
  have hstart : Getter.pathWithoutDrive.start path.chars path.seen = drive.length := by
    rw [Getter.start, htext.lastIndex_eq colon_ne_zero, hseen]
    exact lastIndex_append_cons_of_forall rfl fun x hx heq => hrest (heq ▸ hx)
  have hstop : Getter.pathWithoutDrive.stop path.chars path.seen =
      (drive ++ colon :: rest).length := hseen
  have hcall := Getter.pathWithoutDrive.call_of_le out htext.inRange
    (by rw [hseen, List.length_append]; exact Nat.succ_ne_zero _)
    (by rw [hstart, hstop, List.length_append]; exact Nat.le_add_right _ _)
  obtain ⟨after, hafter⟩ := htext.exists_rest
  have hspan : span path.chars drive.length (drive ++ colon :: rest).length = colon :: rest := by
    rw [span, hafter, List.take_left, List.drop_left]
  rw [hstart, hstop, hspan] at hcall
  obtain ⟨more, hmore⟩ : ∃ more, (copied out (colon :: rest)).text = colon :: more :=
    text_copied_cons out (by decide) (by decide)
  exact ⟨_, more, hcall, hmore⟩

/-! ### The file name -/

/-- A path of which only `n` characters are seen gives the name that follows its separator. It
must show nothing after a separator, or no separator and the name as its start. -/
def ShowsName (text : List CChar) (n : ℕ) (name : List CChar) : Prop :=
  (name = [] ∧ HasAt IsSeparator text n) ∨
    ((∀ c ∈ text.take (n + 1), ¬ IsSeparator c) ∧ text.take (min n (maxPath.val - 1)) = name)

/-- A path that is seen whole gives no name without its separator. -/
theorem not_showsName {dir name : List CChar} {separator : CChar} (h : IsSeparator separator) :
    ¬ ShowsName (dir ++ separator :: name) (dir ++ separator :: name).length name := by
  rintro (⟨-, hat⟩ | ⟨hnone, -⟩)
  · exact Nat.lt_irrefl _ hat.lt
  · exact hnone separator (by simp [List.take_of_length_le]) h

theorem take_drop_lastIndex_eq_iff {n : ℕ} {name : List CChar}
    (hname : ∀ c ∈ name, ¬ IsSeparator c) :
    ((text.take n).drop (lastIndex IsSeparator text n)).take (maxPath.val - 1) = name ↔
      ShowsName text n name := by
  have hle : lastIndex IsSeparator text n ≤ n := lastIndex_le
  -- A separator at the start of the part would be one in the name.
  have hstarts : ∀ i < n, HasAt IsSeparator text i →
      ((text.take n).drop i).take (maxPath.val - 1) ≠ name := by
    rintro i hi ⟨c, hc, hsep⟩ rfl
    have hhead : (((text.take n).drop i).take (maxPath.val - 1))[0]? = some c := by
      rw [List.getElem?_take_of_lt (by decide), List.getElem?_drop, Nat.add_zero,
        List.getElem?_take_of_lt hi]
      exact hc
    exact hname c (List.mem_of_getElem? hhead) hsep
  have hnothing : ((text.take n).drop n).take (maxPath.val - 1) = [] := by
    rw [List.drop_eq_nil_of_le (List.length_take_le _ _), List.take_nil]
  rw [ShowsName, forall_mem_take_iff]
  constructor
  · intro h
    by_cases hat : HasAt IsSeparator text n
    · rw [lastIndex_eq_self hat, hnothing] at h
      exact Or.inl ⟨h.symm, hat⟩
    · have hcut : lastIndex IsSeparator text n = 0 := by
        by_contra hne
        rcases Nat.eq_or_lt_of_le hle with heq | hlt
        · exact hat (heq ▸ hasAt_lastIndex hne)
        · exact hstarts _ hlt (hasAt_lastIndex hne) h
      rw [hcut] at h
      refine Or.inr ⟨fun i hi hat' => ?_, ?_⟩
      · rcases Nat.eq_zero_or_pos i with rfl | hpos
        · rcases Nat.eq_zero_or_pos n with rfl | hn
          · exact hat hat'
          · exact hstarts 0 hn hat' h
        · exact lastIndex_eq_zero_iff.mp hcut i hpos (Nat.lt_succ_iff.mp hi) hat'
      · rwa [List.drop_zero, List.take_take, Nat.min_comm] at h
  · rintro (⟨rfl, hat⟩ | ⟨hnone, rfl⟩)
    · rw [lastIndex_eq_self hat, hnothing]
    · have hcut : lastIndex IsSeparator text n = 0 :=
        lastIndex_eq_zero_iff.mpr fun i _ hi => hnone i (Nat.lt_succ_iff.mpr hi)
      rw [hcut, List.drop_zero, List.take_take, Nat.min_comm]

/-- The file name is the one that follows the separator. -/
theorem getFileNameFromPath_iff {dir name : List CChar} {separator : CChar}
    (htext : path.HasText (dir ++ separator :: name)) (hname : ∀ c ∈ name, ¬ IsSeparator c) :
    (∃ out, getFileNameFromPath (some (zeroed maxPath)) (some path) = .ok (some out) ∧
      out.text = name) ↔ ShowsName (dir ++ separator :: name) path.seen name := by
  obtain ⟨out, hcall, hout, -⟩ := Getter.fileName.call_back not_isSeparator_zero
    (fun _ _ => rfl) (fun _ _ => rfl) htext
  have hcall : getFileNameFromPath (some (zeroed maxPath)) (some path) = .ok (some out) := hcall
  rw [← take_drop_lastIndex_eq_iff hname, ← hout]
  constructor
  · rintro ⟨out', hcall', htext'⟩
    rw [hcall] at hcall'
    cases hcall'
    exact htext'
  · exact fun h => ⟨out, hcall, h⟩

/-! ### The extension -/

/-- The name is what follows the last separator. -/
def IsFileName (text name : List CChar) : Prop :=
  ∃ dir, text = dir ++ name ∧ (∀ c ∈ dir.getLast?, IsSeparator c) ∧ ∀ c ∈ name, ¬ IsSeparator c

/-- A name is cut at its last dot. One without a dot has no extension. -/
inductive ExtensionOf : List CChar → List CChar → List CChar → Prop where
  | dotted (base ext : List CChar) (h : dot ∉ ext) : ExtensionOf (base ++ dot :: ext) base ext
  | plain (name : List CChar) (h : dot ∉ name) : ExtensionOf name name []

/-- The two functions give the extension and the name without it. -/
structure YieldsExtension (path : Path) (base ext : List CChar) : Prop where
  extension : ∃ out, getExtensionFromPath (some (zeroed maxPath)) (some path) = .ok (some out) ∧
    out.text = ext
  base : ∃ out, getFileNameFromPathNoExtension (some (zeroed maxPath)) (some path) =
    .ok (some out) ∧ out.text = base

theorem lastIndex_forwardSlash_le {n : ℕ} :
    lastIndex (· = forwardSlash) text n ≤ lastIndex IsSeparator text n := by
  rw [lastIndex_isSeparator]
  split <;> omega

/-- The extension is the part in front of the file name. -/
theorem text_getExtensionFromPath (htext : path.HasText text) (hlength : text.length ≤ 255) :
    ∃ out, getExtensionFromPath (some (zeroed maxPath)) (some path) = .ok (some out) ∧
      out.text = text.take (lastIndex IsSeparator text text.length) := by
  have hlast := htext.lastIndex_eq not_isSeparator_zero
  have hmax : maxPath.val = 256 := rfl
  rw [htext.seen_eq (by omega)] at hlast
  obtain ⟨out, hcall, hout, -⟩ := Getter.extension.call_zeroed htext (Nat.zero_le _)
  rw [Getter.start, Getter.stop, htext.seen_eq (by omega), hlast, span, List.drop_zero,
    List.take_take, Nat.min_eq_right] at hout
  · exact ⟨out, hcall, hout⟩
  · have hle : lastIndex IsSeparator text text.length ≤ text.length := lastIndex_le
    change lastIndex IsSeparator text text.length ≤ maxPath.val - 1
    omega

/-- The name without its extension still starts with the separator, and is shorter by the
length of the directory. -/
theorem text_getFileNameFromPathNoExtension (htext : path.HasText text)
    (hlength : text.length ≤ 255)
    (hle : lastIndex IsSeparator text text.length ≤
      text.length - lastIndex (· = forwardSlash) text text.length) :
    ∃ out, getFileNameFromPathNoExtension (some (zeroed maxPath)) (some path) =
      .ok (some out) ∧ out.text = span text (lastIndex IsSeparator text text.length)
        (text.length - lastIndex (· = forwardSlash) text text.length) := by
  have hmax : maxPath.val = 256 := rfl
  have hlast := htext.lastIndex_eq not_isSeparator_zero
  have hslash := htext.lastIndex_eq (P := (· = forwardSlash)) forwardSlash_ne_zero
  rw [htext.seen_eq (by omega)] at hlast hslash
  obtain ⟨out, hcall, hout, -⟩ := Getter.fileNameNoExtension.call_zeroed htext
    (by rwa [Getter.start, Getter.stop, htext.seen_eq (by omega), hlast, hslash])
  rw [Getter.start, Getter.stop, htext.seen_eq (by omega), hlast, hslash,
    List.take_of_length_le] at hout
  · exact ⟨out, hcall, hout⟩
  · rw [length_span (Nat.sub_le _ _)]
    change _ ≤ maxPath.val - 1
    omega

theorem lastIndex_of_isFileName {dir name : List CChar}
    (hdir : ∀ c ∈ dir.getLast?, IsSeparator c) (hname : ∀ c ∈ name, ¬ IsSeparator c) :
    lastIndex IsSeparator (dir ++ name) (dir ++ name).length = dir.length - 1 := by
  rcases List.eq_nil_or_concat dir with rfl | ⟨front, c, rfl⟩
  · refine lastIndex_eq_zero_iff.mpr ?_
    rintro i - - ⟨c, hc, hsep⟩
    exact hname c (List.mem_of_getElem? hc) hsep
  · have hsep : IsSeparator c := hdir c (by simp)
    rw [List.concat_eq_append, List.append_assoc, List.singleton_append]
    simpa using lastIndex_append_cons_of_forall hsep hname

/-- The extension and the rest come out right only for a path that is one name without a dot. -/
theorem yieldsExtension_iff {name base ext : List CChar} (htext : path.HasText text)
    (hlength : text.length ≤ 255) (hname : IsFileName text name)
    (hext : ExtensionOf name base ext) :
    YieldsExtension path base ext ↔ (∀ c ∈ text, ¬ IsSeparator c) ∧ dot ∉ text := by
  obtain ⟨out, hcall, hout⟩ := text_getExtensionFromPath htext hlength
  obtain ⟨dir, rfl, hdir, hnone⟩ := hname
  have hbase := text_getFileNameFromPathNoExtension htext hlength
  have hslash := @lastIndex_forwardSlash_le (dir ++ name) (dir ++ name).length
  rw [lastIndex_of_isFileName hdir hnone] at hout hbase hslash
  generalize lastIndex (· = forwardSlash) (dir ++ name) (dir ++ name).length = slash
    at hbase hslash
  have htake : ((dir ++ name).take (dir.length - 1)).length = dir.length - 1 := by
    rw [List.length_take, List.length_append]
    omega
  -- What the first call says about the directory decides that the second one has its offsets in
  -- order, and then the lengths disagree.
  have hlengths : YieldsExtension path base ext →
      ext.length = dir.length - 1 ∧ (dir.length - 1 ≤ (dir ++ name).length - slash →
        base.length = (dir ++ name).length - slash - (dir.length - 1)) := by
    rintro ⟨⟨out₁, hcall₁, rfl⟩, out₂, hcall₂, rfl⟩
    rw [hcall] at hcall₁
    cases hcall₁
    refine ⟨hout ▸ htake, fun hle => ?_⟩
    obtain ⟨out₃, hcall₃, hout₃⟩ := hbase hle
    rw [hcall₂] at hcall₃
    cases hcall₃
    rw [hout₃, length_span (Nat.sub_le _ _)]
  cases hext with
  | dotted _ _ hdot =>
      constructor
      · intro h
        obtain ⟨hfirst, hsecond⟩ := hlengths h
        simp only [List.length_append, List.length_cons] at hsecond
        omega
      · rintro ⟨-, hnodot⟩
        exact (hnodot (by simp)).elim
  | plain _ hdot =>
      constructor
      · intro h
        obtain ⟨hfirst, hsecond⟩ := hlengths h
        simp only [List.length_append, List.length_nil] at hfirst hsecond
        have hnil : dir = [] := List.eq_nil_of_length_eq_zero (by omega)
        rw [hnil, List.nil_append]
        exact ⟨hnone, hdot⟩
      · rintro ⟨hnosep, -⟩
        have hnil : dir = [] := by
          rcases List.eq_nil_or_concat dir with hnil | ⟨front, c, rfl⟩
          · exact hnil
          · exact (hnosep c (by simp) (hdir c (by simp))).elim
        subst hnil
        obtain ⟨out', hcall', hout'⟩ := hbase (Nat.zero_le _)
        have hzero : slash = 0 := Nat.le_zero.mp hslash
        refine ⟨⟨out, hcall, hout⟩, out', hcall', ?_⟩
        rw [hout', hzero, span]
        simp

/-- `a` -/
def plainName : List CChar := [0x61]

/-- `a.b` -/
def dottedName : List CChar := [0x61, dot, 0x62]

theorem yieldsExtension_iff_plainName :
    YieldsExtension (.string false ⟨plainName, by decide⟩) plainName [] := by
  have htext : (Path.string false ⟨plainName, by decide⟩).HasText plainName := rfl
  exact (yieldsExtension_iff htext (by decide) ⟨[], rfl, nofun, by decide⟩
    (.plain plainName (by decide))).mpr (by decide)

theorem dottedName_yields_no_extension :
    IsFileName dottedName dottedName ∧ ExtensionOf dottedName [0x61] [0x62] ∧
      ¬ YieldsExtension (.string false ⟨dottedName, by decide⟩) [0x61] [0x62] := by
  refine ⟨⟨[], rfl, nofun, by decide⟩, .dotted [0x61] [0x62] (by decide), ?_⟩
  rintro ⟨⟨out, hcall, htext⟩, -⟩
  have hpath : (Path.string false ⟨dottedName, by decide⟩).HasText dottedName := rfl
  obtain ⟨out', hcall', hout'⟩ := text_getExtensionFromPath hpath (by decide)
  rw [hcall] at hcall'
  cases hcall'
  rw [htext] at hout'
  revert hout'
  decide

end PathUtil

end DDFramework
