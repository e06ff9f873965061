import DDFramework.Library.Machine
import DDFramework.Verification.FixedString.Calls

/-! # Sequences of calls on one `FixedString`

The text that the calls ask for is recorded beside the string. A call keeps the string valid
exactly when it does not rely on a zero that nobody has written, and does not format more than
fits. -/

namespace DDFramework.FixedString

variable {size : BufferSize} {s : FixedString size}

/-- A call of a member, at run time. -/
inductive Call (size : BufferSize) where
  | assign (rhs : { rhs : FixedString size // rhs.Valid })
  | assignString (rhs : CString)
  | format (expansion : CString)
  | appendFormat (expansion : CString)
  | append (string : CString)

namespace Call

def perform (s : FixedString size) : Call size → Except Fault (FixedString size)
  | assign rhs => s.assign false rhs.val
  | assignString rhs => s.assignString false rhs
  | format expansion => (s.format expansion).map Prod.snd
  | appendFormat expansion => (s.appendFormat expansion).map Prod.snd
  | append string => (FixedString.append false s string).map Prod.snd

/-- The text that the string should have after the call. -/
def intended (before : List CChar) : Call size → List CChar
  | assign rhs => rhs.val.text
  | assignString rhs => rhs.val
  | format expansion => expansion.val
  | appendFormat expansion => before ++ expansion.val
  | append string => before ++ string.val

/-- The array already ends the new text, or the formatted text fits. -/
def Fits (s : FixedString size) : Call size → Prop
  | assign rhs => s.EndsAt rhs.val.length.toNat
  | assignString rhs => s.EndsAt (min (size.val - 1) rhs.val.length)
  | format expansion => expansion.val.length < size.val
  | appendFormat expansion => s.length.toNat + expansion.val.length < size.val
  | append string =>
    s.EndsAt (s.length.toNat + min (size.val - 1 - s.length.toNat) string.val.length)

end Call

/-- A string with the text that it should have. A call that leaves its array ends the use. -/
structure Use (size : BufferSize) where
  string : Except Fault (FixedString size)
  intended : List CChar

namespace Use

def start (size : BufferSize) (string : CString) : Use size where
  string := construct size false string
  intended := string.val

def next (u : Use size) (call : Call size) : Option (Use size) :=
  match u.string with
  | .ok s => some ⟨call.perform s, call.intended u.intended⟩
  | .error _ => none

/-- The string has its text, cut to what the buffer holds. -/
def Kept (u : Use size) : Prop :=
  ∃ s, u.string = .ok s ∧ s.Valid ∧ s.text = u.intended.take (size.val - 1)

def Fits (u : Use size) (call : Call size) : Prop := ∀ s, u.string = .ok s → call.Fits s

end Use

/-! ### One call -/

/-- The string returned holds the text. -/
def Holds (x : Except Fault (FixedString size)) (txt : List CChar) : Prop :=
  ∃ s, x = .ok s ∧ s.Valid ∧ s.text = txt

theorem holds_ok_iff {txt : List CChar} : Holds (.ok s) txt ↔ s.Valid ∧ s.text = txt := by
  constructor
  · rintro ⟨t, ht, h⟩
    cases ht
    exact h
  · exact fun h => ⟨s, rfl, h⟩

theorem not_holds_error {fault : Fault} {txt : List CChar} :
    ¬ Holds (.error fault : Except Fault (FixedString size)) txt := by
  rintro ⟨t, ht, -⟩
  cases ht

theorem holds_stored_iff {pre block : List CChar} (hpre : pre <+: s.stringArray)
    (hzero : 0 ∉ pre ++ block) (h : pre.length + block.length < size.val) :
    Holds (.ok (s.stored pre.length block h)) (pre ++ block) ↔
      s.EndsAt (pre.length + block.length) := by
  rw [holds_ok_iff, ← stored_text_iff hpre hzero h]
  exact and_iff_right_of_imp stored_valid

/-- A formatted text is held if `m_length` is not moved past what was written. -/
theorem holds_zeroEnded_iff {pre block : List CChar} {length : BitVec 32}
    (hpre : pre <+: s.stringArray) (hzero : 0 ∉ pre ++ block)
    (h : pre.length + block.length < size.val) :
    Holds (.ok (s.zeroEnded pre.length block h length).assureTermination) (pre ++ block) ↔
      length.toNat = pre.length + block.length := by
  have htext := zeroEnded_assureTermination_text hpre hzero h length
  rw [holds_ok_iff, and_iff_left htext]
  constructor
  · intro hvalid
    have hlength := hvalid.length_eq
    rwa [htext, List.length_append] at hlength
  · intro hlength
    refine ⟨by rwa [htext, List.length_append], ?_⟩
    rw [htext, List.length_append]
    exact hlength

theorem construct_holds_iff (string : CString) :
    Holds (construct size false string) (string.val.take (size.val - 1)) ↔
      string.val.length < size.val := by
  by_cases h : string.val.length < size.val
  · have htake : string.val.take (size.val - 1) = string.val := List.take_of_length_le (by omega)
    have hzero : 0 ∉ [] ++ string.val := string.property
    have hlength : (BitVec.ofNat 32 string.val.length).toNat =
        ([] : List CChar).length + string.val.length := by
      simpa using toNat_ofNat_length h
    rw [construct_of_lt h, htake, iff_true_right h]
    exact (holds_zeroEnded_iff List.nil_prefix hzero (by simpa using h)).mpr hlength
  · rw [construct_of_le (Nat.le_of_not_lt h), iff_false_right h]
    exact not_holds_error

/-- Appending to a cut text gives the cut of the whole text. -/
theorem take_append_take (before cs : List CChar) (n : ℕ) :
    (before ++ cs).take n = before.take n ++ cs.take (n - (before.take n).length) := by
  rw [List.take_append, List.length_take]
  congr 2
  omega

/-- A text of any length is formatted after the prefix; only one that fits is held. -/
theorem formatted_holds_iff {pre : List CChar} (hpre : pre <+: s.stringArray) (hzero : 0 ∉ pre)
    (hlt : pre.length < size.val) (expansion : CString) :
    Holds (if expansion.val.length < 2 ^ 31 then
        .ok (s.zeroEnded pre.length (expansion.val.take (size.val - 1 - pre.length))
          (length_take_lt hlt _)
          (BitVec.ofNat 32 (pre.length + expansion.val.length))).assureTermination
      else .error .assertFailed)
      (pre ++ expansion.val.take (size.val - 1 - pre.length)) ↔
      pre.length + expansion.val.length < size.val := by
  have hsize := size.property.2
  by_cases hint : expansion.val.length < 2 ^ 31
  · have hzero' : 0 ∉ pre ++ expansion.val.take (size.val - 1 - pre.length) := by
      rw [List.mem_append]
      exact not_or.mpr ⟨hzero, zero_notMem_take expansion _⟩
    rw [if_pos hint, holds_zeroEnded_iff hpre hzero', BitVec.toNat_ofNat, List.length_take]
    omega
  · rw [if_neg hint, iff_false_right (by omega)]
    exact not_holds_error

theorem assign_holds_iff {rhs : FixedString size} (hrhs : rhs.Valid) :
    Holds (assign false s rhs) (rhs.text.take (size.val - 1)) ↔ s.EndsAt rhs.length.toNat := by
  have hlt := hrhs.length_lt
  have hzero : 0 ∉ [] ++ rhs.text := rhs.zero_notMem_text
  have hiff := holds_stored_iff (s := s) List.nil_prefix hzero (by simpa using hlt)
  rw [assign_eq hrhs, List.take_of_length_le (by omega), hrhs.length_eq]
  simpa using hiff

theorem assignString_holds_iff (rhs : CString) :
    Holds (assignString false s rhs) (rhs.val.take (size.val - 1)) ↔
      s.EndsAt (min (size.val - 1) rhs.val.length) := by
  have hzero : 0 ∉ [] ++ rhs.val.take (size.val - 1) := zero_notMem_take rhs _
  have hiff := holds_stored_iff (s := s) List.nil_prefix hzero (zero_add_length_take_lt rhs.val)
  rw [assignString_eq]
  simpa using hiff

theorem append_holds_iff (hs : s.Valid) (string : CString) :
    Holds ((append false s string).map Prod.snd)
      (s.text ++ string.val.take (size.val - 1 - s.text.length)) ↔
      s.EndsAt (s.length.toNat + min (size.val - 1 - s.length.toNat) string.val.length) := by
  have hzero : 0 ∉ s.text ++ string.val.take (size.val - 1 - s.text.length) := by
    rw [List.mem_append]
    exact not_or.mpr ⟨s.zero_notMem_text, zero_notMem_take string _⟩
  have hiff := holds_stored_iff s.text_prefix hzero (length_take_lt hs.length_lt string.val)
  rw [append_eq hs, hs.length_eq]
  simpa [Except.map] using hiff

theorem format_holds_iff (expansion : CString) :
    Holds ((s.format expansion).map Prod.snd) (expansion.val.take (size.val - 1)) ↔
      expansion.val.length < size.val := by
  have hiff := formatted_holds_iff (s := s) List.nil_prefix List.not_mem_nil size.property.1
    expansion
  rw [format_eq]
  by_cases hint : expansion.val.length < 2 ^ 31
  · rw [if_pos hint] at hiff ⊢
    simpa [Except.map] using hiff
  · rw [if_neg hint] at hiff ⊢
    simpa [Except.map] using hiff

theorem appendFormat_holds_iff (hs : s.Valid) (expansion : CString) :
    Holds ((s.appendFormat expansion).map Prod.snd)
      (s.text ++ expansion.val.take (size.val - 1 - s.text.length)) ↔
      s.length.toNat + expansion.val.length < size.val := by
  have hiff := formatted_holds_iff s.text_prefix s.zero_notMem_text hs.length_lt expansion
  rw [appendFormat_eq hs, hs.length_eq]
  by_cases hint : expansion.val.length < 2 ^ 31
  · rw [if_pos hint] at hiff ⊢
    simpa [Except.map] using hiff
  · rw [if_neg hint] at hiff ⊢
    simpa [Except.map] using hiff

/-- A call on a valid string leaves the text that it should exactly when it fits. -/
theorem perform_holds_iff {before : List CChar} (hs : s.Valid)
    (htext : s.text = before.take (size.val - 1)) (call : Call size) :
    Holds (call.perform s) ((call.intended before).take (size.val - 1)) ↔ call.Fits s := by
  cases call with
  | assign rhs => exact assign_holds_iff rhs.property
  | assignString rhs => exact assignString_holds_iff rhs
  | format expansion => exact format_holds_iff expansion
  | appendFormat expansion =>
      simp only [Call.perform, Call.intended, Call.Fits]
      rw [take_append_take, ← htext]
      exact appendFormat_holds_iff hs expansion
  | append string =>
      simp only [Call.perform, Call.intended, Call.Fits]
      rw [take_append_take, ← htext]
      exact append_holds_iff hs string

/-! ### All calls -/

namespace Use

theorem next_eq_some {u u' : Use size} {call : Call size} (h : u.next call = some u') :
    ∃ s, u.string = .ok s ∧ u' = ⟨call.perform s, call.intended u.intended⟩ := by
  unfold next at h
  split at h
  · rename_i s hs
    cases h
    exact ⟨s, hs, rfl⟩
  · cases h

theorem kept_next_iff {u u' : Use size} {call : Call size} (hu : u.Kept)
    (hnext : u.next call = some u') : u'.Kept ↔ u.Fits call := by
  obtain ⟨s, hstring, hvalid, htext⟩ := hu
  obtain ⟨t, ht, rfl⟩ := next_eq_some hnext
  rw [hstring, Except.ok.injEq] at ht
  subst t
  have hfits : u.Fits call ↔ call.Fits s := by
    constructor
    · exact fun h => h s hstring
    · intro h t ht
      rw [hstring, Except.ok.injEq] at ht
      exact ht ▸ h
  rw [hfits]
  exact perform_holds_iff hvalid htext call

/-- The string is kept after every call exactly when the first text fits with its zero and
every call fits. -/
theorem kept_iff (string : CString) (calls : List (Call size)) :
    Machine.Always next Kept (start size string) calls ↔
      string.val.length < size.val ∧ Machine.EveryStep next Fits (start size string) calls := by
  have hstart : (start size string).Kept ↔ string.val.length < size.val :=
    construct_holds_iff string
  have hstep : string.val.length < size.val →
      (Machine.Always next Kept (start size string) calls ↔
        Machine.EveryStep next Fits (start size string) calls) := by
    intro hlt
    exact Machine.always_iff_everyStep (hstart.mpr hlt)
      (fun _ hkept hnext => kept_next_iff hkept hnext) calls
  constructor
  · intro h
    have hlt := hstart.mp (h [] _ (List.nil_prefix) rfl)
    exact ⟨hlt, (hstep hlt).mp h⟩
  · exact fun h => (hstep h.1).mpr h.2

/-- In a buffer of eight characters `hello` becomes `hillo` when `hi` is assigned to it. -/
theorem kept_fails_hello :
    let size : BufferSize := ⟨8, by decide⟩
    let hello : CString := ⟨[104, 101, 108, 108, 111], by decide⟩
    let hi : CString := ⟨[104, 105], by decide⟩
    ((Machine.run next (start size hello) [.assignString hi]).bind fun u =>
      u.string.toOption.map fun s => (s.text, s.length)) = some ([104, 105, 108, 108, 111], 2) ∧
    ¬ Machine.Always next Kept (start size hello) [.assignString hi] := by
  intro size hello hi
  have hrun : ((Machine.run next (start size hello) [.assignString hi]).bind fun u =>
      u.string.toOption.map fun s => (s.text, s.length)) =
        some ([104, 105, 108, 108, 111], 2) := by decide
  refine ⟨hrun, fun h => ?_⟩
  obtain ⟨u, hu, hstring⟩ := Option.bind_eq_some_iff.mp hrun
  obtain ⟨s, hs, hvalid, -⟩ := h _ u (List.prefix_refl _) hu
  simp only [hs, Except.toOption, Option.map_some, Option.some.injEq, Prod.mk.injEq] at hstring
  have hlength := hvalid.length_eq
  rw [hstring.1, hstring.2] at hlength
  exact absurd hlength (by decide)

end Use

end DDFramework.FixedString
