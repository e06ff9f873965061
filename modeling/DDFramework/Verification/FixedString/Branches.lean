import DDFramework.Verification.FixedString.Calls

/-! # Constant evaluation and run time

The two branches of a member store the same text exactly when the run-time branch finds a
zero where the text ends. -/

namespace DDFramework.FixedString

variable {size : BufferSize} {s : FixedString size}

/-- Both branches return, with the same C string and the same `m_length`. -/
def Agree (x y : Except Fault (FixedString size)) : Prop :=
  ∃ a b, x = .ok a ∧ y = .ok b ∧ a.text = b.text ∧ a.length = b.length

theorem agree_ok_iff {a b : FixedString size} :
    Agree (.ok a) (.ok b) ↔ a.text = b.text ∧ a.length = b.length := by
  constructor
  · rintro ⟨a', b', ha, hb, h⟩
    cases ha
    cases hb
    exact h
  · exact fun h => ⟨a, b, rfl, rfl, h⟩

theorem not_agree_error {x : Except Fault (FixedString size)} {fault : Fault} :
    ¬ Agree x (.error fault) := by
  rintro ⟨a, b, -, hb, -⟩
  cases hb

/-- A copy with a zero and one without have the same result where the array has the zero. -/
theorem agree_stored_iff {t : FixedString size} {pre block : List CChar}
    (hpre : pre <+: s.stringArray) (hzero : 0 ∉ pre ++ block)
    (h : pre.length + block.length < size.val) (htext : t.text = pre ++ block)
    (hlength : t.length = BitVec.ofNat 32 (pre.length + block.length)) :
    Agree (.ok t) (.ok (s.stored pre.length block h)) ↔
      s.EndsAt (pre.length + block.length) := by
  rw [agree_ok_iff, htext, eq_comm, stored_text_iff hpre hzero h]
  exact and_iff_left hlength

theorem construct_agree_iff (string : CString) :
    Agree (construct size true string) (construct size false string) ↔
      string.val.length < size.val := by
  by_cases h : string.val.length < size.val
  · have htake : string.val.take (size.val - 1) = string.val := List.take_of_length_le (by omega)
    rw [construct_constant_eq, construct_of_lt h, agree_ok_iff]
    simp only [htake, h, and_self]
  · rw [construct_of_le (Nat.le_of_not_lt h)]
    simp [h, not_agree_error]

theorem assign_agree_iff {rhs : FixedString size} (hrhs : rhs.Valid) :
    Agree (assign true s rhs) (assign false s rhs) ↔ s.EndsAt rhs.text.length := by
  have hlt : ([] : List CChar).length + rhs.text.length < size.val := by
    simpa using hrhs.length_lt
  have hzero : 0 ∉ [] ++ rhs.text := rhs.zero_notMem_text
  have htext := zeroEnded_assureTermination_text (s := s) List.nil_prefix hzero hlt
    (BitVec.ofNat 32 rhs.text.length)
  have hiff := agree_stored_iff (s := s) List.nil_prefix hzero hlt htext
    (by simp [assureTermination, zeroEnded, setLength])
  rw [assign_constant_eq hrhs, assign_eq hrhs]
  simpa using hiff

theorem assignString_agree_iff (rhs : CString) :
    Agree (assignString true s rhs) (assignString false s rhs) ↔
      s.EndsAt (min (size.val - 1) rhs.val.length) := by
  have htext := zeroEnded_text (s := s) List.nil_prefix (zero_notMem_take rhs _)
    (zero_add_length_take_lt rhs.val) (BitVec.ofNat 32 (rhs.val.take (size.val - 1)).length)
  have hiff := agree_stored_iff (s := s) List.nil_prefix (zero_notMem_take rhs _)
    (zero_add_length_take_lt rhs.val) htext (by simp [zeroEnded, setLength])
  rw [assignString_constant_eq, assignString_eq]
  simpa using hiff

theorem append_agree_iff (hs : s.Valid) (string : CString) :
    Agree ((append true s string).map Prod.snd) ((append false s string).map Prod.snd) ↔
      s.EndsAt (s.text.length + min (size.val - 1 - s.text.length) string.val.length) := by
  have hzero : 0 ∉ s.text ++ string.val.take (size.val - 1 - s.text.length) := by
    rw [List.mem_append]
    exact not_or.mpr ⟨s.zero_notMem_text, zero_notMem_take string _⟩
  have hlt := length_take_lt hs.length_lt string.val
  have htext := zeroEnded_assureTermination_text (s := s) s.text_prefix hzero hlt
    (BitVec.ofNat 32 (s.text.length +
      (string.val.take (size.val - 1 - s.text.length)).length))
  have hiff := agree_stored_iff s.text_prefix hzero hlt htext rfl
  rw [append_constant_eq hs, append_eq hs]
  simpa [Except.map] using hiff

/-- The constructor agrees when the string fits with its zero, the other members when the array
has a zero where the new text ends. -/
theorem branches_agree_iff {s rhs : FixedString size} (hs : s.Valid) (hrhs : rhs.Valid)
    (string : CString) :
    (Agree (construct size true string) (construct size false string) ↔
      string.val.length < size.val) ∧
    (Agree (assign true s rhs) (assign false s rhs) ↔ s.EndsAt rhs.text.length) ∧
    (Agree (assignString true s string) (assignString false s string) ↔
      s.EndsAt (min (size.val - 1) string.val.length)) ∧
    (Agree ((append true s string).map Prod.snd) ((append false s string).map Prod.snd) ↔
      s.EndsAt (s.text.length + min (size.val - 1 - s.text.length) string.val.length)) :=
  ⟨construct_agree_iff string, assign_agree_iff hrhs, assignString_agree_iff string,
    append_agree_iff hs string⟩

/-- A buffer of eight characters. -/
def eight : BufferSize := ⟨8, by decide⟩

/-- The string `abc` in a buffer of eight characters. -/
def abc : FixedString eight := ⟨[97, 98, 99, 0, 0, 0, 0, 0], 3, rfl⟩

theorem abc_valid : abc.Valid := ⟨by decide, by decide⟩

theorem branches_agree_abc :
    Agree (construct eight true ⟨[120, 121], by decide⟩)
      (construct eight false ⟨[120, 121], by decide⟩) ∧
    Agree (assign true abc abc) (assign false abc abc) ∧
    Agree ((append true abc ⟨[120, 121], by decide⟩).map Prod.snd)
      ((append false abc ⟨[120, 121], by decide⟩).map Prod.snd) := by
  obtain ⟨hconstruct, hassign, -, happend⟩ :=
    branches_agree_iff abc_valid abc_valid ⟨[120, 121], by decide⟩
  exact ⟨hconstruct.mpr (by decide), hassign.mpr (by decide), happend.mpr (by decide)⟩

/-- A shorter string assigned to `abc` at run time keeps the rest of it. -/
theorem assignString_not_agree :
    ((assignString false abc ⟨[120], by decide⟩).toOption.map fun s => (s.text, s.length)) =
      some ([120, 98, 99], 1) ∧
    ((assignString true abc ⟨[120], by decide⟩).toOption.map fun s => (s.text, s.length)) =
      some ([120], 1) ∧
    ¬ Agree (assignString true abc ⟨[120], by decide⟩)
      (assignString false abc ⟨[120], by decide⟩) := by
  refine ⟨by decide, by decide, fun h => ?_⟩
  exact absurd ((assignString_agree_iff _).mp h) (by decide)

end DDFramework.FixedString
