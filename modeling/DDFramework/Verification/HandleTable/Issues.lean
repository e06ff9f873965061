import DDFramework.Library.Computation
import DDFramework.Model.Fiber
import DDFramework.Verification.HandleTable.Refinement

/-! # The handle table under arbitrary calls

Null objects may be reserved and any word may be freed or looked up, but for the words of slot
256, which both lookups take. The generation of an issued handle is given by its position among
the issued handles. -/

namespace DDFramework.HandleTable

variable {α : Type*} {t t' : HandleTable α} {free : List (Fin maxHandles)}

/-! ### Arbitrary handles -/

/-- Both lookups stay inside the arrays, and reject an index that is not below `MaxHandles`
without a change. -/
def LookupsInBounds (t : HandleTable α) (handle : BitVec 32) : Prop :=
  (∃ found, t.getObjectByHandle handle = .ok found) ∧
  (∃ freed, t.freeHandle handle = .ok freed) ∧
  (maxHandles ≤ (handle &&& 0x7fff).toNat →
    t.getObjectByHandle handle = .ok none ∧ t.freeHandle handle = .ok (false, t))

theorem getObjectByHandle_returns (t : HandleTable α) {handle : BitVec 32}
    (h : (handle &&& 0x7fff).toNat ≠ maxHandles ∨ handle >>> counterBitOffset = 0) :
    (∃ found, t.getObjectByHandle handle = .ok found) ∧
      (maxHandles ≤ (handle &&& 0x7fff).toNat → t.getObjectByHandle handle = .ok none) := by
  unfold getObjectByHandle
  dsimp only
  split_ifs with hreject hout hindex hcounter
  · exact ⟨⟨_, rfl⟩, fun _ => rfl⟩
  · exact ⟨⟨_, rfl⟩, fun _ => rfl⟩
  · exact ⟨⟨_, rfl⟩, fun _ => rfl⟩
  · exact ⟨⟨_, rfl⟩, fun hge => absurd hindex (Nat.not_lt.mpr hge)⟩
  · rcases h with hne | hzero
    · omega
    · exact absurd (Or.inr (Or.inr hzero)) hreject

theorem freeHandle_returns (t : HandleTable α) {handle : BitVec 32}
    (h : (handle &&& 0x7fff).toNat ≠ maxHandles ∨ handle >>> counterBitOffset = 0) :
    (∃ freed, t.freeHandle handle = .ok freed) ∧
      (maxHandles ≤ (handle &&& 0x7fff).toNat → t.freeHandle handle = .ok (false, t)) := by
  unfold freeHandle
  dsimp only
  split_ifs with hreject hout hindex hempty
  · exact ⟨⟨_, rfl⟩, fun _ => rfl⟩
  · exact ⟨⟨_, rfl⟩, fun _ => rfl⟩
  · exact ⟨⟨_, rfl⟩, fun _ => rfl⟩
  · exact ⟨⟨_, rfl⟩, fun hge => absurd hindex (Nat.not_lt.mpr hge)⟩
  · rcases h with hne | hzero
    · omega
    · exact absurd (Or.inr hzero) hreject

/-- The index test lets 256 pass. -/
theorem freeHandle_outOfBounds (t : HandleTable α) {handle : BitVec 32}
    (hindex : (handle &&& 0x7fff).toNat = maxHandles)
    (hcounter : handle >>> counterBitOffset ≠ 0) :
    t.freeHandle handle = .error .outOfBounds := by
  have hne : handle ≠ 0 := by
    rintro rfl
    exact hcounter rfl
  unfold freeHandle
  dsimp only
  rw [if_neg (not_or.mpr ⟨hne, hcounter⟩), if_neg (by omega), dif_neg (by omega)]

theorem lookupsInBounds_iff (t : HandleTable α) (handle : BitVec 32) :
    t.LookupsInBounds handle ↔
      ((handle &&& 0x7fff).toNat ≠ maxHandles ∨ handle >>> counterBitOffset = 0) := by
  constructor
  · rintro ⟨-, ⟨freed, hfreed⟩, -⟩
    by_contra hcond
    obtain ⟨hindex, hcounter⟩ := not_or.mp hcond
    rw [freeHandle_outOfBounds t (not_not.mp hindex) hcounter] at hfreed
    cases hfreed
  · intro h
    obtain ⟨hfound, hrejected⟩ := getObjectByHandle_returns t h
    obtain ⟨hfreed, hkept⟩ := freeHandle_returns t h
    exact ⟨hfound, hfreed, fun hge => ⟨hrejected hge, hkept hge⟩⟩

/-- Index 256 with generation 1, looked up in a table that has just been initialized. -/
theorem lookup_past_end :
    (initializeTable (⟨fun _ => 0, fun _ => none, 0, 0, 0⟩ : HandleTable ℕ)).getObjectByHandle
        0x8100 = .error .outOfBounds ∧
      ¬ (initializeTable (⟨fun _ => 0, fun _ => none, 0, 0, 0⟩ :
        HandleTable ℕ)).LookupsInBounds 0x8100 := by
  refine ⟨rfl, ?_⟩
  rintro ⟨⟨found, hfound⟩, -⟩
  cases hfound

/-! ### The free list -/

/-- A reservation is refused, or it takes the head of the free list. -/
theorem Listed.reserveHandle_cases (h : t.Listed free) (object : Option α) :
    t.reserveHandle object = .ok (none, t) ∨
    ∃ i rest, free = i :: rest ∧ t.indiceIter = indexValue i ∧ t.reserveHandle object =
      .ok (some ((t.reserveSlot i object).handleOf i), t.reserveSlot i object) := by
  by_cases hroom : t.activeHandles.toNat < maxHandles
  · cases free with
    | nil =>
        have hactive := h.active
        simp only [List.length_nil] at hactive
        omega
    | cons i rest =>
        exact Or.inr ⟨i, rest, rfl, h.chain.1, reserveHandle_eq t i object hroom h.chain.1⟩
  · exact Or.inl (if_pos (Nat.le_of_not_lt hroom))

/-- A slot with an object is not on the free list. -/
theorem Listed.freeHandle (h : t.Listed free) {handle : BitVec 32} {freed : Bool}
    (hcall : t.freeHandle handle = .ok (freed, t')) : ∃ free', t'.Listed free' ∧
      t'.counterValue = t.counterValue := by
  unfold HandleTable.freeHandle at hcall
  dsimp only at hcall
  split_ifs at hcall with hreject hout hindex hempty
  · cases hcall
    exact ⟨free, h, rfl⟩
  · cases hcall
    exact ⟨free, h, rfl⟩
  · cases hcall
    exact ⟨free, h, rfl⟩
  · cases hcall
    have hused : (⟨(handle &&& 0x7fff).toNat, hindex⟩ : Fin maxHandles) ∉ free := by
      intro hm
      exact hempty (Or.inl (by rw [h.free_object _ hm]; rfl))
    have hvalue : handle &&& 0x7fff = indexValue ⟨(handle &&& 0x7fff).toNat, hindex⟩ := by
      rw [← BitVec.toNat_inj, toNat_indexValue]
    have hfreed := h.freeSlot hused
    rw [HandleTable.freeSlot, ← hvalue] at hfreed
    exact ⟨_, hfreed, rfl⟩

/-! ### Sequences of calls -/

/-- A successful reservation: its handle, and the index and the generation at the time. -/
structure Issue where
  index : BitVec 16
  counter : BitVec 16
  handle : BitVec 32
  deriving DecidableEq, Repr

inductive TableCall (α : Type*) where
  | reserveHandle (object : Option α)
  | freeHandle (handle : BitVec 32)

/-- The call does not free a word of slot 256 that has a generation. -/
def TableCall.InBounds : TableCall α → Prop
  | .reserveHandle _ => True
  | .freeHandle handle => (handle &&& 0x7fff).toNat ≠ maxHandles ∨ handle >>> counterBitOffset = 0

/-- A table with its successful reservations, in order. -/
structure IssuingTable (α : Type*) where
  table : HandleTable α
  issued : List Issue

namespace IssuingTable

variable {s s' : IssuingTable α}

def begin (t : HandleTable α) : IssuingTable α := ⟨t.initializeTable, []⟩

def call (s : IssuingTable α) : TableCall α → Except Fault (IssuingTable α)
  | .reserveHandle object => do
      let (handle, table) ← s.table.reserveHandle object
      .ok ⟨table, s.issued ++ handle.toList.map fun handle =>
        ⟨s.table.indiceIter.setWidth 16, s.table.counterValue, handle⟩⟩
  | .freeHandle handle => do
      let (_, table) ← s.table.freeHandle handle
      .ok { s with table := table }

end IssuingTable

/-- The handle decodes to what it was built from, which is in range. -/
structure Issue.WellEncoded (e : Issue) : Prop where
  ne_zero : e.handle ≠ 0
  lt : e.handle.toNat < 2 ^ 30
  waitersBit : e.handle &&& hasChildWaitersBit = 0
  index : (e.handle &&& 0x7fff).toNat = e.index.toNat
  index_lt : e.index.toNat < maxHandles
  counter : (e.handle >>> counterBitOffset).toNat = e.counter.toNat
  counter_range : 1 ≤ e.counter.toNat ∧ e.counter.toNat ≤ 0x7fff

theorem Issue.wellEncoded {e : Issue} (hhandle : e.handle = encodeHandle e.index e.counter)
    (hindex : e.index.toNat < maxHandles)
    (hcounter : 1 ≤ e.counter.toNat ∧ e.counter.toNat ≤ 0x7fff) : e.WellEncoded := by
  have hmax : maxHandles = 256 := rfl
  obtain ⟨hlow, hhigh⟩ :=
    (encodeHandle_eq_iff e.handle e.index e.counter (by omega)).mp hhandle
  have hvalue := toNat_encodeHandle e.index e.counter (by omega)
  rw [← hhandle] at hvalue
  have hlt : e.handle.toNat < 2 ^ 30 := by omega
  refine ⟨?_, hlt, ?_, hlow, hindex, hhigh, hcounter⟩
  · intro hzero
    rw [hzero] at hvalue
    simp at hvalue
    omega
  · rw [← BitVec.toNat_inj, BitVec.toNat_and]
    change e.handle.toNat &&& 2 ^ 30 = 0
    apply Nat.eq_of_testBit_eq
    intro i
    by_cases hi : i = 30
    · rw [hi, Nat.testBit_and, Nat.testBit_lt_two_pow hlt]
      rfl
    · rw [Nat.testBit_and, Nat.testBit_two_pow_of_ne (Ne.symm hi)]
      simp

/-! ### The generation of an issue -/

/-- The issue at a position has the generation of that position. -/
structure IssuingTable.Numbered (s : IssuingTable α) : Prop where
  listed : ∃ free, s.table.Listed free
  counter : s.table.counterValue.toNat = s.issued.length % 32767 + 1
  issues : ∀ k e, s.issued[k]? = some e → e.handle = encodeHandle e.index e.counter ∧
    e.index.toNat < maxHandles ∧ e.counter.toNat = k % 32767 + 1

namespace IssuingTable

variable {s s' : IssuingTable α}

theorem Numbered.begin (t : HandleTable α) : (begin t).Numbered := by
  have hlisted := (initializeTable_represents t).listed
  have hcounter : t.initializeTable.counterValue = 1 := by
    rw [initializeTable, (foldl_initializeSlot _ _).2.2.2]
  unfold IssuingTable.begin
  generalize t.initializeTable = u at hlisted hcounter
  exact ⟨⟨_, hlisted⟩, by rw [hcounter]; rfl, by simp⟩

theorem Numbered.reserved (h : s.Numbered) {i : Fin maxHandles} {rest : List (Fin maxHandles)}
    (hlisted : s.table.Listed (i :: rest)) (object : Option α) :
    Numbered ⟨s.table.reserveSlot i object, s.issued ++ [⟨s.table.indiceIter.setWidth 16,
      s.table.counterValue, (s.table.reserveSlot i object).handleOf i⟩]⟩ := by
  have hcounter := h.counter
  have hmax : maxHandles = 256 := rfl
  have hlt := i.isLt
  have hindex : s.table.indiceIter.setWidth 16 = BitVec.ofNat 16 (i : ℕ) := by
    rw [← BitVec.toNat_inj, hlisted.chain.1, BitVec.toNat_setWidth, toNat_indexValue,
      toNat_ofNat_slot]
    omega
  refine ⟨⟨rest, hlisted.reserveSlot object⟩, ?_, ?_⟩
  · change (nextCounterValue s.table.counterValue).toNat = _
    rw [toNat_nextCounterValue (by omega), hcounter, List.length_append]
    simp only [List.length_singleton]
    omega
  · intro k e hk
    rcases lt_or_ge k s.issued.length with hlt | hge
    · rw [List.getElem?_append_left hlt] at hk
      exact h.issues k e hk
    · rw [List.getElem?_append_right hge, List.getElem?_singleton] at hk
      split at hk
      · cases hk
        refine ⟨?_, ?_, ?_⟩
        · simp only [handleOf, HandleTable.reserveSlot, Function.update_self, hindex]
        · rw [hindex, toNat_ofNat_slot]
          exact i.isLt
        · rw [hcounter]
          omega
      · cases hk

theorem Numbered.call (h : s.Numbered) {c : TableCall α} (hcall : s.call c = .ok s') :
    s'.Numbered := by
  obtain ⟨free, hlisted⟩ := h.listed
  cases c with
  | reserveHandle object =>
      rcases hlisted.reserveHandle_cases object with he | ⟨i, rest, rfl, -, he⟩
      · simp only [IssuingTable.call, he, ok_bind] at hcall
        cases hcall
        simpa using h
      · simp only [IssuingTable.call, he, ok_bind] at hcall
        cases hcall
        exact h.reserved hlisted object
  | freeHandle handle =>
      obtain ⟨⟨freed, table⟩, hfree, hcall⟩ := bind_eq_ok_iff.mp hcall
      cases hcall
      obtain ⟨free', hlisted', hcounter⟩ := hlisted.freeHandle hfree
      exact ⟨⟨free', hlisted'⟩, hcounter ▸ h.counter, h.issues⟩

theorem Numbered.exists_call (h : s.Numbered) {c : TableCall α} (hc : c.InBounds) :
    ∃ s', s.call c = .ok s' ∧ s'.Numbered := by
  have hreturns : ∃ s', s.call c = .ok s' := by
    cases c with
    | reserveHandle object =>
        obtain ⟨free, hlisted⟩ := h.listed
        rcases hlisted.reserveHandle_cases object with he | ⟨i, rest, -, -, he⟩
        · exact ⟨_, by rw [IssuingTable.call, he, ok_bind]⟩
        · exact ⟨_, by rw [IssuingTable.call, he, ok_bind]⟩
    | freeHandle handle =>
        obtain ⟨⟨freed, he⟩, -⟩ := freeHandle_returns s.table hc
        exact ⟨_, by rw [IssuingTable.call, he, ok_bind]⟩
  obtain ⟨s', hcall⟩ := hreturns
  exact ⟨s', hcall, h.call hcall⟩

theorem Numbered.run (h : s.Numbered) {calls : List (TableCall α)}
    (hcalls : ∀ c ∈ calls, c.InBounds) : ∃ s', calls.foldlM IssuingTable.call s = .ok s' ∧ s'.Numbered := by
  induction calls generalizing s with
  | nil => exact ⟨s, rfl, h⟩
  | cons c calls ih =>
      obtain ⟨s₁, hcall, h₁⟩ := h.exists_call (hcalls c List.mem_cons_self)
      obtain ⟨s', hrun, h'⟩ := ih h₁ fun c hm => hcalls c (List.mem_cons_of_mem _ hm)
      exact ⟨s', by rw [List.foldlM_cons, hcall, ok_bind, hrun], h'⟩

theorem inBounds_of_call {c : TableCall α} (hcall : s.call c = .ok s') : c.InBounds := by
  cases c with
  | reserveHandle object => trivial
  | freeHandle handle =>
      by_contra hout
      obtain ⟨hindex, hcounter⟩ := not_or.mp hout
      rw [call, freeHandle_outOfBounds s.table (not_not.mp hindex) hcounter] at hcall
      cases hcall

theorem inBounds_of_run {calls : List (TableCall α)} (hrun : calls.foldlM call s = .ok s') :
    ∀ c ∈ calls, c.InBounds := by
  induction calls generalizing s with
  | nil => simp
  | cons c calls ih =>
      rw [List.foldlM_cons] at hrun
      obtain ⟨s₁, hcall, hrun⟩ := bind_eq_ok_iff.mp hrun
      exact List.forall_mem_cons.mpr ⟨inBounds_of_call hcall, ih hrun⟩

/-- Each issued handle decodes to what it was built from, and equal handles are a multiple of 32767
issues apart. -/
structure WellIssued (s : IssuingTable α) : Prop where
  encoded : ∀ e ∈ s.issued, e.WellEncoded
  apart : ∀ (j k : ℕ) e e', s.issued[j]? = some e → s.issued[k]? = some e' →
    e.handle = e'.handle → (32767 : ℤ) ∣ (j : ℤ) - k

theorem Numbered.wellIssued (h : s.Numbered) : s.WellIssued := by
  have hencoded : ∀ (k : ℕ) (e : Issue), s.issued[k]? = some e → e.WellEncoded := by
    intro k e hk
    obtain ⟨hhandle, hindex, hcounter⟩ := h.issues k e hk
    exact Issue.wellEncoded hhandle hindex (by omega)
  refine ⟨?_, ?_⟩
  · intro e he
    obtain ⟨k, hk⟩ := List.mem_iff_getElem?.mp he
    exact hencoded k e hk
  · intro j k e e' hj hk he
    have hcounter : e.counter.toNat = e'.counter.toNat := by
      rw [← (hencoded j e hj).counter, ← (hencoded k e' hk).counter, he]
    rw [(h.issues j e hj).2.2, (h.issues k e' hk).2.2] at hcounter
    omega

/-- A sequence of calls stays inside the arrays, with all of its handles well issued, exactly if it
frees no word of slot 256. -/
theorem issued_handles_iff (t : HandleTable α) (calls : List (TableCall α)) :
    (∃ s, calls.foldlM call (begin t) = .ok s ∧ s.WellIssued) ↔ ∀ c ∈ calls, c.InBounds := by
  constructor
  · rintro ⟨s, hrun, -⟩
    exact inBounds_of_run hrun
  · intro hcalls
    obtain ⟨s, hrun, h⟩ := (Numbered.begin t).run hcalls
    exact ⟨s, hrun, h.wellIssued⟩

/-- Every slot is taken, and the word that is freed is for slot 256 with the generation 0x4567. -/
def pastEnd : List (TableCall ℕ) :=
  List.replicate 256 (.reserveHandle (some 0x14567)) ++
    [.freeHandle 0x22b38100, .reserveHandle (some 0x20000)]

theorem pastEnd_outOfBounds :
    pastEnd.foldlM call (begin ⟨fun _ => 0, fun _ => none, 0, 0, 0⟩) = .error .outOfBounds ∧
      ¬ ∃ s : IssuingTable ℕ,
        pastEnd.foldlM call (begin ⟨fun _ => 0, fun _ => none, 0, 0, 0⟩) = .ok s ∧
          s.WellIssued := by
  have hreserve : ∀ c ∈ List.replicate 256 (TableCall.reserveHandle (some 0x14567)),
      c.InBounds := by
    intro c hm
    rw [List.eq_of_mem_replicate hm]
    trivial
  obtain ⟨s, hrun, -⟩ :=
    (Numbered.begin (⟨fun _ => 0, fun _ => none, 0, 0, 0⟩ : HandleTable ℕ)).run hreserve
  have hfault : pastEnd.foldlM call (begin ⟨fun _ => 0, fun _ => none, 0, 0, 0⟩) =
      .error .outOfBounds := by
    rw [pastEnd, List.foldlM_append, hrun, ok_bind, List.foldlM_cons, call,
      freeHandle_outOfBounds s.table (by decide) (by decide)]
    rfl
  refine ⟨hfault, ?_⟩
  rintro ⟨s', hrun', -⟩
  rw [hfault] at hrun'
  cases hrun'

end IssuingTable

end DDFramework.HandleTable
