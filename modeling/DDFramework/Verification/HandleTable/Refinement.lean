import DDFramework.Library.Chain
import DDFramework.Verification.HandleTable.Encoding
import Mathlib.Data.Finmap

/-! # The handle table as a finite map

The abstract state is the finite map from live handles to their objects. The
representation invariant covers both readings of `m_counters`: generations of
used slots, and links of the free list. -/

namespace DDFramework.HandleTable

variable {α : Type*}

/-- The live handles with the objects reserved under them. -/
abbrev HandleMap (α : Type*) := Finmap (fun _ : BitVec 32 => α)

/-- The handle under which a used slot was reserved. -/
def handleOf (t : HandleTable α) (i : Fin maxHandles) : BitVec 32 :=
  encodeHandle (BitVec.ofNat 16 i) (t.counters i)

/-- The free list visits `free` from the index value `v` on. -/
def FreeChain (t : HandleTable α) (v : BitVec 32) (free : List (Fin maxHandles)) : Prop :=
  Chain indexValue (fun i => (t.counters i).signExtend 32) endOfList v free

/-- The table holds exactly the reservations `M`, and `free` is its free list. -/
structure Represents (t : HandleTable α) (free : List (Fin maxHandles)) (M : HandleMap α) :
    Prop where
  chain : t.FreeChain t.indiceIter free
  nodup : free.Nodup
  free_object : ∀ i ∈ free, t.objects i = none
  used_object : ∀ i, i ∉ free → ∃ object, t.objects i = some object
  used_counter : ∀ i, i ∉ free → 1 ≤ (t.counters i).toNat ∧ (t.counters i).toNat < 2 ^ 15
  counter_range : 1 ≤ t.counterValue.toNat ∧ t.counterValue.toNat < 2 ^ 15
  active : t.activeHandles.toNat + free.length = maxHandles
  card : M.keys.card = t.activeHandles.toNat
  live : ∀ handle object, M.lookup handle = some object ↔
    ∃ i, i ∉ free ∧ handle = t.handleOf i ∧ t.objects i = some object

theorem toNat_ofNat_slot (i : Fin maxHandles) : (BitVec.ofNat 16 (i : ℕ)).toNat = i := by
  have := i.isLt
  simp only [maxHandles] at this
  simp only [BitVec.toNat_ofNat]
  omega

theorem eq_handleOf_iff (t : HandleTable α) (i : Fin maxHandles) (handle : BitVec 32) :
    handle = t.handleOf i ↔
      (handle &&& 0x7fff).toNat = i ∧
        (handle >>> counterBitOffset).toNat = (t.counters i).toNat := by
  have := i.isLt
  simp only [maxHandles] at this
  rw [handleOf, encodeHandle_eq_iff _ _ _ (by rw [toNat_ofNat_slot]; omega), toNat_ofNat_slot]

theorem handleOf_slot_inj {t u : HandleTable α} {i j : Fin maxHandles}
    (h : t.handleOf i = u.handleOf j) : i = j := by
  have hi := ((t.eq_handleOf_iff i _).mp rfl).1
  have hj := ((u.eq_handleOf_iff j _).mp h).1
  exact Fin.ext (hi.symm.trans hj)

/-- `free` is the free list, and all other slots are counted as active. -/
structure Listed (t : HandleTable α) (free : List (Fin maxHandles)) : Prop where
  chain : t.FreeChain t.indiceIter free
  nodup : free.Nodup
  free_object : ∀ i ∈ free, t.objects i = none
  active : t.activeHandles.toNat + free.length = maxHandles

theorem Represents.listed {t : HandleTable α} {free : List (Fin maxHandles)} {M : HandleMap α}
    (h : t.Represents free M) : t.Listed free :=
  ⟨h.chain, h.nodup, h.free_object, h.active⟩

/-! ### Initialize -/

/-- The loop stores a value in each of its slots, in whichever of the two arrays. -/
theorem foldl_initializeSlot_apply {β : Type*} {field : HandleTable α → Fin maxHandles → β}
    {value : Fin maxHandles → β}
    (hfield : ∀ t i, field (initializeSlot t i) = Function.update (field t) i (value i))
    (slots : List (Fin maxHandles)) (t : HandleTable α) (i : Fin maxHandles) :
    field (slots.foldl initializeSlot t) i = if i ∈ slots then value i else field t i := by
  induction slots generalizing t with
  | nil => simp
  | cons j slots ih =>
      rw [List.foldl_cons, ih, hfield]
      by_cases hi : i ∈ slots
      · simp [hi]
      · by_cases hij : i = j
        · simp [hij]
        · simp [hi, hij]

theorem foldl_initializeSlot (slots : List (Fin maxHandles)) (t : HandleTable α) :
    (∀ i, (slots.foldl initializeSlot t).counters i =
      if i ∈ slots then BitVec.ofInt 16 ((i : ℤ) - 1) else t.counters i) ∧
    (∀ i, (slots.foldl initializeSlot t).objects i =
      if i ∈ slots then none else t.objects i) ∧
    (slots.foldl initializeSlot t).activeHandles = t.activeHandles ∧
    (slots.foldl initializeSlot t).counterValue = t.counterValue := by
  refine ⟨foldl_initializeSlot_apply (fun _ _ => rfl) slots t,
    foldl_initializeSlot_apply (fun _ _ => rfl) slots t, ?_⟩
  induction slots generalizing t with
  | nil => exact ⟨rfl, rfl⟩
  | cons j slots ih => exact ih (t.initializeSlot j)

theorem initializeTable_counters (t : HandleTable α) (i : Fin maxHandles) :
    t.initializeTable.counters i = BitVec.ofInt 16 ((i : ℤ) - 1) := by
  rw [initializeTable, (foldl_initializeSlot _ _).1 i]
  simp

theorem initializeTable_objects (t : HandleTable α) (i : Fin maxHandles) :
    t.initializeTable.objects i = none := by
  rw [initializeTable, (foldl_initializeSlot _ _).2.1 i]
  simp

theorem initializeTable_indiceIter (t : HandleTable α) :
    t.initializeTable.indiceIter = BitVec.ofInt 32 ((maxHandles : ℤ) - 1) := by
  have hsplit : ∃ slots : List (Fin maxHandles),
      List.finRange maxHandles = slots ++ [⟨255, by decide⟩] := by
    refine ⟨(List.finRange 255).map Fin.castSucc, ?_⟩
    exact List.finRange_succ_last (n := 255)
  obtain ⟨slots, hsplit⟩ := hsplit
  rw [initializeTable, hsplit, List.foldl_append]
  rfl

/-- The slots below `n`, from the last one down. -/
def slotsBelow : (n : ℕ) → n ≤ maxHandles → List (Fin maxHandles)
  | 0, _ => []
  | n + 1, h => ⟨n, h⟩ :: slotsBelow n (Nat.le_of_succ_le h)

theorem mem_slotsBelow (n : ℕ) (h : n ≤ maxHandles) (i : Fin maxHandles) :
    i ∈ slotsBelow n h ↔ (i : ℕ) < n := by
  induction n with
  | zero => simp [slotsBelow]
  | succ n ih =>
      simp only [slotsBelow, List.mem_cons, ih, Fin.ext_iff]
      omega

theorem nodup_slotsBelow (n : ℕ) (h : n ≤ maxHandles) : (slotsBelow n h).Nodup := by
  induction n with
  | zero => simp [slotsBelow]
  | succ n ih => simp [slotsBelow, ih, mem_slotsBelow]

theorem length_slotsBelow (n : ℕ) (h : n ≤ maxHandles) : (slotsBelow n h).length = n := by
  induction n with
  | zero => rfl
  | succ n ih => simp [slotsBelow, ih]

theorem chain_slotsBelow (t : HandleTable α) (n : ℕ) (h : n ≤ maxHandles) :
    t.initializeTable.FreeChain (BitVec.ofInt 32 ((n : ℤ) - 1)) (slotsBelow n h) := by
  induction n with
  | zero => rfl
  | succ n ih =>
      refine ⟨by simp [indexValue], ?_⟩
      have hlink : (t.initializeTable.counters ⟨n, h⟩).signExtend 32 =
          BitVec.ofInt 32 ((n : ℤ) - 1) := by
        rw [initializeTable_counters]
        exact signExtend_ofInt_pred n (by omega)
      dsimp only
      rw [hlink]
      exact ih (by omega)

theorem initializeTable_represents (t : HandleTable α) :
    t.initializeTable.Represents (slotsBelow maxHandles le_rfl) ∅ := by
  obtain ⟨-, -, hactive, hvalue⟩ := foldl_initializeSlot (List.finRange maxHandles)
    { t with activeHandles := 0, counterValue := 1 }
  have hall : ∀ i, i ∈ slotsBelow maxHandles le_rfl := by
    intro i
    exact (mem_slotsBelow _ _ i).mpr i.isLt
  refine ⟨?_, nodup_slotsBelow _ _, ?_, ?_, ?_, ?_, ?_, ?_, ?_⟩
  · rw [initializeTable_indiceIter]
    exact chain_slotsBelow t maxHandles le_rfl
  · exact fun i _ => initializeTable_objects t i
  · exact fun i hi => (hi (hall i)).elim
  · exact fun i hi => (hi (hall i)).elim
  · rw [initializeTable, hvalue]
    simp
  · rw [initializeTable, hactive, length_slotsBelow]
    rfl
  · rw [initializeTable, hactive]
    rfl
  · intro handle object
    simp only [Finmap.lookup_empty, reduceCtorEq, false_iff, not_exists, not_and]
    exact fun i hi => (hi (hall i)).elim

/-! ### ReserveHandle -/

/-- The table after `object` has been put into the free slot `i`. -/
def reserveSlot (t : HandleTable α) (i : Fin maxHandles) (object : Option α) : HandleTable α where
  counters := Function.update t.counters i t.counterValue
  objects := Function.update t.objects i object
  indiceIter := (t.counters i).signExtend 32
  activeHandles := t.activeHandles + 1
  counterValue := nextCounterValue t.counterValue

theorem reserveHandle_eq (t : HandleTable α) (i : Fin maxHandles) (object : Option α)
    (hroom : t.activeHandles.toNat < maxHandles) (hi : t.indiceIter = indexValue i) :
    t.reserveHandle object =
      .ok (some ((t.reserveSlot i object).handleOf i), t.reserveSlot i object) := by
  have hlt := i.isLt
  simp only [maxHandles] at hlt
  have hindex : t.indiceIter.setWidth 16 = BitVec.ofNat 16 (i : ℕ) := by
    rw [← BitVec.toNat_inj, hi, BitVec.toNat_setWidth, toNat_indexValue, toNat_ofNat_slot]
    omega
  have hbound : (t.indiceIter.setWidth 16).toNat < maxHandles := by
    rw [hindex, toNat_ofNat_slot]
    exact i.isLt
  have hslot : (⟨(t.indiceIter.setWidth 16).toNat, hbound⟩ : Fin maxHandles) = i := by
    exact Fin.ext ((congrArg BitVec.toNat hindex).trans (toNat_ofNat_slot i))
  unfold reserveHandle
  rw [if_neg (Nat.not_le.mpr hroom)]
  simp only [hbound, dite_true]
  rw [hslot, hindex]
  simp [handleOf, reserveSlot]

theorem reserveSlot_objects_of_ne (t : HandleTable α) {i j : Fin maxHandles} (h : j ≠ i)
    (object : Option α) : (t.reserveSlot i object).objects j = t.objects j := by
  simp [reserveSlot, Function.update, h]

theorem reserveSlot_counters_of_ne (t : HandleTable α) {i j : Fin maxHandles} (h : j ≠ i)
    (object : Option α) : (t.reserveSlot i object).counters j = t.counters j := by
  simp [reserveSlot, Function.update, h]

theorem Listed.activeHandles_reserveSlot {t : HandleTable α} {i : Fin maxHandles}
    {rest : List (Fin maxHandles)} (h : t.Listed (i :: rest)) (object : Option α) :
    (t.reserveSlot i object).activeHandles.toNat = t.activeHandles.toNat + 1 := by
  have hactive := h.active
  simp only [maxHandles] at hactive
  exact BitVec.toNat_add_of_lt (by change _ + 1 < 2 ^ 16; omega)

/-- A null object leaves its slot out of the free list all the same. -/
theorem Listed.reserveSlot {t : HandleTable α} {i : Fin maxHandles}
    {rest : List (Fin maxHandles)} (h : t.Listed (i :: rest)) (object : Option α) :
    (t.reserveSlot i object).Listed rest := by
  obtain ⟨hnot, hnodup⟩ := List.nodup_cons.mp h.nodup
  have hne : ∀ j ∈ rest, j ≠ i := fun j hj he => hnot (he ▸ hj)
  refine ⟨?_, hnodup, ?_, ?_⟩
  · apply Chain.congr h.chain.2
    intro j hj
    rw [reserveSlot_counters_of_ne t (hne j hj)]
  · intro j hj
    rw [reserveSlot_objects_of_ne t (hne j hj)]
    exact h.free_object j (List.mem_cons_of_mem i hj)
  · have hactive := h.active
    rw [List.length_cons] at hactive
    rw [h.activeHandles_reserveSlot]
    omega

theorem card_keys_insert {M : HandleMap α} {handle : BitVec 32} (h : handle ∉ M) (object : α) :
    (M.insert handle object).keys.card = M.keys.card + 1 := by
  have hcard : ∀ N : HandleMap α, N.keys.card = Multiset.card N.entries := by
    intro N
    simp [Finmap.keys, Finset.card, Multiset.keys]
  rw [hcard, hcard, Finmap.entries_insert_of_notMem h, Multiset.card_cons]

theorem Represents.full {t : HandleTable α} {free : List (Fin maxHandles)} {M : HandleMap α}
    (h : t.Represents free M) (hfull : maxHandles ≤ M.keys.card) (object : Option α) :
    t.reserveHandle object = .ok (none, t) := by
  rw [h.card] at hfull
  simp [reserveHandle, hfull]

theorem Represents.free_ne_nil {t : HandleTable α} {free : List (Fin maxHandles)}
    {M : HandleMap α} (h : t.Represents free M) (hroom : M.keys.card < maxHandles) :
    ∃ i rest, free = i :: rest := by
  cases free with
  | nil =>
      have hactive := h.active
      rw [h.card] at hroom
      simp only [List.length_nil] at hactive
      omega
  | cons i rest => exact ⟨i, rest, rfl⟩

theorem Represents.reserveHandle_of_lt {t : HandleTable α} {free : List (Fin maxHandles)}
    {M : HandleMap α} (h : t.Represents free M) (hroom : M.keys.card < maxHandles)
    (object : Option α) :
    ∃ i rest, free = i :: rest ∧ t.reserveHandle object =
      .ok (some ((t.reserveSlot i object).handleOf i), t.reserveSlot i object) := by
  obtain ⟨i, rest, rfl⟩ := h.free_ne_nil hroom
  have hactive : t.activeHandles.toNat < maxHandles := h.card ▸ hroom
  exact ⟨i, rest, rfl, reserveHandle_eq t i object hactive h.chain.1⟩

theorem Represents.handle_new {t : HandleTable α} {i : Fin maxHandles}
    {rest : List (Fin maxHandles)} {M : HandleMap α} (h : t.Represents (i :: rest) M)
    (object : Option α) : (t.reserveSlot i object).handleOf i ∉ M := by
  intro hm
  obtain ⟨o, ho⟩ := Finmap.mem_iff.mp hm
  obtain ⟨j, hj, he, -⟩ := (h.live _ _).mp ho
  rw [← handleOf_slot_inj he] at hj
  simp at hj

theorem reserveSlot_handleOf_of_ne (t : HandleTable α) {i j : Fin maxHandles} (h : j ≠ i)
    (object : Option α) : (t.reserveSlot i object).handleOf j = t.handleOf j := by
  rw [handleOf, handleOf, reserveSlot_counters_of_ne t h]

/-- After a reservation the live entries are the new handle and the ones from before, each
still in its own slot. -/
theorem Represents.live_reserveSlot {t : HandleTable α} {i : Fin maxHandles}
    {rest : List (Fin maxHandles)} {M : HandleMap α} (h : t.Represents (i :: rest) M)
    (object : α) (handle : BitVec 32) (o : α) :
    (M.insert ((t.reserveSlot i (some object)).handleOf i) object).lookup handle = some o ↔
      ∃ j, j ∉ rest ∧ handle = (t.reserveSlot i (some object)).handleOf j ∧
        (t.reserveSlot i (some object)).objects j = some o := by
  have hnot : i ∉ rest := (List.nodup_cons.mp h.nodup).1
  by_cases hh : handle = (t.reserveSlot i (some object)).handleOf i
  · subst handle
    rw [Finmap.lookup_insert]
    constructor
    · intro he
      exact ⟨i, hnot, rfl, by simpa [HandleTable.reserveSlot] using he⟩
    · rintro ⟨j, -, he, ho⟩
      rw [← handleOf_slot_inj he] at ho
      simpa [HandleTable.reserveSlot] using ho
  · rw [Finmap.lookup_insert_of_ne _ hh, h.live]
    constructor
    · rintro ⟨j, hj, he, ho⟩
      have hji : j ≠ i := fun hij => hj (by simp [hij])
      refine ⟨j, fun hm => hj (by simp [hm]), ?_, ?_⟩
      · rw [reserveSlot_handleOf_of_ne t hji, he]
      · rw [reserveSlot_objects_of_ne t hji, ho]
    · rintro ⟨j, hj, he, ho⟩
      have hji : j ≠ i := fun hij => hh (by rw [he, hij])
      refine ⟨j, by simp [hj, hji], ?_, ?_⟩
      · rw [he, reserveSlot_handleOf_of_ne t hji]
      · rw [← reserveSlot_objects_of_ne t hji (some object), ho]

/-- Taking the head of the free list adds one reservation to the map. -/
theorem Represents.reserveSlot {t : HandleTable α} {i : Fin maxHandles}
    {rest : List (Fin maxHandles)} {M : HandleMap α} (h : t.Represents (i :: rest) M)
    (object : α) :
    (t.reserveSlot i (some object)).Represents rest
      (M.insert ((t.reserveSlot i (some object)).handleOf i) object) := by
  have hlisted := h.listed.reserveSlot (some object)
  refine ⟨hlisted.chain, hlisted.nodup, hlisted.free_object, ?_, ?_, ?_, hlisted.active, ?_, ?_⟩
  · intro j hj
    by_cases hji : j = i
    · exact ⟨object, by simp [HandleTable.reserveSlot, hji]⟩
    · rw [reserveSlot_objects_of_ne t hji]
      exact h.used_object j (by simp [hj, hji])
  · intro j hj
    by_cases hji : j = i
    · simpa [HandleTable.reserveSlot, hji] using h.counter_range
    · rw [reserveSlot_counters_of_ne t hji]
      exact h.used_counter j (by simp [hj, hji])
  · exact nextCounterValue_range _ h.counter_range
  · rw [card_keys_insert (h.handle_new (some object)), h.card]
    exact (h.listed.activeHandles_reserveSlot (some object)).symm
  · exact h.live_reserveSlot object

/-! ### GetObjectByHandle and FreeHandle -/

/-- On a used slot the `u32` comparison of the source compares generations. -/
theorem Represents.counter_eq_iff {t : HandleTable α} {free : List (Fin maxHandles)}
    {M : HandleMap α} (h : t.Represents free M) (handle : BitVec 32) {i : Fin maxHandles}
    (hused : i ∉ free) :
    handle >>> counterBitOffset = (t.counters i).signExtend 32 ↔
      (handle >>> counterBitOffset).toNat = (t.counters i).toNat := by
  rw [← BitVec.toNat_inj, toNat_signExtend _ (h.used_counter i hused).2]

/-- The entry of a handle is what its slot holds if the stored counter matches. On a
free slot a link can match too, but the slot holds no object. -/
theorem Represents.lookup_eq {t : HandleTable α} {free : List (Fin maxHandles)}
    {M : HandleMap α} (h : t.Represents free M) (handle : BitVec 32) (i : Fin maxHandles)
    (hindex : (handle &&& 0x7fff).toNat = i) :
    M.lookup handle =
      if handle >>> counterBitOffset = (t.counters i).signExtend 32 then t.objects i
      else none := by
  have hslot : ∀ j, handle = t.handleOf j → j = i := by
    intro j he
    exact Fin.ext (((t.eq_handleOf_iff j handle).mp he).1.symm.trans hindex)
  apply Option.ext
  intro object
  rw [h.live]
  constructor
  · rintro ⟨j, hj, he, ho⟩
    obtain rfl := hslot j he
    have hcounter := (h.counter_eq_iff handle hj).mpr ((t.eq_handleOf_iff j handle).mp he).2
    rw [if_pos hcounter, ho]
  · intro ho
    split at ho
    · rename_i hcounter
      have hused : i ∉ free := by
        intro hm
        rw [h.free_object _ hm] at ho
        simp at ho
      have he := (h.counter_eq_iff handle hused).mp hcounter
      exact ⟨i, hused, (t.eq_handleOf_iff _ handle).mpr ⟨hindex, he⟩, ho⟩
    · simp at ho

/-- The handles that both functions reject at once are not live. -/
theorem Represents.not_rejected {t : HandleTable α} {free : List (Fin maxHandles)}
    {M : HandleMap α} (h : t.Represents free M) {handle : BitVec 32} (hm : handle ∈ M) :
    handle >>> 0x1e = 0 ∧ handle ≠ 0 ∧ handle >>> counterBitOffset ≠ 0 := by
  obtain ⟨object, ho⟩ := Finmap.mem_iff.mp hm
  obtain ⟨i, hi, he, -⟩ := (h.live _ _).mp ho
  have hcounter := ((t.eq_handleOf_iff i handle).mp he).2
  have hrange := h.used_counter i hi
  rw [← hcounter, toNat_shift] at hrange
  refine ⟨?_, ?_, ?_⟩
  · rw [← BitVec.toNat_inj, BitVec.toNat_ushiftRight, Nat.shiftRight_eq_div_pow]
    simp
    omega
  · rintro rfl
    simp at hrange
  · intro hzero
    have := congrArg BitVec.toNat hzero
    rw [toNat_shift] at this
    simp at this
    omega

theorem Represents.getObjectByHandle_eq {t : HandleTable α} {free : List (Fin maxHandles)}
    {M : HandleMap α} (h : t.Represents free M) (handle : BitVec 32)
    (hindex : (handle &&& 0x7fff).toNat < maxHandles) :
    t.getObjectByHandle handle = .ok (M.lookup handle) := by
  unfold getObjectByHandle
  split
  · rename_i hreject
    have hnot : handle ∉ M := by
      intro hm
      obtain ⟨h1, h2, h3⟩ := h.not_rejected hm
      rcases hreject with hr | hr | hr
      · exact hr h1
      · exact h2 hr
      · exact h3 hr
    rw [Finmap.lookup_eq_none.mpr hnot]
  · have hle : ¬ maxHandles < (handle &&& 0x7fff).toNat := by omega
    rw [h.lookup_eq handle ⟨_, hindex⟩ rfl]
    simp only [hle, ite_false, hindex, dite_true, counterBitOffset]
    split <;> simp_all

/-- The table after the used slot `i` has been put at the head of the free list. -/
def freeSlot (t : HandleTable α) (i : Fin maxHandles) : HandleTable α :=
  { t with
    objects := Function.update t.objects i none
    counters := Function.update t.counters i (t.indiceIter.setWidth 16)
    indiceIter := indexValue i
    activeHandles := t.activeHandles - 1 }

theorem Represents.freeHandle_of_notMem {t : HandleTable α} {free : List (Fin maxHandles)}
    {M : HandleMap α} (h : t.Represents free M) {handle : BitVec 32}
    (hindex : (handle &&& 0x7fff).toNat < maxHandles) (hm : handle ∉ M) :
    t.freeHandle handle = .ok (false, t) := by
  have hlookup := h.lookup_eq handle ⟨_, hindex⟩ rfl
  rw [Finmap.lookup_eq_none.mpr hm] at hlookup
  have hle : ¬ maxHandles < (handle &&& 0x7fff).toNat := by omega
  unfold freeHandle
  split
  · rfl
  · simp only [hle, ite_false, hindex, dite_true]
    rw [if_pos]
    by_cases hcounter : handle >>> counterBitOffset =
        (t.counters ⟨_, hindex⟩).signExtend 32
    · rw [if_pos hcounter] at hlookup
      exact Or.inl (by rw [← hlookup]; rfl)
    · exact Or.inr hcounter

theorem Represents.freeHandle_of_mem {t : HandleTable α} {free : List (Fin maxHandles)}
    {M : HandleMap α} (h : t.Represents free M) {handle : BitVec 32} (hm : handle ∈ M) :
    ∃ i, i ∉ free ∧ handle = t.handleOf i ∧ t.freeHandle handle = .ok (true, t.freeSlot i) := by
  obtain ⟨-, hzero, hshift⟩ := h.not_rejected hm
  obtain ⟨object, ho⟩ := Finmap.mem_iff.mp hm
  obtain ⟨i, hi, he, hobject⟩ := (h.live _ _).mp ho
  obtain ⟨hindex, hcounter⟩ := (t.eq_handleOf_iff i handle).mp he
  have hlt : (handle &&& 0x7fff).toNat < maxHandles := by
    rw [hindex]
    exact i.isLt
  have hle : ¬ maxHandles < (handle &&& 0x7fff).toNat := by omega
  have hslot : (⟨(handle &&& 0x7fff).toNat, hlt⟩ : Fin maxHandles) = i := Fin.ext hindex
  have hvalue : handle &&& 0x7fff = indexValue i := by
    rw [← BitVec.toNat_inj, hindex, toNat_indexValue]
  refine ⟨i, hi, he, ?_⟩
  unfold freeHandle
  rw [if_neg (not_or.mpr ⟨hzero, hshift⟩)]
  simp only [hle, ite_false, hlt, dite_true]
  rw [hslot, if_neg]
  · rw [freeSlot, hvalue]
  · simp [hobject, (h.counter_eq_iff handle hi).mpr hcounter]

/-- The narrowing to `s16` keeps every value that the free list can hold. -/
theorem FreeChain.signExtend {t : HandleTable α} {v : BitVec 32} {free : List (Fin maxHandles)}
    (h : t.FreeChain v free) : (v.setWidth 16).signExtend 32 = v := by
  cases free with
  | nil =>
      rw [show v = endOfList from h]
      exact signExtend_setWidth_endOfList
  | cons i rest =>
      rw [h.1]
      exact signExtend_setWidth_indexValue i

theorem freeSlot_objects_of_ne (t : HandleTable α) {i j : Fin maxHandles} (h : j ≠ i) :
    (t.freeSlot i).objects j = t.objects j := by
  simp [freeSlot, Function.update, h]

theorem freeSlot_counters_of_ne (t : HandleTable α) {i j : Fin maxHandles} (h : j ≠ i) :
    (t.freeSlot i).counters j = t.counters j := by
  simp [freeSlot, Function.update, h]

theorem freeSlot_handleOf_of_ne (t : HandleTable α) {i j : Fin maxHandles} (h : j ≠ i) :
    (t.freeSlot i).handleOf j = t.handleOf j := by
  rw [handleOf, handleOf, freeSlot_counters_of_ne t h]

theorem Listed.activeHandles_freeSlot {t : HandleTable α} {free : List (Fin maxHandles)}
    (h : t.Listed free) {i : Fin maxHandles} (hi : i ∉ free) :
    (t.freeSlot i).activeHandles.toNat + 1 = t.activeHandles.toNat := by
  have hlength : (i :: free).length ≤ maxHandles := by
    have hle := (List.nodup_cons.mpr ⟨hi, h.nodup⟩).length_le_card
    rwa [Fintype.card_fin] at hle
  have hactive := h.active
  rw [List.length_cons] at hlength
  change (t.activeHandles - 1).toNat + 1 = t.activeHandles.toNat
  bv_omega

theorem Listed.freeSlot {t : HandleTable α} {free : List (Fin maxHandles)} (h : t.Listed free)
    {i : Fin maxHandles} (hi : i ∉ free) : (t.freeSlot i).Listed (i :: free) := by
  have hne : ∀ j ∈ free, j ≠ i := fun j hj he => hi (he ▸ hj)
  refine ⟨⟨rfl, ?_⟩, List.nodup_cons.mpr ⟨hi, h.nodup⟩, ?_, ?_⟩
  · have hself : (t.freeSlot i).counters i = t.indiceIter.setWidth 16 := by
      simp [HandleTable.freeSlot]
    dsimp only
    rw [hself, FreeChain.signExtend h.chain]
    apply Chain.congr h.chain
    intro j hj
    rw [freeSlot_counters_of_ne t (hne j hj)]
  · intro j hj
    rcases List.mem_cons.mp hj with rfl | hj
    · simp [HandleTable.freeSlot]
    · rw [freeSlot_objects_of_ne t (hne j hj)]
      exact h.free_object j hj
  · have hactive := h.active
    have hfreed := h.activeHandles_freeSlot hi
    rw [List.length_cons]
    omega

/-- After a release the live entries are the ones from before without the freed handle. -/
theorem Represents.live_freeSlot {t : HandleTable α} {free : List (Fin maxHandles)}
    {M : HandleMap α} (h : t.Represents free M) (i : Fin maxHandles) (handle : BitVec 32)
    (o : α) :
    (M.erase (t.handleOf i)).lookup handle = some o ↔
      ∃ j, j ∉ i :: free ∧ handle = (t.freeSlot i).handleOf j ∧
        (t.freeSlot i).objects j = some o := by
  by_cases hh : handle = t.handleOf i
  · subst handle
    simp only [Finmap.lookup_erase, reduceCtorEq, false_iff, not_exists, not_and]
    intro j hj he
    exact (hj (by simp [handleOf_slot_inj he])).elim
  · rw [Finmap.lookup_erase_ne hh, h.live]
    constructor
    · rintro ⟨j, hj, he, ho⟩
      have hji : j ≠ i := fun hij => hh (by rw [he, hij])
      refine ⟨j, by simp [hj, hji], ?_, ?_⟩
      · rw [he, freeSlot_handleOf_of_ne t hji]
      · rw [freeSlot_objects_of_ne t hji, ho]
    · rintro ⟨j, hj, he, ho⟩
      simp only [List.mem_cons, not_or] at hj
      refine ⟨j, hj.2, ?_, ?_⟩
      · rw [he, freeSlot_handleOf_of_ne t hj.1]
      · rw [← freeSlot_objects_of_ne t hj.1, ho]

/-- Freeing removes one reservation and no other. -/
theorem Represents.freeSlot {t : HandleTable α} {free : List (Fin maxHandles)}
    {M : HandleMap α} (h : t.Represents free M) {i : Fin maxHandles} (hi : i ∉ free) :
    (t.freeSlot i).Represents (i :: free) (M.erase (t.handleOf i)) := by
  obtain ⟨object, hobject⟩ := h.used_object i hi
  have hlive : t.handleOf i ∈ M :=
    Finmap.mem_iff.mpr ⟨object, (h.live _ _).mpr ⟨i, hi, rfl, hobject⟩⟩
  have hlisted := h.listed.freeSlot hi
  refine ⟨hlisted.chain, hlisted.nodup, hlisted.free_object, ?_, ?_, h.counter_range,
    hlisted.active, ?_, ?_⟩
  · intro j hj
    simp only [List.mem_cons, not_or] at hj
    rw [freeSlot_objects_of_ne t hj.1]
    exact h.used_object j hj.2
  · intro j hj
    simp only [List.mem_cons, not_or] at hj
    rw [freeSlot_counters_of_ne t hj.1]
    exact h.used_counter j hj.2
  · rw [Finmap.keys_erase, Finset.card_erase_of_mem (Finmap.mem_keys.mpr hlive), h.card,
      ← h.listed.activeHandles_freeSlot hi, Nat.add_sub_cancel]
  · exact h.live_freeSlot i

/-! ### Runs -/

/-- The tables reached from `Initialize` by reserving non-null objects and freeing
handles with a slot index below `MaxHandles`, with the reservations still live. -/
inductive Run : HandleTable α → HandleMap α → Prop where
  | start (t : HandleTable α) : Run t.initializeTable ∅
  | reserved {t t' M object handle} : Run t M →
      t.reserveHandle (some object) = .ok (some handle, t') → Run t' (M.insert handle object)
  | refused {t t' M object} : Run t M →
      t.reserveHandle (some object) = .ok (none, t') → Run t' M
  | freed {t t' M handle} : Run t M → (handle &&& 0x7fff).toNat < maxHandles →
      t.freeHandle handle = .ok (true, t') → Run t' (M.erase handle)
  | notFreed {t t' M handle} : Run t M → (handle &&& 0x7fff).toNat < maxHandles →
      t.freeHandle handle = .ok (false, t') → Run t' M

theorem Run.represents {t : HandleTable α} {M : HandleMap α} (h : Run t M) :
    ∃ free, t.Represents free M := by
  induction h with
  | start t => exact ⟨_, initializeTable_represents t⟩
  | @reserved t t' M object handle _ hstep ih =>
      obtain ⟨free, hr⟩ := ih
      by_cases hroom : M.keys.card < maxHandles
      · obtain ⟨i, rest, rfl, hreserve⟩ := hr.reserveHandle_of_lt hroom (some object)
        rw [hreserve] at hstep
        cases hstep
        exact ⟨rest, hr.reserveSlot object⟩
      · rw [hr.full (Nat.le_of_not_lt hroom)] at hstep
        cases hstep
  | @refused t t' M object _ hstep ih =>
      obtain ⟨free, hr⟩ := ih
      by_cases hroom : M.keys.card < maxHandles
      · obtain ⟨i, rest, rfl, hreserve⟩ := hr.reserveHandle_of_lt hroom (some object)
        rw [hreserve] at hstep
        cases hstep
      · rw [hr.full (Nat.le_of_not_lt hroom)] at hstep
        cases hstep
        exact ⟨free, hr⟩
  | @freed t t' M handle _ hindex hstep ih =>
      obtain ⟨free, hr⟩ := ih
      by_cases hm : handle ∈ M
      · obtain ⟨i, hi, rfl, hfree⟩ := hr.freeHandle_of_mem hm
        rw [hfree] at hstep
        cases hstep
        exact ⟨_, hr.freeSlot hi⟩
      · rw [hr.freeHandle_of_notMem hindex hm] at hstep
        cases hstep
  | @notFreed t t' M handle _ hindex hstep ih =>
      obtain ⟨free, hr⟩ := ih
      by_cases hm : handle ∈ M
      · obtain ⟨i, hi, rfl, hfree⟩ := hr.freeHandle_of_mem hm
        rw [hfree] at hstep
        cases hstep
      · rw [hr.freeHandle_of_notMem hindex hm] at hstep
        cases hstep
        exact ⟨free, hr⟩

/-- A reservation is refused, or it adds a new handle. -/
theorem Run.reserveHandle_cases {t : HandleTable α} {M : HandleMap α} (h : Run t M) (object : α) :
    t.reserveHandle (some object) = .ok (none, t) ∨
    ∃ handle t', t.reserveHandle (some object) = .ok (some handle, t') ∧ handle ∉ M ∧
      Run t' (M.insert handle object) := by
  obtain ⟨free, hr⟩ := h.represents
  by_cases hroom : M.keys.card < maxHandles
  · obtain ⟨i, rest, rfl, hstep⟩ := hr.reserveHandle_of_lt hroom (some object)
    exact Or.inr ⟨_, _, hstep, hr.handle_new (some object), h.reserved hstep⟩
  · exact Or.inl (hr.full (Nat.le_of_not_lt hroom) _)

/-- A live handle finds its object. -/
theorem Run.getObjectByHandle_of_lookup {t : HandleTable α} {M : HandleMap α} (h : Run t M)
    {handle : BitVec 32} {object : α} (hlookup : M.lookup handle = some object) :
    t.getObjectByHandle handle = .ok (some object) := by
  obtain ⟨free, hr⟩ := h.represents
  obtain ⟨i, -, he, -⟩ := (hr.live _ _).mp hlookup
  have hindex : (handle &&& 0x7fff).toNat < maxHandles := by
    rw [((t.eq_handleOf_iff i handle).mp he).1]
    exact i.isLt
  rw [hr.getObjectByHandle_eq handle hindex, hlookup]

/-- What a handle finds is its entry. -/
theorem Run.lookup_of_getObjectByHandle {t : HandleTable α} {M : HandleMap α} (h : Run t M)
    {handle : BitVec 32} {object : α} (hget : t.getObjectByHandle handle = .ok (some object)) :
    M.lookup handle = some object := by
  obtain ⟨free, hr⟩ := h.represents
  by_cases hindex : (handle &&& 0x7fff).toNat < maxHandles
  · rw [hr.getObjectByHandle_eq handle hindex] at hget
    exact Except.ok.inj hget
  · simp only [getObjectByHandle, hindex, dite_false] at hget
    split_ifs at hget <;> cases hget

/-- A slot is free if no live handle has its index. -/
def SlotFree (M : HandleMap α) (i : Fin maxHandles) : Prop :=
  ∀ handle ∈ M, (handle &&& 0x7fff).toNat ≠ i

theorem Represents.slotFree_iff {t : HandleTable α} {free : List (Fin maxHandles)}
    {M : HandleMap α} (h : t.Represents free M) (i : Fin maxHandles) :
    SlotFree M i ↔ i ∈ free := by
  constructor
  · intro hfree
    by_contra hi
    obtain ⟨object, ho⟩ := h.used_object i hi
    have hm : t.handleOf i ∈ M := Finmap.mem_iff.mpr ⟨object, (h.live _ _).mpr ⟨i, hi, rfl, ho⟩⟩
    exact hfree _ hm ((t.eq_handleOf_iff i _).mp rfl).1
  · intro hi handle hm he
    obtain ⟨object, ho⟩ := Finmap.mem_iff.mp hm
    obtain ⟨j, hj, hh, -⟩ := (h.live _ _).mp ho
    have hji : j = i := Fin.ext (((t.eq_handleOf_iff j handle).mp hh).1.symm.trans he)
    exact hj (hji ▸ hi)

/-- After every run the table behaves like the finite map of its live handles. -/
theorem run_refines_map {t : HandleTable α} {M : HandleMap α} (h : Run t M) :
    (∀ object,
      (M.keys.card < maxHandles → ∃ handle t',
        t.reserveHandle (some object) = .ok (some handle, t') ∧ handle ∉ M ∧
          Run t' (M.insert handle object)) ∧
      (maxHandles ≤ M.keys.card → t.reserveHandle (some object) = .ok (none, t))) ∧
    (∀ handle, (handle &&& 0x7fff).toNat < maxHandles →
      t.getObjectByHandle handle = .ok (M.lookup handle) ∧
      (handle ∈ M → ∃ t', t.freeHandle handle = .ok (true, t') ∧ Run t' (M.erase handle)) ∧
      (handle ∉ M → t.freeHandle handle = .ok (false, t))) ∧
    ∃ free, t.FreeChain t.indiceIter free ∧ free.Nodup ∧ ∀ i, i ∈ free ↔ SlotFree M i := by
  obtain ⟨free, hr⟩ := h.represents
  refine ⟨?_, ?_, free, hr.chain, hr.nodup, fun i => (hr.slotFree_iff i).symm⟩
  · intro object
    refine ⟨?_, fun hfull => hr.full hfull _⟩
    intro hroom
    obtain ⟨i, rest, rfl, hstep⟩ := hr.reserveHandle_of_lt hroom (some object)
    exact ⟨_, _, hstep, hr.handle_new (some object), h.reserved hstep⟩
  · intro handle hindex
    refine ⟨hr.getObjectByHandle_eq handle hindex, ?_, hr.freeHandle_of_notMem hindex⟩
    intro hm
    obtain ⟨i, -, -, hfree⟩ := hr.freeHandle_of_mem hm
    exact ⟨_, hfree, h.freed hindex hfree⟩

/-- The first reservation of a new table takes slot 255 with generation 1. -/
theorem reserveHandle_initializeTable (t : HandleTable α) (object : Option α) :
    ∃ t', t.initializeTable.reserveHandle object = .ok (some 0x80ff, t') := by
  have hstep := reserveHandle_eq t.initializeTable ⟨255, by decide⟩ object
    (by rw [← (initializeTable_represents t).card, Finmap.keys_empty]; decide)
    (by rw [initializeTable_indiceIter]; rfl)
  have hvalue : t.initializeTable.counterValue = 1 := by
    rw [initializeTable, (foldl_initializeSlot _ _).2.2.2]
  have hhandle : (t.initializeTable.reserveSlot ⟨255, by decide⟩ object).handleOf
      ⟨255, by decide⟩ = 0x80ff := by
    simp only [handleOf, reserveSlot, Function.update_self, hvalue]
    decide
  rw [hhandle] at hstep
  exact ⟨_, hstep⟩

theorem run_refines_map_reserved : ∃ t : HandleTable ℕ, Run t (Finmap.insert 0x80ff 7 ∅) ∧
    t.getObjectByHandle 0x80ff = .ok (some 7) ∧ t.getObjectByHandle 0x100ff = .ok none := by
  obtain ⟨t', hstep⟩ := reserveHandle_initializeTable
    (⟨fun _ => 0, fun _ => none, 0, 0, 0⟩ : HandleTable ℕ) (some 7)
  have hrun := (Run.start _).reserved hstep
  have hmap := (run_refines_map hrun).2.1
  refine ⟨t', hrun, ?_, ?_⟩
  · rw [(hmap 0x80ff (by decide)).1, Finmap.lookup_insert]
  · rw [(hmap 0x100ff (by decide)).1, Finmap.lookup_insert_of_ne _ (by decide),
      Finmap.lookup_empty]

end DDFramework.HandleTable
