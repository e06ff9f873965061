import DDFramework.Library.SlotStack
import DDFramework.Model.HeapObjectAllocator

/-! # Slots of a `HeapObjectAllocator`

`Initialize` links every slot but the last, whose storage keeps the word that it had. The chain
of free slots ends with this word. -/

namespace DDFramework.HeapObjectAllocator

variable {size : ObjectSize} {buffer : MemoryAddress} {memory : WordMemory}

/-! ### The buffer -/

def slots (size : ObjectSize) (buffer : MemoryAddress) (count : ℕ) : List MemoryAddress :=
  (List.range count).map (listArray size buffer)

@[simp] theorem length_slots {count : ℕ} : (slots size buffer count).length = count := by
  simp [slots]

theorem listArray_injective : Function.Injective (listArray size buffer) := by
  intro i j h
  have hpos : 0 < size.val := by have := size.property; omega
  exact Nat.eq_of_mul_eq_mul_right hpos (Nat.add_left_cancel h)

theorem nodup_slots {count : ℕ} : (slots size buffer count).Nodup :=
  List.nodup_range.map listArray_injective

theorem ne_zero_of_mem_slots {count : ℕ} (hbuffer : buffer ≠ 0) {object : MemoryAddress}
    (h : object ∈ slots size buffer count) : object ≠ 0 := by
  obtain ⟨i, -, rfl⟩ := List.mem_map.mp h
  exact Nat.ne_of_gt (Nat.add_pos_left (Nat.pos_of_ne_zero hbuffer) _)

theorem constructFreeList_listArray (k i : ℕ) :
    constructFreeList size buffer k memory (listArray size buffer i) =
      if i < k then listArray size buffer (i + 1) else memory (listArray size buffer i) := by
  induction k with
  | zero => rfl
  | succ k ih =>
      rw [constructFreeList]
      by_cases hi : i = k
      · rw [hi, Function.update_self, if_pos (Nat.lt_succ_self k)]
      · rw [Function.update_of_ne (listArray_injective.ne hi), ih]
        have hlt : i < k + 1 ↔ i < k := by omega
        simp only [hlt]

/-- The chain of the initialized slots ends with what the last one held before. -/
theorem chain_constructFreeList (k : ℕ) :
    Chain id (constructFreeList size buffer k memory) (memory (listArray size buffer k)) buffer
      (slots size buffer (k + 1)) := by
  have hlinks : ∀ i, 0 ≤ i → i < 0 + k →
      constructFreeList size buffer k memory (listArray size buffer i) =
        listArray size buffer (i + 1) := by
    intro i _ hi
    rw [constructFreeList_listArray, if_pos (by omega)]
  have hchain := (chain_range' k 0 hlinks).map
  have hlast : constructFreeList size buffer k memory (listArray size buffer (0 + k)) =
      memory (listArray size buffer k) := by
    rw [Nat.zero_add, constructFreeList_listArray, if_neg (lt_irrefl k)]
  have hfirst : listArray size buffer 0 = buffer := by simp [listArray]
  rwa [hlast, hfirst, ← List.range_eq_range'] at hchain

/-! ### `Initialize` -/

/-- The states in which a successful `Initialize` leaves the allocator and the memory. -/
inductive Initialized (size : ObjectSize) (elementCount : BitVec 32) (memory : WordMemory) :
    MemoryAddress → HeapObjectAllocator → WordMemory → Prop
  | fromHeap {a a' : HeapObjectAllocator} {allocate : ℕ → MemoryAddress} {memory' : WordMemory}
      (h : a.initializeFromHeap size allocate elementCount memory = (true, a', memory')) :
      Initialized size elementCount memory (allocate (size.val * elementCount.toNat)) a' memory'
  | fromBuffer {a a' : HeapObjectAllocator} {buffer : MemoryAddress} {memory' : WordMemory}
      (h : a.initializeFromBuffer size buffer elementCount memory = (true, a', memory')) :
      Initialized size elementCount memory buffer a' memory'

theorem toNat_pos {elementCount : BitVec 32} (h : elementCount ≠ 0) : 0 < elementCount.toNat :=
  Nat.pos_of_ne_zero fun he => h (BitVec.eq_of_toNat_eq he)

theorem initializeSlots_eq {a a' : HeapObjectAllocator} {elementCount : BitVec 32}
    {memory' : WordMemory}
    (h : a.initializeSlots size buffer elementCount memory = (true, a', memory')) :
    buffer ≠ 0 ∧ a'.freeList = buffer ∧
      memory' = constructFreeList size buffer (elementCount - 1).toNat memory := by
  unfold initializeSlots at h
  split at h
  · cases h
  · rename_i hbuffer
    cases h
    exact ⟨hbuffer, rfl, rfl⟩

variable {a : HeapObjectAllocator} {elementCount : BitVec 32} {memory' : WordMemory}

/-- Both `Initialize` succeed only on a buffer with slots, which they link. -/
theorem Initialized.spec (h : Initialized size elementCount memory buffer a memory') :
    elementCount ≠ 0 ∧ buffer ≠ 0 ∧ a.freeList = buffer ∧
      memory' = constructFreeList size buffer (elementCount.toNat - 1) memory := by
  have hcount : elementCount ≠ 0 → (elementCount - 1).toNat = elementCount.toNat - 1 := by
    intro hne
    have hpos := toNat_pos hne
    have hone : (1 : BitVec 32).toNat = 1 := rfl
    rw [BitVec.toNat_sub, hone]
    omega
  cases h with
  | fromHeap h =>
      unfold initializeFromHeap at h
      split at h
      · cases h
      · rename_i hne
        have hspec := initializeSlots_eq h
        rw [hcount hne] at hspec
        exact ⟨hne, hspec⟩
  | fromBuffer h =>
      unfold initializeFromBuffer at h
      split at h
      · cases h
      · rename_i hne
        have hspec := initializeSlots_eq h
        rw [hcount hne] at hspec
        exact ⟨hne, hspec⟩

/-! ### Clients -/

/-- An allocator with its memory, and the objects that its clients have. -/
structure Use where
  allocator : HeapObjectAllocator
  memory : WordMemory
  live : List MemoryAddress

namespace Use

inductive Step where
  | allocate (constructed : MemoryAddress)
  | free (object : MemoryAddress)
  | write (object word : MemoryAddress)

/-- Clients free and write only objects that they have. -/
def next (u : Use) : Step → Option Use
  | .allocate constructed =>
    match u.allocator.allocate constructed u.memory with
    | (object, a, memory) => some ⟨a, memory, if object = 0 then u.live else object :: u.live⟩
  | .free object =>
    if object ∈ u.live then
      match u.allocator.free object u.memory with
      | (a, memory) => some ⟨a, memory, u.live.erase object⟩
    else none
  | .write object word =>
    if object ∈ u.live then some { u with memory := Function.update u.memory object word }
    else none

/-- The next `Allocate` returns a slot that is not live, or null if every slot is live. -/
def AllocatesFreeSlot (u : Use) (slots : List MemoryAddress) : Prop :=
  ∀ constructed, let object := (u.allocator.allocate constructed u.memory).1
    (object ≠ 0 → object ∈ slots ∧ object ∉ u.live) ∧
      (object = 0 ↔ u.live.length = slots.length)

/-- The chain of links holds the slots that are not live, and ends with `stop`. -/
def Chained (u : Use) (all : List MemoryAddress) (stop : MemoryAddress)
    (free : List MemoryAddress) : Prop :=
  Chain id u.memory stop u.allocator.freeList free ∧ SlotStack.Partitions ⟨free, u.live⟩ all

variable {u u' : Use} {all free : List MemoryAddress} {object stop : MemoryAddress}

theorem allocate_fst (u : Use) (constructed : MemoryAddress) :
    (u.allocator.allocate constructed u.memory).1 = u.allocator.freeList := by
  unfold allocate
  split
  · rename_i hnull
    exact hnull.symm
  · rfl

theorem allocatesFreeSlot_iff : u.AllocatesFreeSlot all ↔
    (u.allocator.freeList ≠ 0 → u.allocator.freeList ∈ all ∧ u.allocator.freeList ∉ u.live) ∧
      (u.allocator.freeList = 0 ↔ u.live.length = all.length) := by
  simp only [AllocatesFreeSlot, allocate_fst, forall_const]

namespace Chained

theorem notMem_free (h : u.Chained all stop free) (hall : all.Nodup) (hobject : object ∈ u.live) :
    object ∉ free :=
  fun hfree => ((h.2.mem_free_iff hall).mp hfree).2 hobject

/-- An allocation takes the first slot of the chain, whatever the chain ends with. -/
theorem allocate (h : u.Chained all stop (object :: free)) (hall : all.Nodup) (hzero : 0 ∉ all)
    (word : MemoryAddress) : ∃ t, u.next (.allocate word) = some t ∧ t.Chained all stop free := by
  have hhead : u.allocator.freeList = object := h.1.1
  have hmem : object ∈ all := ((h.2.mem_free_iff hall).mp List.mem_cons_self).1
  have hne : object ≠ 0 := fun he => hzero (he ▸ hmem)
  have hnot : object ∉ free := (List.nodup_cons.mp (h.2.free_nodup hall)).1
  simp only [next, HeapObjectAllocator.allocate, hhead, if_neg hne, Option.some.injEq]
  exact ⟨_, rfl, h.1.2.update hnot, h.2.pop⟩

/-- With a chain that ends with null, the clients can do what they want. -/
theorem step (h : u.Chained all 0 free) (hall : all.Nodup) (hzero : 0 ∉ all) {s : Step}
    (hs : u.next s = some u') : ∃ free', u'.Chained all 0 free' := by
  cases s with
  | allocate constructed =>
      cases free with
      | nil =>
          have hnull : u.allocator.freeList = 0 := h.1
          simp only [next, HeapObjectAllocator.allocate, hnull, if_pos] at hs
          cases hs
          exact ⟨[], h⟩
      | cons object free =>
          obtain ⟨t, ht, hfree⟩ := h.allocate hall hzero constructed
          exact ⟨free, Option.some.inj (ht.symm.trans hs) ▸ hfree⟩
  | free object =>
      rw [next, Option.ite_none_right_eq_some] at hs
      obtain ⟨hobject, hs⟩ := hs
      cases hs
      exact ⟨object :: free, h.1.push (h.notMem_free hall hobject), h.2.push hobject⟩
  | write object word =>
      rw [next, Option.ite_none_right_eq_some] at hs
      obtain ⟨hobject, hs⟩ := hs
      cases hs
      exact ⟨free, h.1.update (h.notMem_free hall hobject), h.2⟩

theorem allocatesFreeSlot (h : u.Chained all 0 free) (hall : all.Nodup) (hzero : 0 ∉ all) :
    u.AllocatesFreeSlot all := by
  have hstop : ∀ object ∈ free, id object ≠ 0 := by
    intro object hobject he
    exact hzero (he ▸ ((h.2.mem_free_iff hall).mp hobject).1)
  rw [allocatesFreeSlot_iff, h.1.eq_stop_iff hstop, h.2.free_eq_nil_iff]
  refine ⟨fun hne => ?_, Iff.rfl⟩
  cases free with
  | nil => exact (hne h.1).elim
  | cons object free =>
      have hhead : u.allocator.freeList = object := h.1.1
      rw [hhead]
      exact (h.2.mem_free_iff hall).mp List.mem_cons_self

/-- The clients can allocate until the chain is used up. -/
theorem exhaust {start : Use} (h : u.Chained all stop free) (hall : all.Nodup) (hzero : 0 ∉ all)
    (hreach : Machine.Reaches next start u) :
    ∃ t, Machine.Reaches next start t ∧ t.Chained all stop [] := by
  induction free generalizing u with
  | nil => exact ⟨u, hreach, h⟩
  | cons object free ih =>
      obtain ⟨t, ht, hfree⟩ := h.allocate hall hzero 0
      exact ih hfree (.step hreach trivial ht)

theorem reaches {start : Use} (h : start.Chained all 0 free) (hall : all.Nodup)
    (hzero : 0 ∉ all) (hreach : Machine.Reaches next start u) :
    ∃ free', u.Chained all 0 free' := by
  induction hreach with
  | start => exact ⟨free, h⟩
  | step _ _ htaken ih =>
      obtain ⟨free', hchained⟩ := ih
      exact hchained.step hall hzero htaken

end Chained

end Use

/-! ### Runs -/

theorem Initialized.zero_notMem (h : Initialized size elementCount memory buffer a memory') :
    0 ∉ slots size buffer elementCount.toNat :=
  fun hm => ne_zero_of_mem_slots h.spec.2.1 hm rfl

/-- At the start the chain ends with the word that the last slot held before. -/
theorem Initialized.chained (h : Initialized size elementCount memory buffer a memory') :
    Use.Chained ⟨a, memory', []⟩ (slots size buffer elementCount.toNat)
      (memory (listArray size buffer (elementCount.toNat - 1)))
      (slots size buffer elementCount.toNat) := by
  obtain ⟨hcount, -, hfree, rfl⟩ := h.spec
  have hchain : Chain id (constructFreeList size buffer (elementCount.toNat - 1) memory) _ buffer
      (slots size buffer (elementCount.toNat - 1 + 1)) := chain_constructFreeList _
  rw [Nat.sub_add_cancel (toNat_pos hcount)] at hchain
  exact ⟨hfree ▸ hchain, .of_eq (List.append_nil _)⟩

/-- Every allocation of every run is right exactly when the last slot of the buffer held a null
pointer before `Initialize`. -/
theorem reaches_allocatesFreeSlot_iff
    (h : Initialized size elementCount memory buffer a memory') :
    (∀ u, Machine.Reaches Use.next ⟨a, memory', []⟩ u →
      u.AllocatesFreeSlot (slots size buffer elementCount.toNat)) ↔
    memory (listArray size buffer (elementCount.toNat - 1)) = 0 := by
  have hstart := h.chained
  constructor
  · intro hall
    obtain ⟨t, hreach, hchain, hpart⟩ := hstart.exhaust nodup_slots h.zero_notMem .start
    have hfull := hpart.free_eq_nil_iff.mp rfl
    have hnull := (Use.allocatesFreeSlot_iff.mp (hall t hreach)).2.mpr hfull
    exact hchain.symm.trans hnull
  · intro hlast u hu
    rw [hlast] at hstart
    obtain ⟨free, hchained⟩ := hstart.reaches nodup_slots h.zero_notMem hu
    exact hchained.allocatesFreeSlot nodup_slots h.zero_notMem

/-- Two of three slots are taken from a zeroed buffer, and the first of them is given back. -/
theorem reaches_allocatesFreeSlot_zeroed : ∃ memory' u,
    Initialized ⟨16, by decide⟩ 3 (fun _ => 0) 4096 ⟨4096, 4096⟩ memory' ∧
    Machine.run Use.next ⟨⟨4096, 4096⟩, memory', []⟩
      [.allocate 5, .allocate 6, .write 4112 7, .free 4096] = some u ∧
    u.live = [4112] ∧ u.AllocatesFreeSlot (slots ⟨16, by decide⟩ 4096 3) := by
  have hinit : Initialized ⟨16, by decide⟩ 3 (fun _ => 0) 4096 ⟨4096, 4096⟩
      (constructFreeList ⟨16, by decide⟩ 4096 2 fun _ => 0) :=
    .fromBuffer (a := ⟨0, 0⟩) rfl
  obtain ⟨u, hrun, hlive⟩ : ∃ u, Machine.run Use.next
      ⟨⟨4096, 4096⟩, constructFreeList ⟨16, by decide⟩ 4096 2 fun _ => 0, []⟩
      [.allocate 5, .allocate 6, .write 4112 7, .free 4096] = some u ∧ u.live = [4112] :=
    ⟨_, rfl, rfl⟩
  exact ⟨_, u, hinit, hrun, hlive, (reaches_allocatesFreeSlot_iff hinit).mpr rfl u (.of_run hrun)⟩

/-- A buffer of one slot that begins with its own address, as a list head does that somebody has
left there. The slot is handed out a second time. -/
theorem allocates_leftover_word :
    ∃ a memory' u,
      Initialized ⟨8, le_rfl⟩ 1 (fun _ => 4096) 4096 a memory' ∧
      Machine.Reaches Use.next ⟨a, memory', []⟩ u ∧ u.live = [4096] ∧
      (u.allocator.allocate 0 u.memory).1 = 4096 ∧
      ¬ u.AllocatesFreeSlot (slots ⟨8, le_rfl⟩ 4096 1) := by
  refine ⟨⟨4096, 4096⟩, fun _ => 4096,
    ⟨⟨4096, 4096⟩, Function.update (fun _ => 4096) 4096 0, [4096]⟩,
    .fromBuffer (a := ⟨0, 0⟩) rfl, ?_, rfl, rfl, ?_⟩
  · exact .step (a := .allocate 0) .start trivial rfl
  · intro h
    exact absurd ((h 0).2.mpr rfl) (by decide)

end DDFramework.HeapObjectAllocator
