import DDFramework.Model.Heap
import DDFramework.Verification.ExpHeap.Allocation
import DDFramework.Verification.IntrusiveList.RangeFor
import Mathlib.Data.List.Pairwise
import Mathlib.Order.Interval.Set.Disjoint

/-! # The reported maximum

`GetMaximumAllocatableSize` measures the free blocks. `TryAllocate` refuses every size for which
it finds one, and searches for a larger size in vain. The two agree only where there is no free
block. -/

namespace DDFramework.ExpHeap

variable {heap : ExpHeap} {blocks : List UIntPtr} {k : ℕ}

/-! ### What the loop computes -/

/-- The size of a block behind the first aligned address, as the loop computes it. -/
def usableSize (heap : ExpHeap) (block : UIntPtr) (alignment : BitVec 64) : BitVec 64 :=
  block + blockHeaderSize + (heap.memory block).blockSize - allocationAddressIn block alignment

/-- One iteration. -/
def maximumBody (heap : ExpHeap) (alignment : BitVec 64) (node : UIntPtr)
    (maxFreeSize : BitVec 64) : Except Fault (LoopExit (BitVec 64)) :=
  .ok (.next (if maxFreeSize < heap.usableSize (getParent node) alignment then
    heap.usableSize (getParent node) alignment else maxFreeSize))

theorem visit_maximumBody (heap : ExpHeap) (alignment : BitVec 64) (blocks : List UIntPtr)
    (start : BitVec 64) :
    ∃ maximum, visit (heap.maximumBody alignment) (blocks.map getListNode) .ok start =
        .ok maximum ∧ start ≤ maximum ∧
      (∀ block ∈ blocks, heap.usableSize block alignment ≤ maximum) ∧
      (maximum = start ∨ ∃ block ∈ blocks, maximum = heap.usableSize block alignment) := by
  induction blocks generalizing start with
  | nil => exact ⟨start, rfl, BitVec.le_refl start, by simp, Or.inl rfl⟩
  | cons block blocks ih =>
      rw [List.map_cons, visit_next rfl, getParent_getListNode]
      by_cases hlarger : start < heap.usableSize block alignment
      · rw [if_pos hlarger]
        obtain ⟨maximum, hvisit, hstart, hall, hsome⟩ := ih (heap.usableSize block alignment)
        refine ⟨maximum, hvisit, BitVec.le_trans (BitVec.le_of_lt hlarger) hstart, ?_, Or.inr ?_⟩
        · simpa using ⟨hstart, hall⟩
        · rcases hsome with rfl | ⟨other, hm, he⟩
          · exact ⟨block, List.mem_cons_self, rfl⟩
          · exact ⟨other, List.mem_cons_of_mem block hm, he⟩
      · rw [if_neg hlarger]
        obtain ⟨maximum, hvisit, hstart, hall, hsome⟩ := ih start
        refine ⟨maximum, hvisit, hstart, ?_, hsome.imp_right ?_⟩
        · simpa using ⟨BitVec.le_trans (BitVec.not_lt.mp hlarger) hstart, hall⟩
        · exact fun ⟨other, hm, he⟩ => ⟨other, List.mem_cons_of_mem block hm, he⟩

/-- The result bounds what every block offers, and some block offers it unless it is zero. -/
theorem WellFormedList.getMaximumAllocatableSize_spec (h : heap.WellFormedList blocks)
    (alignment : BitVec 32) :
    ∃ maximum, heap.getMaximumAllocatableSize alignment = .ok maximum ∧
      (∀ block ∈ blocks, heap.usableSize block (alignment.signExtend 64) ≤ maximum) ∧
      (maximum = 0 ∨ ∃ block ∈ blocks,
        maximum = heap.usableSize block (alignment.signExtend 64)) := by
  obtain ⟨maximum, hvisit, -, hall, hsome⟩ :=
    visit_maximumBody heap (alignment.signExtend 64) blocks 0
  have hloop : heap.getMaximumAllocatableSize alignment =
      visit (heap.maximumBody (alignment.signExtend 64)) (blocks.map getListNode) .ok 0 :=
    rangeFor_eq_visit (fun _ => True) h.coherent h.freeBlocks (ring_length_lt h.freeBlocks)
      (fun _ _ _ _ _ _ => ⟨rfl, trivial⟩) trivial
  exact ⟨maximum, hloop.trans hvisit, hall, hsome⟩

/-! ### In natural numbers -/

theorem signExtend_twoPow (hk : k < 31) :
    (BitVec.twoPow 32 k).signExtend 64 = BitVec.twoPow 64 k := by
  revert k
  decide

theorem effectiveAlignment_twoPow (hgranularity : 2 ≤ k) (hk : k < 31) :
    effectiveAlignment (BitVec.twoPow 32 k) = BitVec.twoPow 64 k := by
  revert k
  decide

/-- The first aligned address behind the header. -/
def payloadStart (block : UIntPtr) (k : ℕ) : ℕ :=
  roundUp (block.toNat + blockHeaderSize.toNat) (2 ^ k)

/-- The address behind a block. -/
def extentEnd (heap : ExpHeap) (block : UIntPtr) : ℕ :=
  block.toNat + blockHeaderSize.toNat + (heap.memory block).blockSize.toNat

theorem le_payloadStart (block : UIntPtr) (k : ℕ) :
    block.toNat + blockHeaderSize.toNat ≤ payloadStart block k :=
  le_roundUp _ (Nat.two_pow_pos k)

theorem toNat_allocationAddressIn (block : UIntPtr) (hk : k < 64) :
    (allocationAddressIn block (BitVec.twoPow 64 k)).toNat = payloadStart block k % 2 ^ 64 :=
  toNat_add_and_not_mask hk (BitVec.toNat_add _ _)

theorem toNat_usableSize {block : UIntPtr} (hend : heap.extentEnd block ≤ 2 ^ 64)
    (hk : k < 64) (hwrap : payloadStart block k ≤ heap.extentEnd block) :
    (heap.usableSize block (BitVec.twoPow 64 k)).toNat =
      heap.extentEnd block - payloadStart block k := by
  have hstart := le_payloadStart block k
  have haddress := toNat_allocationAddressIn block hk
  have hlt := (heap.memory block).blockSize.isLt
  have hheader : blockHeaderSize.toNat = 32 := rfl
  rw [usableSize, BitVec.toNat_sub, BitVec.toNat_add, BitVec.toNat_add, haddress]
  rw [extentEnd] at *
  omega

/-- The fit test without wrap. -/
theorem fits_iff {block : UIntPtr} {size : BitVec 64} (hk : k < 64)
    (hroom : payloadStart block k + size.toNat < 2 ^ 64 + block.toNat) :
    heap.fits block size (BitVec.twoPow 64 k) = true ↔
      payloadStart block k + size.toNat ≤ block.toNat + (heap.memory block).blockSize.toNat := by
  have hstart := le_payloadStart block k
  have hblock := block.isLt
  rw [fits, decide_eq_true_eq, BitVec.le_def, BitVec.toNat_sub, BitVec.toNat_add,
    toNat_allocationAddressIn block hk]
  omega

/-! ### The two sides compared -/

/-- The free blocks share no byte. -/
def Apart (heap : ExpHeap) (blocks : List UIntPtr) : Prop :=
  blocks.Pairwise fun b c => Disjoint (heap.extent b) (heap.extent c)

theorem Apart.le_or_le (h : heap.Apart blocks) {b c : UIntPtr} (hb : b ∈ blocks)
    (hc : c ∈ blocks) (hne : b ≠ c) :
    heap.extentEnd b ≤ c.toNat ∨ heap.extentEnd c ≤ b.toNat := by
  have : Std.Symm fun b c => Disjoint (heap.extent b) (heap.extent c) := ⟨fun _ _ hd => hd.symm⟩
  have hdisjoint := h.forall hb hc hne
  rw [extent, extent, Set.Ico_disjoint_Ico] at hdisjoint
  have hheader : blockHeaderSize.toNat = 32 := rfl
  rw [extentEnd, extentEnd]
  omega

/-- The multiple of the granularity behind a size. -/
def nextMultiple (size : BitVec 64) : BitVec 64 := BitVec.ofNat 64 ((size.toNat / 4 + 1) * 4)

/-- The maximum is zero or ends at the end of a block. -/
theorem WellFormedList.toNat_maximum (h : heap.WellFormedList blocks) (hk : k < 64)
    (hwrap : ∀ block ∈ blocks, payloadStart block k ≤ heap.extentEnd block)
    {maximum : BitVec 64} (hsome : maximum = 0 ∨ ∃ block ∈ blocks,
      maximum = heap.usableSize block (BitVec.twoPow 64 k)) :
    maximum.toNat = 0 ∨ ∃ block ∈ blocks,
      maximum.toNat = heap.extentEnd block - payloadStart block k := by
  rcases hsome with rfl | ⟨block, hm, rfl⟩
  · exact Or.inl rfl
  · exact Or.inr ⟨block, hm, toNat_usableSize (h.addressable block hm) hk (hwrap block hm)⟩

theorem WellFormedList.toNat_nextMultiple (h : heap.WellFormedList blocks) {maximum : BitVec 64}
    (hlargest : maximum.toNat = 0 ∨ ∃ block ∈ blocks,
      maximum.toNat = heap.extentEnd block - payloadStart block k) :
    (nextMultiple maximum).toNat = (maximum.toNat / 4 + 1) * 4 := by
  have hheader : blockHeaderSize.toNat = 32 := rfl
  have hobject : heapObjectSize.toNat = 152 := rfl
  rw [nextMultiple, BitVec.toNat_ofNat]
  apply Nat.mod_eq_of_lt
  rcases hlargest with hzero | ⟨block, hm, he⟩
  · omega
  · have hend : heap.extentEnd block ≤ 2 ^ 64 := h.addressable block hm
    have hbehind := h.behind block hm
    have hstart := le_payloadStart block k
    omega

/-- A larger size than any block offers passes no fit test, also where the test wraps. -/
theorem WellFormedList.not_fits_nextMultiple (h : heap.WellFormedList blocks)
    (hapart : heap.Apart blocks) (hk : k < 64)
    (hwrap : ∀ block ∈ blocks, payloadStart block k ≤ heap.extentEnd block)
    {maximum : BitVec 64}
    (hall : ∀ block ∈ blocks, heap.usableSize block (BitVec.twoPow 64 k) ≤ maximum)
    (hlargest : maximum.toNat = 0 ∨ ∃ block ∈ blocks,
      maximum.toNat = heap.extentEnd block - payloadStart block k) :
    ∀ block ∈ blocks, ¬ heap.fits block (nextMultiple maximum) (BitVec.twoPow 64 k) = true := by
  intro block hm
  have hheader : blockHeaderSize.toNat = 32 := rfl
  have hobject : heapObjectSize.toNat = 152 := rfl
  have hnext := h.toNat_nextMultiple hlargest
  have hend : heap.extentEnd block ≤ 2 ^ 64 := h.addressable block hm
  have hbehind := h.behind block hm
  have hinside := hwrap block hm
  have hstart := le_payloadStart block k
  have hmaximum := BitVec.le_def.mp (hall block hm)
  rw [toNat_usableSize hend hk hinside] at hmaximum
  have hroom : payloadStart block k + (nextMultiple maximum).toNat < 2 ^ 64 + block.toNat := by
    rcases hlargest with hzero | ⟨other, hm', he⟩
    · omega
    · have hend' : heap.extentEnd other ≤ 2 ^ 64 := h.addressable other hm'
      have hstart' := le_payloadStart other k
      by_cases hne : block = other
      · subst hne
        omega
      · rcases hapart.le_or_le hm hm' hne with hle | hle <;> omega
  rw [fits_iff hk hroom]
  rw [extentEnd] at hmaximum hinside
  omega

theorem effectiveSize_of_dvd {size : BitVec 64} (h : 4 ∣ size.toNat) : effectiveSize size = size := by
  apply BitVec.eq_of_toNat_eq
  have hfour : minimumAllocationGranularity.toNat = 4 := rfl
  rw [effectiveSize, alignUp_granularity, hfour, roundUp_of_dvd (by decide) h,
    Nat.mod_eq_of_lt size.isLt]

/-! ### The report -/

/-- The reported maximum can be allocated, every larger size is answered with null, no subtraction
wraps, and a child heap of the size 0 is created if a block can hold the maximum for the
granularity. -/
structure ReportsMaximum (m : HeapMemory) (parent : UIntPtr) (blocks : List UIntPtr)
    (alignment : BitVec 32) : Prop where
  allocates : ∀ maximum, (m.expHeap parent).getMaximumAllocatableSize alignment = .ok maximum →
    maximum ≠ 0 → ∃ address heap',
      (m.expHeap parent).tryAllocate maximum alignment = .ok (address, heap') ∧ address ≠ 0
  nothingLarger : ∀ maximum,
    (m.expHeap parent).getMaximumAllocatableSize alignment = .ok maximum →
      ∀ size, maximum < size → 4 ∣ size.toNat →
        ∃ heap', (m.expHeap parent).tryAllocate size alignment = .ok (0, heap')
  noWrap : ∀ block ∈ blocks, roundUp (block.toNat + blockHeaderSize.toNat) alignment.toNat ≤
    (m.expHeap parent).extentEnd block
  createsChild : ∀ maximum name currentThreadHeap,
    (m.expHeap parent).getMaximumAllocatableSize 4 = .ok maximum →
      HeapMemory.minimumHeapSize ≤ maximum →
        (∃ block ∈ blocks, (m.expHeap parent).CanHold block maximum alignment) →
          ∃ newHeap m', m.tryCreateIn currentThreadHeap 0 alignment name parent =
            .ok (newHeap, m') ∧ newHeap ≠ 0

variable {m : HeapMemory} {parent : UIntPtr}

/-- With a block on the free list, the search for the size behind the maximum is in vain. -/
theorem ReportsMaximum.eq_nil (hlist : (m.expHeap parent).WellFormedList blocks)
    (hapart : (m.expHeap parent).Apart blocks) (hgranularity : 2 ≤ k) (hk : k < 31)
    (h : ReportsMaximum m parent blocks (BitVec.twoPow 32 k)) : blocks = [] := by
  by_contra hne
  have hwidth : k < 64 := hk.trans (by decide)
  have hwrap : ∀ block ∈ blocks, payloadStart block k ≤ (m.expHeap parent).extentEnd block := by
    intro block hm
    have hle := h.noWrap block hm
    rwa [BitVec.toNat_twoPow_of_lt (hk.trans (by decide))] at hle
  obtain ⟨maximum, hget, hall, hsome⟩ :=
    hlist.getMaximumAllocatableSize_spec (BitVec.twoPow 32 k)
  rw [signExtend_twoPow hk] at hall hsome
  have hlargest := hlist.toNat_maximum hwidth hwrap hsome
  have hnext := hlist.toNat_nextMultiple hlargest
  have hdvd : 4 ∣ (nextMultiple maximum).toNat := hnext ▸ Nat.dvd_mul_left 4 _
  have hlarger : maximum < nextMultiple maximum := by
    rw [BitVec.lt_def, hnext]
    omega
  have hnot := hlist.not_fits_nextMultiple hapart hwidth hwrap hall hlargest
  rw [← effectiveSize_of_dvd hdvd, ← effectiveAlignment_twoPow hgranularity hk] at hnot
  obtain ⟨heap', htry⟩ := h.nothingLarger maximum hget _ hlarger hdvd
  exact tryAllocate_in_vain_ne hlist.coherent hlist.freeBlocks hne hnot heap' htry

/-- Of an empty free list zero is reported, and every request is answered with null. -/
theorem reportsMaximum_nil (hlist : (m.expHeap parent).WellFormedList [])
    (alignment : BitVec 32) : ReportsMaximum m parent [] alignment where
  allocates maximum hget hpos := by
    obtain ⟨maximum', hget', -, hsome⟩ := hlist.getMaximumAllocatableSize_spec alignment
    rw [hget'] at hget
    cases hget
    exact absurd (hsome.resolve_right (by simp)) hpos
  nothingLarger _ _ size _ _ := ⟨_, tryAllocate_of_empty hlist.freeBlocks size alignment⟩
  noWrap := by simp
  createsChild := by simp

/-- The report is right exactly where there is no free block to report. -/
theorem reportsMaximum_iff (hlist : (m.expHeap parent).WellFormedList blocks)
    (hapart : (m.expHeap parent).Apart blocks) (hgranularity : 2 ≤ k) (hk : k < 31) :
    ReportsMaximum m parent blocks (BitVec.twoPow 32 k) ↔ blocks = [] := by
  constructor
  · exact fun h => h.eq_nil hlist hapart hgranularity hk
  · rintro rfl
    exact reportsMaximum_nil hlist (BitVec.twoPow 32 k)

/-- A heap at 0x10000 whose memory is all in use. -/
def fullMemory : HeapMemory where
  memory _ := ⟨allocMagic, 0, 64⟩
  links := .detached UIntPtr
  objects _ := ⟨0x10098, 0x100f8, 0, ⟨[0x68], by decide⟩, .bestFit⟩

theorem fullMemory_wellFormedList : (fullMemory.expHeap 0x10000).WellFormedList [] where
  coherent := Links.detached_coherent
  freeBlocks := Links.ring_nil.mpr rfl
  behind := by simp
  addressable := by simp

theorem reportsMaximum_full : ReportsMaximum fullMemory 0x10000 [] (BitVec.twoPow 32 2) :=
  (reportsMaximum_iff fullMemory_wellFormedList List.Pairwise.nil (by decide) (by decide)).mpr rfl

/-- The heap of `exists_created` among all heaps. -/
theorem exists_heapMemory (mode : AllocationMode) (P : ExpHeap → Prop) [DecidablePred P]
    (h : (tryCreate (fun _ => ⟨0, 0, 0⟩) mode 0x10000 4096).any (fun heap =>
      heap.this = 0x10000 ∧ P heap) = true) :
    ∃ m : HeapMemory, (m.expHeap 0x10000).WellFormedList [0x10098] ∧
      (m.expHeap 0x10000).Apart [0x10098] ∧ P (m.expHeap 0x10000) := by
  obtain ⟨heap, -, hlist, hthis, hP⟩ :=
    exists_created mode 4096 (fun heap => heap.this = 0x10000 ∧ P heap) (by decide) h
  let m : HeapMemory := ⟨heap.memory, heap.links, fun _ =>
    ⟨heap.startAddress, heap.endAddress, 0, ⟨[], by simp⟩, heap.allocationMode⟩⟩
  have hheap : m.expHeap 0x10000 = heap := hthis ▸ rfl
  exact ⟨m, hheap ▸ hlist, List.pairwise_singleton _ _, hheap ▸ hP⟩

/-- A fresh heap of 4096 bytes reports 3912 and grants 8192. -/
theorem larger_size_granted : ∃ m : HeapMemory, (m.expHeap 0x10000).WellFormedList [0x10098] ∧
    (m.expHeap 0x10000).Apart [0x10098] ∧
    (m.expHeap 0x10000).getMaximumAllocatableSize 4 = .ok 3912 ∧
    (∃ heap', (m.expHeap 0x10000).tryAllocate 8192 4 = .ok (0x100b8, heap')) ∧
    ¬ ReportsMaximum m 0x10000 [0x10098] 4 := by
  obtain ⟨m, hlist, hapart, hget, htry⟩ := exists_heapMemory .firstFit
    (fun heap => (heap.getMaximumAllocatableSize 4).toOption = some 3912 ∧
      (heap.tryAllocate 8192 4).toOption.map Prod.fst = some 0x100b8)
    (by decide +kernel)
  have hmaximum := toOption_eq_some.mp hget
  obtain ⟨⟨address, heap'⟩, hcall, haddress⟩ := Option.map_eq_some_iff.mp htry
  have hgranted : (m.expHeap 0x10000).tryAllocate 8192 4 = .ok (0x100b8, heap') := by
    rw [toOption_eq_some.mp hcall]
    exact congrArg (fun a => Except.ok (a, heap')) haddress
  refine ⟨m, hlist, hapart, hmaximum, ⟨heap', hgranted⟩, ?_⟩
  intro hreports
  obtain ⟨heap'', hnull⟩ :=
    hreports.nothingLarger 3912 hmaximum 8192 (by decide) (by decide)
  rw [hgranted] at hnull
  cases hnull

end DDFramework.ExpHeap
