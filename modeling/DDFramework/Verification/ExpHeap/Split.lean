import DDFramework.Verification.ExpHeap.Layout
import Mathlib.Order.Interval.Set.LinearOrder

/-! # The split of a block for an allocation

`AddUsedBlock` makes all its free blocks at the start of the old block, and it leaves the
header of the old block out of the size of what remains. -/

namespace DDFramework.ExpHeap

variable {heap : ExpHeap} {blocks : List UIntPtr} {freeBlock address : UIntPtr}
  {size : BitVec 64}

/-- A free list that is linked correctly, with its blocks behind the heap object. -/
structure WellFormedList (heap : ExpHeap) (blocks : List UIntPtr) : Prop where
  coherent : heap.links.Coherent
  freeBlocks : heap.FreeBlocks blocks
  behind : ∀ block ∈ blocks, heap.this.toNat + heapObjectSize.toNat ≤ block.toNat
  addressable : ∀ block ∈ blocks,
    block.toNat + blockHeaderSize.toNat + (heap.memory block).blockSize.toNat ≤ 2 ^ 64

theorem tryCreate_wellFormedList {memory : UIntPtr → ExpHeapMemoryBlock}
    {mode : AllocationMode} (hregion : address.toNat + size.toNat ≤ 2 ^ 64)
    (h : tryCreate memory mode address size = some heap) :
    heap.WellFormedList [address + heapObjectSize] := by
  have hfresh := tryCreate_fresh h
  have hthis : heap.this = address := by
    dsimp only [tryCreate] at h
    split at h
    · cases h
    · cases h
      rfl
  have hsize := hfresh.size_ge
  simp only [heapObjectSize, blockHeaderSize, minimumAllocationGranularity] at hsize
  refine ⟨hfresh.coherent, hfresh.freeBlocks, ?_, ?_⟩
  · intro block hm
    rw [List.mem_singleton.mp hm, hthis]
    simp only [heapObjectSize]
    bv_omega
  · intro block hm
    rw [List.mem_singleton.mp hm, hfresh.blockSize]
    simp only [heapObjectSize, blockHeaderSize]
    bv_omega

/-- A heap over zeroed memory at 0x10000, for runs on fixed inputs. -/
theorem exists_created (mode : AllocationMode) (size : BitVec 64) (P : ExpHeap → Prop)
    [DecidablePred P] (hregion : (0x10000 : UIntPtr).toNat + size.toNat ≤ 2 ^ 64)
    (h : (tryCreate (fun _ => ⟨0, 0, 0⟩) mode 0x10000 size).any (fun heap => P heap) = true) :
    ∃ heap, tryCreate (fun _ => ⟨0, 0, 0⟩) mode 0x10000 size = some heap ∧
      heap.WellFormedList [0x10098] ∧ P heap := by
  obtain ⟨heap, hheap, hP⟩ := (Option.any_eq_true _ _).mp h
  exact ⟨heap, hheap, tryCreate_wellFormedList hregion hheap, of_decide_eq_true hP⟩

theorem blockHeaderSize_pos : 0 < blockHeaderSize.toNat := by decide

/-! ### The blocks that are made -/

/-- `orig_start_address`. -/
def origStartAddress (heap : ExpHeap) (freeBlock : UIntPtr) : UIntPtr :=
  freeBlock - (heap.memory freeBlock).alignment.setWidth 64

/-- `used_alignment`, before a block is made at the front. -/
def usedAlignment (heap : ExpHeap) (freeBlock address : UIntPtr) : BitVec 64 :=
  address - blockHeaderSize - heap.origStartAddress freeBlock

/-- `new_free_total_size`, before a block is made at the back. -/
def newFreeTotalSize (heap : ExpHeap) (freeBlock address : UIntPtr) (size : BitVec 64) :
    BitVec 64 :=
  freeBlock + (heap.memory freeBlock).blockSize - (address + size)

/-- What is left of a part after it has become a block of its own if it is large enough. -/
def unsplit (part : BitVec 64) : BitVec 64 :=
  if blockHeaderSize + minimumAllocationGranularity < part then 0 else part

/-- The total sizes of the free blocks that are made, at the front and at the back. -/
def splitSizes (heap : ExpHeap) (freeBlock address : UIntPtr) (size : BitVec 64) :
    List (BitVec 64) :=
  [heap.usedAlignment freeBlock address, heap.newFreeTotalSize freeBlock address size].filter
    fun part => blockHeaderSize + minimumAllocationGranularity < part

/-- The free blocks, one after the other at the same address. -/
def addSplitBlocks (heap : ExpHeap) (address : UIntPtr) (sizes : List (BitVec 64)) : ExpHeap :=
  sizes.foldl (fun heap totalSize => heap.addSplitBlock address totalSize) heap

def addAllocatedBlock (heap : ExpHeap) (block : UIntPtr) (header : ExpHeapMemoryBlock) :
    ExpHeap :=
  let heap := heap.constructBlock block
  let heap := heap.update block fun _ => header
  heap.pushBackAllocated block

theorem addUsedBlock_eq (heap : ExpHeap) (freeBlock address : UIntPtr) (size : BitVec 64) :
    heap.addUsedBlock freeBlock address size =
      ((heap.unlinkBlock freeBlock).addSplitBlocks (heap.origStartAddress freeBlock)
        (heap.splitSizes freeBlock address size)).addAllocatedBlock (address - blockHeaderSize)
          ⟨allocMagic, (unsplit (heap.usedAlignment freeBlock address)).setWidth 8,
            size + unsplit (heap.newFreeTotalSize freeBlock address size)⟩ := by
  simp only [addUsedBlock, unlinkBlock_memory, unsplit, splitSizes, List.filter_cons,
    decide_eq_true_iff, usedAlignment, newFreeTotalSize, origStartAddress]
  by_cases hfront : blockHeaderSize + minimumAllocationGranularity <
      address - blockHeaderSize - (freeBlock - (heap.memory freeBlock).alignment.setWidth 64) <;>
    by_cases hback : blockHeaderSize + minimumAllocationGranularity <
      freeBlock + (heap.memory freeBlock).blockSize - (address + size) <;>
    · simp only [hfront, hback, ↓reduceIte]
      rfl

@[simp] theorem addAllocatedBlock_memory (heap : ExpHeap) (block : UIntPtr)
    (header : ExpHeapMemoryBlock) :
    (heap.addAllocatedBlock block header).memory = Function.update heap.memory block header :=
  rfl

@[simp] theorem addSplitBlocks_singleton_memory (heap : ExpHeap) (address : UIntPtr)
    (totalSize : BitVec 64) :
    (heap.addSplitBlocks address [totalSize]).memory =
      Function.update heap.memory address ⟨freeMagic, 0, totalSize - blockHeaderSize⟩ := rfl

/-! ### The bytes of the parts -/

/-- The bytes of an allocation: its gap, its header and its payload. -/
def usedExtent (heap : ExpHeap) (block : UIntPtr) : Set ℕ :=
  Set.Ico (block.toNat - (heap.memory block).alignment.toNat)
    (block.toNat + blockHeaderSize.toNat + (heap.memory block).blockSize.toNat)

/-- The bytes of the allocation and of each free block that is made, by their headers. -/
def splitExtents (heap : ExpHeap) (freeBlock address : UIntPtr) (size : BitVec 64) :
    List (Set ℕ) :=
  (heap.addUsedBlock freeBlock address size).usedExtent (address - blockHeaderSize) ::
    (heap.splitSizes freeBlock address size).map fun _ =>
      (heap.addUsedBlock freeBlock address size).extent (heap.origStartAddress freeBlock)

/-- The parts are apart and have together the bytes of the old block, and the gap is
recorded as it is. -/
structure ConservesBytes (heap : ExpHeap) (freeBlock address : UIntPtr) (size : BitVec 64) :
    Prop where
  apart : (heap.splitExtents freeBlock address size).Pairwise Disjoint
  union : ⋃ part ∈ heap.splitExtents freeBlock address size, part = heap.extent freeBlock
  gap : ((heap.addUsedBlock freeBlock address size).memory
    (address - blockHeaderSize)).alignment.setWidth 64 =
      unsplit (heap.usedAlignment freeBlock address)

theorem addUsedBlock_usedExtent (heap : ExpHeap) (freeBlock address : UIntPtr)
    (size : BitVec 64) :
    (heap.addUsedBlock freeBlock address size).usedExtent (address - blockHeaderSize) =
      Set.Ico ((address - blockHeaderSize).toNat -
          ((unsplit (heap.usedAlignment freeBlock address)).setWidth 8).toNat)
        ((address - blockHeaderSize).toNat + blockHeaderSize.toNat +
          (size + unsplit (heap.newFreeTotalSize freeBlock address size)).toNat) := by
  simp only [usedExtent, addUsedBlock_eq, addAllocatedBlock_memory, Function.update_self]

theorem unsplit_eq_or (part : BitVec 64) : unsplit part = 0 ∨ unsplit part = part := by
  rw [unsplit]
  split
  · exact Or.inl rfl
  · exact Or.inr rfl

/-- The payload ends where the code takes the old block to end, or before. -/
theorem payload_end_le {blockSize : BitVec 64} (hpos : 0 < freeBlock.toNat)
    (haddressable : freeBlock.toNat + blockHeaderSize.toNat + blockSize.toNat ≤ 2 ^ 64)
    (hfit : address + size - freeBlock ≤ blockSize)
    (hend : (address - blockHeaderSize).toNat + blockHeaderSize.toNat +
        (size + unsplit (freeBlock + blockSize - (address + size))).toNat ≤
      freeBlock.toNat + blockHeaderSize.toNat + blockSize.toNat) :
    (address - blockHeaderSize).toNat + blockHeaderSize.toNat +
        (size + unsplit (freeBlock + blockSize - (address + size))).toNat ≤
      freeBlock.toNat + blockSize.toNat := by
  simp only [blockHeaderSize] at *
  rcases unsplit_eq_or (freeBlock + blockSize - (address + size)) with hrest | hrest
  · rw [hrest] at hend ⊢
    bv_omega
  · rw [hrest] at hend ⊢
    bv_omega

/-! ### The last bytes are lost -/

theorem ConservesBytes.subset (h : heap.ConservesBytes freeBlock address size) {part : Set ℕ}
    (hm : part ∈ heap.splitExtents freeBlock address size) : part ⊆ heap.extent freeBlock := by
  rw [← h.union]
  exact Set.subset_iUnion₂ (s := fun part _ => part) part hm

/-- The allocation lies in the old block and leaves the last bytes of it. -/
theorem ConservesBytes.used_bounds (h : heap.ConservesBytes freeBlock address size)
    (hpos : 0 < freeBlock.toNat)
    (haddressable : freeBlock.toNat + blockHeaderSize.toNat +
      (heap.memory freeBlock).blockSize.toNat ≤ 2 ^ 64)
    (hfit : address + size - freeBlock ≤ (heap.memory freeBlock).blockSize) :
    freeBlock.toNat ≤ (address - blockHeaderSize).toNat ∧
      (address - blockHeaderSize).toNat + blockHeaderSize.toNat +
          (size + unsplit (heap.newFreeTotalSize freeBlock address size)).toNat ≤
        freeBlock.toNat + (heap.memory freeBlock).blockSize.toNat := by
  have hused := h.subset List.mem_cons_self
  rw [addUsedBlock_usedExtent, extent] at hused
  have hheader := blockHeaderSize_pos
  obtain ⟨hlow, hhigh⟩ := (Set.Ico_subset_Ico_iff (by omega)).mp hused
  exact ⟨hlow.trans (Nat.sub_le _ _), payload_end_le hpos haddressable hfit hhigh⟩

/-- A free block at the front ends where the allocation starts. -/
theorem front_end_ne {block used start blockSize : BitVec 64} (hpos : 0 < block.toNat)
    (haddressable : block.toNat + blockHeaderSize.toNat + blockSize.toNat ≤ 2 ^ 64)
    (hlow : block.toNat ≤ used.toNat)
    (hhigh : used.toNat + blockHeaderSize.toNat ≤ block.toNat + blockSize.toNat) :
    start.toNat + blockHeaderSize.toNat + (used - start - blockHeaderSize).toNat ≠
      block.toNat + blockHeaderSize.toNat + blockSize.toNat := by
  simp only [blockHeaderSize] at *
  bv_omega

/-- A free block at the back that has the size of the rest would have to start behind the
allocation. -/
theorem back_end_ne {block used start size blockSize : BitVec 64} (hpos : 0 < block.toNat)
    (haddressable : block.toNat + blockHeaderSize.toNat + blockSize.toNat ≤ 2 ^ 64)
    (hlow : block.toNat ≤ used.toNat)
    (hhigh : used.toNat + blockHeaderSize.toNat + size.toNat ≤ block.toNat + blockSize.toNat)
    (hsmall : ¬ blockHeaderSize + minimumAllocationGranularity < used - start)
    (hlarge : blockHeaderSize + minimumAllocationGranularity <
      block + blockSize - (used + blockHeaderSize + size)) :
    start.toNat + blockHeaderSize.toNat +
        (block + blockSize - (used + blockHeaderSize + size) - blockHeaderSize).toNat ≠
      block.toNat + blockHeaderSize.toNat + blockSize.toNat := by
  simp only [blockHeaderSize, minimumAllocationGranularity] at *
  bv_omega

/-- Two free blocks are made at the same address. -/
theorem ConservesBytes.splitSizes_length_le (h : heap.ConservesBytes freeBlock address size) :
    (heap.splitSizes freeBlock address size).length ≤ 1 := by
  have hapart := h.apart
  rw [splitExtents, List.pairwise_cons] at hapart
  match hsizes : heap.splitSizes freeBlock address size with
  | [] => exact Nat.zero_le 1
  | [_] => exact Nat.le_refl 1
  | _ :: _ :: _ =>
      rw [hsizes, List.map_cons, List.map_cons, List.pairwise_cons] at hapart
      have hself := hapart.2.1 _ List.mem_cons_self
      have hstart : (heap.origStartAddress freeBlock).toNat ∈
          (heap.addUsedBlock freeBlock address size).extent (heap.origStartAddress freeBlock) := by
        refine ⟨Nat.le_refl _, ?_⟩
        have hheader := blockHeaderSize_pos
        omega
      exact absurd hstart (Set.disjoint_left.mp hself hstart)

/-- A free block that is made does not end where the old block does. -/
theorem ConservesBytes.split_end_ne (h : heap.ConservesBytes freeBlock address size)
    (hpos : 0 < freeBlock.toNat)
    (haddressable : freeBlock.toNat + blockHeaderSize.toNat +
      (heap.memory freeBlock).blockSize.toNat ≤ 2 ^ 64)
    (hfit : address + size - freeBlock ≤ (heap.memory freeBlock).blockSize)
    (hsplit : heap.splitSizes freeBlock address size ≠ []) :
    (heap.origStartAddress freeBlock).toNat + blockHeaderSize.toNat +
        ((heap.addUsedBlock freeBlock address size).memory
          (heap.origStartAddress freeBlock)).blockSize.toNat ≠
      freeBlock.toNat + blockHeaderSize.toNat + (heap.memory freeBlock).blockSize.toNat := by
  obtain ⟨hlow, hhigh⟩ := h.used_bounds hpos haddressable hfit
  have hlength := h.splitSizes_length_le
  rw [addUsedBlock_eq, addAllocatedBlock_memory]
  by_cases hsame : heap.origStartAddress freeBlock = address - blockHeaderSize
  · -- The header of the allocation is written over the one of the free block.
    rw [hsame, Function.update_self]
    have hheader := blockHeaderSize_pos
    dsimp only
    omega
  · rw [Function.update_of_ne hsame]
    by_cases hfront : blockHeaderSize + minimumAllocationGranularity <
        heap.usedAlignment freeBlock address
    · have hback : ¬ blockHeaderSize + minimumAllocationGranularity <
          heap.newFreeTotalSize freeBlock address size := by
        intro hback
        simp [splitSizes, hfront, hback] at hlength
      have hsizes : heap.splitSizes freeBlock address size =
          [heap.usedAlignment freeBlock address] := by simp [splitSizes, hfront, hback]
      rw [hsizes, addSplitBlocks_singleton_memory, Function.update_self]
      exact front_end_ne hpos haddressable hlow (by omega)
    · have hback : blockHeaderSize + minimumAllocationGranularity <
          heap.newFreeTotalSize freeBlock address size := by
        by_contra hback
        exact hsplit (by simp [splitSizes, hfront, hback])
      have hsizes : heap.splitSizes freeBlock address size =
          [heap.newFreeTotalSize freeBlock address size] := by simp [splitSizes, hfront, hback]
      have hrest : size + unsplit (heap.newFreeTotalSize freeBlock address size) = size := by
        rw [unsplit, if_pos hback]
        exact BitVec.add_zero size
      rw [hrest] at hhigh
      rw [hsizes, addSplitBlocks_singleton_memory, Function.update_self]
      have haddress : address = address - blockHeaderSize + blockHeaderSize :=
        (BitVec.sub_add_cancel address blockHeaderSize).symm
      rw [newFreeTotalSize, haddress] at hback ⊢
      exact back_end_ne hpos haddressable hlow hhigh hfront hback

/-- A part that lies in the old block holds its last byte only if it ends there. -/
theorem last_notMem_Ico {low high start stop : ℕ} (hsub : Set.Ico low high ⊆ Set.Ico start stop)
    (hne : high ≠ stop) : stop - 1 ∉ Set.Ico low high := by
  intro hm
  have hstop : stop ∈ Set.Ico low high := ⟨hm.1.trans (Nat.sub_le stop 1), by
    have hlt := hm.2
    omega⟩
  exact absurd (hsub hstop).2 (Nat.lt_irrefl stop)

/-- No split conserves the bytes: the last bytes of the old block, as many as a header has,
are in no part. -/
theorem not_conservesBytes (h : heap.WellFormedList blocks) (hm : freeBlock ∈ blocks)
    (hfit : address + size - freeBlock ≤ (heap.memory freeBlock).blockSize) :
    ¬ heap.ConservesBytes freeBlock address size := by
  intro hconserves
  have haddressable := h.addressable freeBlock hm
  have hpos : 0 < freeBlock.toNat := by
    have hbehind := h.behind freeBlock hm
    simp only [heapObjectSize] at hbehind
    bv_omega
  have hlast : freeBlock.toNat + blockHeaderSize.toNat +
      (heap.memory freeBlock).blockSize.toNat - 1 ∈ heap.extent freeBlock := by
    simp only [extent, blockHeaderSize, Set.mem_Ico]
    bv_omega
  rw [← hconserves.union, Set.mem_iUnion₂] at hlast
  obtain ⟨part, hpart, hin⟩ := hlast
  have hsub := hconserves.subset hpart
  rw [splitExtents, List.mem_cons, List.mem_map] at hpart
  rcases hpart with rfl | ⟨part', hsplit, rfl⟩
  · rw [addUsedBlock_usedExtent] at hsub hin
    obtain ⟨-, hhigh⟩ := hconserves.used_bounds hpos haddressable hfit
    refine last_notMem_Ico hsub ?_ hin
    have hheader := blockHeaderSize_pos
    omega
  · refine last_notMem_Ico hsub ?_ hin
    exact hconserves.split_end_ne hpos haddressable hfit (List.ne_nil_of_mem hsplit)

/-- The fresh block of a heap of 4096 bytes, split at its start. -/
theorem not_conservesBytes_fresh : ∃ heap,
    tryCreate (fun _ => ⟨0, 0, 0⟩) .firstFit 0x10000 4096 = some heap ∧
      ¬ heap.ConservesBytes 0x10098 0x100b8 100 := by
  obtain ⟨heap, hheap, hlist, hfit⟩ := exists_created .firstFit 4096
    (fun heap => (0x100b8 : UIntPtr) + 100 - 0x10098 ≤ (heap.memory 0x10098).blockSize)
    (by decide) (by decide +kernel)
  exact ⟨heap, hheap, not_conservesBytes hlist (List.mem_singleton_self _) hfit⟩

/-- With 72 bytes before the allocation and more behind it, two free blocks are made at the
start of the old one. -/
theorem splits_made_twice : ∃ heap,
    tryCreate (fun _ => ⟨0, 0, 0⟩) .firstFit 0x10000 4096 = some heap ∧
      heap.WellFormedList [0x10098] ∧ heap.fits 0x10098 100 256 = true ∧
        ¬ heap.ConservesBytes 0x10098 (allocationAddressIn 0x10098 256) 100 := by
  obtain ⟨heap, hheap, hlist, hfit, hlength⟩ := exists_created .firstFit 4096
    (fun heap => heap.fits 0x10098 100 256 = true ∧
      (heap.splitSizes 0x10098 (allocationAddressIn 0x10098 256) 100).length = 2)
    (by decide) (by decide +kernel)
  refine ⟨heap, hheap, hlist, hfit, ?_⟩
  intro hconserves
  have hle := hconserves.splitSizes_length_le
  omega

end DDFramework.ExpHeap
