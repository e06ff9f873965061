import DDFramework.Verification.ExpHeap.Allocation
import DDFramework.Verification.ExpHeap.FreeList
import Mathlib.Data.List.Pairwise

/-! # Resizing in place

`AdjustAllocation` does what it should only where the rounded size is the one that the
allocation has: a range that is cut off is lost, a free block behind the allocation that is
large enough is refused, and without one the call reports a size that it did not give. -/

namespace DDFramework

namespace ExpHeap

variable {heap : ExpHeap} {blocks nodes : List UIntPtr} {address : UIntPtr}
  {newSize : BitVec 64}

/-! ### Sizes in words -/

theorem toNat_alignUp_of_pos {size : BitVec 64}
    (hpos : 0 < (alignUp size minimumAllocationGranularity).toNat) :
    (alignUp size minimumAllocationGranularity).toNat =
      roundUp size.toNat minimumAllocationGranularity.toNat := by
  have hround := alignUp_granularity size
  have hlt := size.isLt
  have hfour : minimumAllocationGranularity.toNat = 4 := rfl
  rw [hround] at hpos
  rw [hround]
  simp only [roundUp, hfour] at *
  omega

/-! ### The search for the block behind an allocation -/

theorem scan_blockAfter (endAddress : UIntPtr) (nodes : List UIntPtr) :
    scan (fun node (s : Unit) => if getParent node = endAddress then LoopExit.stop s else .next s)
      nodes () = (if getListNode endAddress ∈ nodes then some (getListNode endAddress) else none,
        ()) := by
  induction nodes with
  | nil => simp [scan]
  | cons node nodes ih =>
      by_cases hnode : getParent node = endAddress
      · subst hnode
        rw [scan_stop (by rw [if_pos rfl])]
        simp
      · have hne : getListNode endAddress ≠ node := by
          rintro rfl
          exact hnode (getParent_getListNode endAddress)
        rw [scan_next (by rw [if_neg hnode]), ih]
        simp [hne]

/-! ### The branches of `AdjustAllocation` -/

/-- `block_size` of the allocation at an address. -/
def allocationSize (heap : ExpHeap) (address : UIntPtr) : BitVec 64 :=
  (heap.memory (address - blockHeaderSize)).blockSize

/-- The block behind an allocation, if it is on the free list, else the head of the list. -/
def blockAfter (heap : ExpHeap) (blocks : List UIntPtr) (address : UIntPtr) : UIntPtr :=
  if address + heap.allocationSize address ∈ blocks then address + heap.allocationSize address
  else heap.endBlock

theorem adjustAllocation_of_eq
    (hsize : heap.allocationSize address = alignUp newSize minimumAllocationGranularity) :
    heap.adjustAllocation address newSize = .ok (heap.allocationSize address, heap) := by
  rw [adjustAllocation, hsize]
  exact if_pos hsize

theorem adjustAllocation_of_lt
    (hsize : alignUp newSize minimumAllocationGranularity < heap.allocationSize address) :
    heap.adjustAllocation address newSize = do
      let (_, heap') ← heap.addFreeBlock
        (address + alignUp newSize minimumAllocationGranularity)
        (address + heap.allocationSize address)
      return (alignUp newSize minimumAllocationGranularity,
        heap'.update (address - blockHeaderSize) fun header =>
          { header with blockSize := alignUp newSize minimumAllocationGranularity }) := by
  have hne : heap.allocationSize address ≠ alignUp newSize minimumAllocationGranularity :=
    (BitVec.ne_of_lt hsize).symm
  rw [adjustAllocation]
  dsimp only
  rw [allocationSize] at hsize hne
  rw [if_neg hne, if_pos hsize]
  rfl

/-- A larger size is refused if the block behind the allocation is large enough, and granted
if not. -/
theorem adjustAllocation_of_gt (h : heap.WellFormedList blocks)
    (hsize : heap.allocationSize address < alignUp newSize minimumAllocationGranularity) :
    heap.adjustAllocation address newSize =
      .ok (if address + heap.allocationSize address ∈ blocks ∧
          alignUp newSize minimumAllocationGranularity <
            (heap.memory (heap.blockAfter blocks address)).blockSize + blockHeaderSize +
              heap.allocationSize address then
        (heap.allocationSize address, heap)
      else (alignUp newSize minimumAllocationGranularity,
        heap.absorbBlockAfter (address - blockHeaderSize) address
          (heap.blockAfter blocks address)
          (alignUp newSize minimumAllocationGranularity))) := by
  have hmem : getListNode (address + heap.allocationSize address) ∈ blocks.map getListNode ↔
      address + heap.allocationSize address ∈ blocks :=
    List.mem_map_of_injective getListNode_injective
  have hne : (heap.memory (address - blockHeaderSize)).blockSize ≠
      alignUp newSize minimumAllocationGranularity := BitVec.ne_of_lt hsize
  have hnot : ¬ alignUp newSize minimumAllocationGranularity <
      (heap.memory (address - blockHeaderSize)).blockSize := BitVec.not_lt.mpr (BitVec.le_of_lt hsize)
  rw [adjustAllocation]
  dsimp only
  rw [if_neg hne, if_neg hnot, walk_ring h.coherent h.freeBlocks (ring_length_lt h.freeBlocks),
    scan_blockAfter, ok_bind]
  dsimp only
  rw [← allocationSize]
  by_cases hfound : address + heap.allocationSize address ∈ blocks
  · have hiterator : heap.links.iteratorTo (getListNode (address + heap.allocationSize address)) ≠
        heap.links.listEnd heap.freeBlockList := by
      rw [ne_eq, Links.iteratorTo_eq_listEnd_iff h.coherent]
      intro he
      exact Links.Ring.head_notMem h.freeBlocks (he ▸ hmem.mpr hfound)
    rw [if_pos (hmem.mpr hfound), Option.getD_some, Links.iteratorNode_iteratorTo h.coherent,
      getParent_getListNode, blockAfter, if_pos hfound]
    simp only [hiterator, hfound, ne_eq, not_false_eq_true, true_and]
    split_ifs <;> rfl
  · rw [if_neg (fun hm => hfound (hmem.mp hm)), Option.getD_none, blockAfter, if_neg hfound,
      endBlock, Links.listEnd]
    simp only [hfound, false_and, if_false, ne_eq, not_true_eq_false]
    rfl

/-- Where the block behind the allocation is used up exactly, the size that is written is not
the one that was asked for. -/
theorem absorbBlockAfter_exact {after : UIntPtr}
    (hafter : after = address + heap.allocationSize address)
    (hexact : newSize = (heap.memory after).blockSize + blockHeaderSize +
      heap.allocationSize address)
    (hne : newSize + 96 ≠ 0) :
    (heap.absorbBlockAfter (address - blockHeaderSize) address after newSize).allocationSize
      address = newSize + 64 := by
  have hrest : after + ((heap.memory after).blockSize + blockHeaderSize) -
      (address + newSize + blockHeaderSize) = 0 - blockHeaderSize := by
    rw [hexact, hafter]
    grind
  have hlarge : blockHeaderSize ≤ (0 : BitVec 64) - blockHeaderSize := by decide
  have hfree : address - blockHeaderSize ≠
      address + newSize + blockHeaderSize - (0 - blockHeaderSize) := by
    simp only [blockHeaderSize]
    grind
  rw [allocationSize, absorbBlockAfter]
  simp only [hrest]
  rw [if_pos hlarge, if_pos hlarge, pushBackFree_memory, update_memory,
    Function.update_of_ne hfree, constructBlock_memory, update_memory, Function.update_self]
  simp only [blockHeaderSize]
  grind

end ExpHeap

namespace HeapSystem

open ExpHeap

variable {s s' : HeapSystem} {free : List UIntPtr} {address : UIntPtr} {newSize : BitVec 64}

/-! ### What resizing asks for -/

/-- The bytes of each allocation and of each free block. -/
def parts (s : HeapSystem) (free : List UIntPtr) : List (Set ℕ) :=
  s.liveBlocks.map s.heap.usedExtent ++ free.map s.heap.extent

/-- The allocations and the free blocks are apart, behind the heap object. -/
structure WellFormed (s : HeapSystem) (free : List UIntPtr) : Prop where
  list : s.heap.WellFormedList free
  behind : ∀ block ∈ s.liveBlocks, s.heap.this.toNat + heapObjectSize.toNat ≤ block.toNat
  addressable : ∀ block ∈ s.liveBlocks,
    block.toNat + blockHeaderSize.toNat + (s.heap.memory block).blockSize.toNat ≤ 2 ^ 64
  apart : (s.parts free).Pairwise Disjoint

/-- A free block starts where the allocation ends, and the two have room for the size. -/
def CanExtend (s : HeapSystem) (free : List UIntPtr) (address : UIntPtr) (size : ℕ) : Prop :=
  ∃ after ∈ free,
    after.toNat = (address - blockHeaderSize).toNat + blockHeaderSize.toNat +
      (s.heap.allocationSize address).toNat ∧
    size ≤ (s.heap.allocationSize address).toNat + blockHeaderSize.toNat +
      (s.heap.memory after).blockSize.toNat

/-- What holds after a call that resizes an allocation in place. -/
structure Adjusted (s s' : HeapSystem) (free : List UIntPtr) (address : UIntPtr) (size : ℕ)
    (result : BitVec 64) : Prop where
  reported : result = s'.heap.allocationSize address
  shrink : size < (s.heap.allocationSize address).toNat →
    (s'.heap.allocationSize address).toNat = size
  grow : (s.heap.allocationSize address).toNat < size → s.CanExtend free address size →
    size ≤ (s'.heap.allocationSize address).toNat
  refuse : (s.heap.allocationSize address).toNat < size → ¬ s.CanExtend free address size →
    s'.heap = s.heap
  tiles : ∃ free', s'.heap.FreeBlocks free' ∧ (s'.parts free').Pairwise Disjoint ∧
    ⋃ part ∈ s'.parts free', part = ⋃ part ∈ s.parts free, part

/-- `AdjustAllocation` resizes the allocation to the rounded size. -/
def Resizes (s : HeapSystem) (free : List UIntPtr) (address : UIntPtr) (newSize : BitVec 64) :
    Prop :=
  ∃ result s', s.call (.adjustAllocation address newSize) = .ok (result, s') ∧
    s.Adjusted s' free address (roundUp newSize.toNat minimumAllocationGranularity.toNat) result

/-! ### The bytes of a live allocation -/

theorem start_mem_usedExtent (heap : ExpHeap) (block : UIntPtr) :
    block.toNat ∈ heap.usedExtent block := by
  refine ⟨Nat.sub_le _ _, ?_⟩
  have hheader := blockHeaderSize_pos
  omega

theorem WellFormed.notMem_free (h : s.WellFormed free) {block : UIntPtr}
    (hlive : block ∈ s.liveBlocks) {byte : ℕ} (hbyte : byte ∈ s.heap.usedExtent block) :
    ∀ other ∈ free, byte ∉ s.heap.extent other := by
  intro other hm
  have hcross := (List.pairwise_append.mp h.apart).2.2
  exact Set.disjoint_left.mp (hcross _ (List.mem_map_of_mem hlive) _ (List.mem_map_of_mem hm))
    hbyte

theorem WellFormed.notMem_live (h : s.WellFormed free) {block : UIntPtr}
    (hlive : block ∈ s.liveBlocks) {byte : ℕ} (hbyte : byte ∈ s.heap.usedExtent block) :
    ∀ other ∈ s.liveBlocks, other ≠ block → byte ∉ s.heap.usedExtent other := by
  intro other hm hne
  have hlives := List.pairwise_map.mp (List.pairwise_append.mp h.apart).1
  have hsymm : Std.Symm fun b c =>
      Disjoint (s.heap.usedExtent b) (s.heap.usedExtent c) := ⟨fun _ _ hd => hd.symm⟩
  exact Set.disjoint_left.mp (hlives.forall hlive hm hne.symm) hbyte

theorem WellFormed.allocation_addressable (h : s.WellFormed free)
    (hlive : address - blockHeaderSize ∈ s.liveBlocks) :
    (address - blockHeaderSize).toNat + blockHeaderSize.toNat +
      (s.heap.allocationSize address).toNat ≤ 2 ^ 64 :=
  h.addressable _ hlive

theorem WellFormed.live_notMem_free (h : s.WellFormed free) :
    ∀ block ∈ s.liveBlocks, block ∉ free := fun block hlive hm =>
  h.notMem_free hlive (start_mem_usedExtent s.heap block) block hm (start_mem_extent s.heap block)

/-! ### The size that the allocation has -/

/-- What extends an allocation ends inside the address space. -/
theorem WellFormed.not_canExtend (h : s.WellFormed free) {size : ℕ} (hsize : 2 ^ 64 ≤ size) :
    ¬ s.CanExtend free address size := by
  rintro ⟨after, hm, hstart, hroom⟩
  have haddressable := h.list.addressable after hm
  simp only [blockHeaderSize] at *
  bv_omega

theorem WellFormed.resizes_of_eq (h : s.WellFormed free)
    (hsize : s.heap.allocationSize address = alignUp newSize minimumAllocationGranularity) :
    s.Resizes free address newSize := by
  have hround := alignUp_granularity newSize
  rw [← hsize] at hround
  refine ⟨s.heap.allocationSize address, s, ?_, rfl, ?_, ?_, ?_, ?_⟩
  · rw [call, adjustAllocation_of_eq hsize]
    rfl
  · intro hlt
    have hlt' := (s.heap.allocationSize address).isLt
    omega
  · intro hlt hcan
    by_contra hgt
    refine h.not_canExtend ?_ hcan
    omega
  · exact fun _ _ => rfl
  · exact ⟨free, h.list.freeBlocks, h.apart, rfl⟩

/-! ### Shrinking loses the bytes that are cut off -/

/-- The first byte that is cut off is in the allocation. -/
theorem WellFormed.cut_mem (h : s.WellFormed free)
    (hlive : address - blockHeaderSize ∈ s.liveBlocks) {size : BitVec 64}
    (hsize : size < s.heap.allocationSize address) :
    (address + size).toNat =
        (address - blockHeaderSize).toNat + blockHeaderSize.toNat + size.toNat ∧
      (address + size).toNat ∈ s.heap.usedExtent (address - blockHeaderSize) := by
  have haddressable := h.allocation_addressable hlive
  have hstart : (address + size).toNat =
      (address - blockHeaderSize).toNat + blockHeaderSize.toNat + size.toNat := by
    simp only [blockHeaderSize] at *
    bv_omega
  refine ⟨hstart, ?_⟩
  rw [usedExtent, ← allocationSize, hstart]
  refine ⟨?_, ?_⟩
  · omega
  · have hlt := BitVec.lt_def.mp hsize
    omega

/-- A call that shrinks an allocation writes its size. The free blocks are blocks that were
free, and no other header of a live or a free block changes. -/
theorem WellFormed.call_of_lt (h : s.WellFormed free)
    (hlive : address - blockHeaderSize ∈ s.liveBlocks)
    (hsize : alignUp newSize minimumAllocationGranularity < s.heap.allocationSize address)
    {result : BitVec 64} (hcall : s.call (.adjustAllocation address newSize) = .ok (result, s')) :
    s'.live = s.live ∧
      s'.heap.allocationSize address = alignUp newSize minimumAllocationGranularity ∧
      (∀ block ∈ s.liveBlocks, block ≠ address - blockHeaderSize →
        s'.heap.memory block = s.heap.memory block) ∧
      ∃ kept, s'.heap.FreeBlocks kept ∧
        ∀ block ∈ kept, block ∈ free ∧ s'.heap.memory block = s.heap.memory block := by
  obtain ⟨hstart, hcut⟩ := h.cut_mem hlive hsize
  rw [call, adjustAllocation_of_lt hsize, bind_assoc] at hcall
  obtain ⟨⟨added, heap'⟩, hadd, hcall⟩ := bind_eq_ok_iff.mp hcall
  cases hcall
  have hlength : address + s.heap.allocationSize address =
      address + alignUp newSize minimumAllocationGranularity +
        (s.heap.allocationSize address - alignUp newSize minimumAllocationGranularity) := by
    bv_omega
  rw [hlength] at hadd
  have hbehind := h.behind _ hlive
  have haddressable := h.allocation_addressable hlive
  obtain ⟨kept, hkept, hfree, hother⟩ := h.list.addFreeBlock_kept (by omega)
    (by rw [hstart]; bv_omega) (h.notMem_free hlive hcut) hadd
  refine ⟨rfl, ?_, ?_, kept, hkept, ?_⟩
  · simp [allocationSize]
  · intro block hm hne
    have hstart' : block ≠ address + alignUp newSize minimumAllocationGranularity := by
      rintro rfl
      exact h.notMem_live hlive hcut _ hm hne (start_mem_usedExtent s.heap _)
    rw [← hother block (h.live_notMem_free block hm) hstart']
    exact Function.update_of_ne hne _ _
  · intro block hm
    obtain ⟨hblock, hmemory⟩ := hfree block hm
    have hne : block ≠ address - blockHeaderSize := by
      rintro rfl
      exact h.live_notMem_free _ hlive hblock
    refine ⟨hblock, ?_⟩
    rw [← hmemory]
    exact Function.update_of_ne hne _ _

/-- The first byte that is cut off is in no part afterwards. -/
theorem WellFormed.cut_lost (h : s.WellFormed free)
    (hlive : address - blockHeaderSize ∈ s.liveBlocks)
    (hsize : alignUp newSize minimumAllocationGranularity < s.heap.allocationSize address)
    {result : BitVec 64} (hcall : s.call (.adjustAllocation address newSize) = .ok (result, s'))
    {free' : List UIntPtr} (hfree' : s'.heap.FreeBlocks free') :
    ∀ part ∈ s'.parts free',
      (address + alignUp newSize minimumAllocationGranularity).toNat ∉ part := by
  obtain ⟨hstart, hcut⟩ := h.cut_mem hlive hsize
  obtain ⟨hlives, hwritten, hother, kept, hkept, hfree⟩ := h.call_of_lt hlive hsize hcall
  obtain rfl := hkept.unique hfree'
  have hblocks : s'.liveBlocks = s.liveBlocks := by rw [liveBlocks, hlives, liveBlocks]
  intro part hm
  rw [parts, hblocks, List.mem_append, List.mem_map, List.mem_map] at hm
  rcases hm with ⟨block, hm, rfl⟩ | ⟨block, hm, rfl⟩
  · by_cases hblock : block = address - blockHeaderSize
    · rw [hblock, usedExtent, ← allocationSize, hwritten, hstart]
      exact fun hin => absurd hin.2 (Nat.lt_irrefl _)
    · rw [usedExtent, hother block hm hblock]
      exact h.notMem_live hlive hcut block hm hblock
  · obtain ⟨hblock, hmemory⟩ := hfree block hm
    rw [extent, hmemory]
    exact h.notMem_free hlive hcut block hblock

theorem WellFormed.not_adjusted_of_lt (h : s.WellFormed free)
    (hlive : address - blockHeaderSize ∈ s.liveBlocks)
    (hsize : alignUp newSize minimumAllocationGranularity < s.heap.allocationSize address)
    {result : BitVec 64} (hcall : s.call (.adjustAllocation address newSize) = .ok (result, s'))
    (size : ℕ) : ¬ s.Adjusted s' free address size result := by
  intro hadjusted
  obtain ⟨free', hfree', -, hunion⟩ := hadjusted.tiles
  have hin : (address + alignUp newSize minimumAllocationGranularity).toNat ∈
      ⋃ part ∈ s'.parts free', part := by
    rw [hunion]
    refine Set.mem_iUnion₂.mpr ⟨_, ?_, (h.cut_mem hlive hsize).2⟩
    exact List.mem_append_left _ (List.mem_map_of_mem hlive)
  obtain ⟨part, hm, hpart⟩ := Set.mem_iUnion₂.mp hin
  exact h.cut_lost hlive hsize hcall hfree' part hm hpart

/-! ### Growing is refused where there is room -/

theorem WellFormed.canExtend_iff (h : s.WellFormed free)
    (hlive : address - blockHeaderSize ∈ s.liveBlocks) (size : ℕ) :
    s.CanExtend free address size ↔ address + s.heap.allocationSize address ∈ free ∧
      size ≤ (s.heap.allocationSize address).toNat + blockHeaderSize.toNat +
        (s.heap.memory (address + s.heap.allocationSize address)).blockSize.toNat := by
  have haddressable := h.allocation_addressable hlive
  constructor
  · rintro ⟨after, hm, hstart, hroom⟩
    have hafter : after = address + s.heap.allocationSize address := by
      simp only [blockHeaderSize] at *
      bv_omega
    exact hafter ▸ ⟨hm, hroom⟩
  · rintro ⟨hm, hroom⟩
    refine ⟨_, hm, ?_, hroom⟩
    have hbehind := h.list.behind _ hm
    simp only [heapObjectSize, blockHeaderSize] at *
    bv_omega

/-- The room behind an allocation does not wrap. -/
theorem WellFormed.room_toNat (h : s.WellFormed free)
    (hlive : address - blockHeaderSize ∈ s.liveBlocks)
    (hm : address + s.heap.allocationSize address ∈ free) :
    ((s.heap.memory (address + s.heap.allocationSize address)).blockSize + blockHeaderSize +
        s.heap.allocationSize address).toNat =
      (s.heap.allocationSize address).toNat + blockHeaderSize.toNat +
        (s.heap.memory (address + s.heap.allocationSize address)).blockSize.toNat ∧
    (s.heap.allocationSize address).toNat + blockHeaderSize.toNat +
        (s.heap.memory (address + s.heap.allocationSize address)).blockSize.toNat +
        heapObjectSize.toNat ≤ 2 ^ 64 := by
  have haddressable := h.list.addressable _ hm
  have hlives := h.allocation_addressable hlive
  have hbehind := h.list.behind _ hm
  have hstart := h.behind _ hlive
  simp only [heapObjectSize, blockHeaderSize] at *
  constructor <;> bv_omega

theorem WellFormed.not_adjusted_of_gt (h : s.WellFormed free)
    (hlive : address - blockHeaderSize ∈ s.liveBlocks)
    (hsize : s.heap.allocationSize address < alignUp newSize minimumAllocationGranularity)
    {result : BitVec 64}
    (hcall : s.call (.adjustAllocation address newSize) = .ok (result, s')) :
    ¬ s.Adjusted s' free address
      (roundUp newSize.toNat minimumAllocationGranularity.toNat) result := by
  intro hadjusted
  have hlt := BitVec.lt_def.mp hsize
  rw [← toNat_alignUp_of_pos (Nat.zero_lt_of_lt hlt)] at hadjusted
  have hcan := h.canExtend_iff hlive (alignUp newSize minimumAllocationGranularity).toNat
  rw [call, adjustAllocation_of_gt h.list hsize, ok_bind] at hcall
  by_cases hrefused : address + s.heap.allocationSize address ∈ free ∧
      alignUp newSize minimumAllocationGranularity <
        (s.heap.memory (s.heap.blockAfter free address)).blockSize + blockHeaderSize +
          s.heap.allocationSize address
  · -- The block behind is large enough, and the heap is left as it is.
    rw [if_pos hrefused] at hcall
    cases hcall
    obtain ⟨hm, hlarge⟩ := hrefused
    rw [blockAfter, if_pos hm, BitVec.lt_def, (h.room_toNat hlive hm).1] at hlarge
    have hgrown := hadjusted.grow hlt (hcan.mpr ⟨hm, hlarge.le⟩)
    exact absurd hgrown (Nat.not_le.mpr hlt)
  · rw [if_neg hrefused] at hcall
    cases hcall
    have hreported := hadjusted.reported
    by_cases hextend : s.CanExtend free address
        (alignUp newSize minimumAllocationGranularity).toNat
    · -- The block behind has just the room, and too large a size is written.
      obtain ⟨hm, hlarge⟩ := hcan.mp hextend
      obtain ⟨hroom, hbound⟩ := h.room_toNat hlive hm
      have hafter : s.heap.blockAfter free address = address + s.heap.allocationSize address :=
        if_pos hm
      rw [hafter] at hrefused hreported
      have hexact : alignUp newSize minimumAllocationGranularity =
          (s.heap.memory (address + s.heap.allocationSize address)).blockSize + blockHeaderSize +
            s.heap.allocationSize address := by
        have hge := BitVec.le_def.mp (BitVec.not_lt.mp fun hroomy => hrefused ⟨hm, hroomy⟩)
        rw [hroom] at hge
        exact BitVec.eq_of_toNat_eq (by rw [hroom]; omega)
      have hne : alignUp newSize minimumAllocationGranularity + 96 ≠ 0 := by
        rw [hexact]
        simp only [heapObjectSize] at hbound
        bv_omega
      rw [absorbBlockAfter_exact rfl hexact hne] at hreported
      bv_omega
    · rw [hadjusted.refuse hlt hextend] at hreported
      rw [hreported] at hlt
      exact Nat.lt_irrefl _ hlt

/-- An allocation is resized as it should be only to the size that it has. -/
theorem resizes_iff (h : s.WellFormed free) (hlive : address ∈ s.live) (newSize : BitVec 64) :
    s.Resizes free address newSize ↔
      s.heap.allocationSize address = alignUp newSize minimumAllocationGranularity := by
  have hblock : address - blockHeaderSize ∈ s.liveBlocks :=
    List.mem_map_of_mem (f := (· - blockHeaderSize)) hlive
  constructor
  · rintro ⟨result, s', hcall, hadjusted⟩
    by_contra hne
    by_cases hlt : s.heap.allocationSize address < alignUp newSize minimumAllocationGranularity
    · exact h.not_adjusted_of_gt hblock hlt hcall hadjusted
    · have hgt := BitVec.lt_of_le_ne (BitVec.not_lt.mp hlt) (Ne.symm hne)
      exact h.not_adjusted_of_lt hblock hgt hcall _ hadjusted
  · exact h.resizes_of_eq

/-- An allocation of 64 bytes with a free block of 256 bytes behind it. -/
def twoBlocks : HeapSystem where
  heap := {
    memory := fun block =>
      if block = 0x10098 then ⟨allocMagic, 0, 64⟩ else ⟨freeMagic, 0, 256⟩
    links := (Links.detached UIntPtr).pushBack 0x10070 (getListNode 0x100f8)
    this := 0x10000
    startAddress := 0x10098
    endAddress := 0x10218
    allocationMode := .firstFit }
  live := [0x100b8]

theorem twoBlocks_liveBlocks : twoBlocks.liveBlocks = [0x10098] := by decide

theorem twoBlocks_wellFormedList : twoBlocks.heap.WellFormedList [0x100f8] where
  coherent := Links.detached_coherent.pushBack _ _
  freeBlocks := by
    have hring : (Links.detached UIntPtr).Ring 0x10070 [] := Links.ring_nil.mpr rfl
    exact hring.pushBack Links.detached_coherent rfl (by decide)
  behind := by
    intro block hm
    rw [List.mem_singleton.mp hm]
    decide
  addressable := by
    intro block hm
    rw [List.mem_singleton.mp hm]
    decide

theorem twoBlocks_wellFormed : twoBlocks.WellFormed [0x100f8] where
  list := twoBlocks_wellFormedList
  behind := by
    intro block hm
    rw [twoBlocks_liveBlocks] at hm
    rw [List.mem_singleton.mp hm]
    decide
  addressable := by
    intro block hm
    rw [twoBlocks_liveBlocks] at hm
    rw [List.mem_singleton.mp hm]
    decide
  apart := by
    have hdisjoint : Disjoint (twoBlocks.heap.usedExtent 0x10098)
        (twoBlocks.heap.extent 0x100f8) := Set.Ico_disjoint_Ico.mpr (by decide)
    rw [parts, twoBlocks_liveBlocks]
    exact List.pairwise_pair.mpr hdisjoint

/-- 62 bytes round up to the 64 that the allocation has. -/
theorem twoBlocks_resizes : twoBlocks.Resizes [0x100f8] 0x100b8 62 :=
  (resizes_iff twoBlocks_wellFormed (List.mem_singleton_self _) 62).mpr (by decide)

/-- The free block behind the allocation has the room for 128 bytes, and the call leaves the
allocation at 64. -/
theorem twoBlocks_refuses : twoBlocks.WellFormed [0x100f8] ∧ 0x100b8 ∈ twoBlocks.live ∧
    twoBlocks.CanExtend [0x100f8] 0x100b8 128 ∧
      twoBlocks.call (.adjustAllocation 0x100b8 128) = .ok (64, twoBlocks) ∧
        ¬ twoBlocks.Resizes [0x100f8] 0x100b8 128 := by
  have hextend : twoBlocks.CanExtend [0x100f8] 0x100b8 128 :=
    ⟨0x100f8, List.mem_singleton_self _, by decide, by decide⟩
  have hcall : twoBlocks.call (.adjustAllocation 0x100b8 128) = .ok (64, twoBlocks) := by
    rw [call, adjustAllocation_of_gt twoBlocks_wellFormed.list (by decide), if_pos (by decide)]
    rfl
  refine ⟨twoBlocks_wellFormed, List.mem_singleton_self _, hextend, hcall, ?_⟩
  rintro ⟨result, s', hresult, hadjusted⟩
  rw [hcall] at hresult
  cases hresult
  exact absurd (hadjusted.grow (by decide) hextend) (by decide)

end HeapSystem

end DDFramework
