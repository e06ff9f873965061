import DDFramework.Library.Alignment
import DDFramework.Verification.ExpHeap.Split

/-! # When `TryAllocate` finds memory

A search that finds a block returns null, and a search in vain uses the head of the free
list as a block. -/

namespace DDFramework.ExpHeap

variable {heap : ExpHeap} {blocks nodes : List UIntPtr} {size alignment : BitVec 64}

/-! ### A search in vain -/

/-- The search passes over all the blocks and keeps the address in the last one. -/
theorem scan_firstFitBody_none
    (hnone : ∀ block ∈ blocks, ¬ heap.fits block size alignment = true) (address : UIntPtr) :
    scan (heap.firstFitBody size alignment) (blocks.map getListNode) address =
      (none, (blocks.getLast?.map (allocationAddressIn · alignment)).getD address) := by
  induction blocks generalizing address with
  | nil => rfl
  | cons block blocks ih =>
      have hblock := hnone block List.mem_cons_self
      rw [List.map_cons, scan_next (by rw [firstFitBody, getParent_getListNode, if_neg hblock]),
        ih (fun b hm => hnone b (List.mem_cons_of_mem block hm)), List.getLast?_cons]
      cases blocks.getLast? <;> rfl

/-- The search passes over all the blocks and keeps the null address that it started with. -/
theorem scan_bestFitBody_none
    (hnone : ∀ block ∈ blocks, ¬ heap.fits block size alignment = true) {s : BestFit}
    (hs : s.allocationAddress = s.smallerAddress) :
    scan (heap.bestFitBody size alignment) (blocks.map getListNode) s = (none, s) := by
  induction blocks with
  | nil => rfl
  | cons block blocks ih =>
      have hblock : ¬ heap.Improves size alignment s (getParent (getListNode block)) := by
        rw [getParent_getListNode]
        exact fun himproves => hnone block List.mem_cons_self himproves.2
      have hsame : { s with allocationAddress := s.smallerAddress } = s :=
        congrArg (fun address => { s with allocationAddress := address }) hs.symm
      rw [List.map_cons, scan_next (bestFitBody_of_not_improves hblock), hsame]
      exact ih (fun b hm => hnone b (List.mem_cons_of_mem block hm))

/-- The address at the end of a search in vain. -/
def vainAddress (heap : ExpHeap) (blocks : List UIntPtr) (alignment : BitVec 64) : UIntPtr :=
  match heap.allocationMode with
  | .firstFit => (blocks.getLast?.map (allocationAddressIn · alignment)).getD 0
  | .bestFit => 0

theorem findBlock_in_vain (hc : heap.links.Coherent) (h : heap.FreeBlocks blocks)
    (hnone : ∀ block ∈ blocks, ¬ heap.fits block size alignment = true) :
    heap.findBlock size alignment =
      .ok (heap.links.listEnd heap.freeBlockList, heap.vainAddress blocks alignment) := by
  have hfuel := ring_length_lt h
  dsimp only [findBlock, vainAddress]
  cases heap.allocationMode with
  | firstFit =>
      dsimp only
      rw [walk_ring hc h hfuel, scan_firstFitBody_none hnone]
      rfl
  | bestFit =>
      dsimp only
      rw [walk_ring hc h hfuel, ok_bind, scan_bestFitBody_none hnone rfl]
      refine congrArg Except.ok (Prod.ext ?_ rfl)
      dsimp only
      rw [endBlock, getListNode_getParent, Links.listEnd, Links.iteratorNode_iteratorTo hc]

/-- The head of the free list is then used as a block, unless the address is null. -/
theorem tryAllocate_in_vain {size : BitVec 64} {alignment : BitVec 32}
    (hc : heap.links.Coherent) (h : heap.FreeBlocks blocks) (hne : blocks ≠ [])
    (hnone : ∀ block ∈ blocks,
      ¬ heap.fits block (effectiveSize size) (effectiveAlignment alignment) = true) :
    heap.tryAllocate size alignment =
      if heap.vainAddress blocks (effectiveAlignment alignment) = 0 then .error .nullDereference
      else .ok (heap.vainAddress blocks (effectiveAlignment alignment),
        heap.addUsedBlock heap.endBlock (heap.vainAddress blocks (effectiveAlignment alignment))
          (effectiveSize size)) := by
  have hempty : ¬ heap.links.isEmpty heap.freeBlockList = true := by
    rw [h.isEmpty_eq, List.isEmpty_iff]
    exact hne
  rw [tryAllocate, if_neg hempty]
  dsimp only
  rw [findBlock_in_vain hc h hnone, ok_bind]
  dsimp only
  rw [if_neg (by simp)]
  rfl

/-- A search in vain never returns null: it faults or allocates at another address. -/
theorem tryAllocate_in_vain_ne {size : BitVec 64} {alignment : BitVec 32}
    (hc : heap.links.Coherent) (h : heap.FreeBlocks blocks) (hne : blocks ≠ [])
    (hnone : ∀ block ∈ blocks,
      ¬ heap.fits block (effectiveSize size) (effectiveAlignment alignment) = true)
    (heap' : ExpHeap) : heap.tryAllocate size alignment ≠ .ok (0, heap') := by
  intro htry
  rw [tryAllocate_in_vain hc h hne hnone] at htry
  split at htry
  · cases htry
  · next hnull =>
    injection htry with hpair
    exact hnull (congrArg Prod.fst hpair)

/-! ### What an allocation asks for -/

/-- Rounding up to the granularity wraps to 0 only where the rounded size is `2 ^ 64`. -/
theorem alignUp_granularity (size : BitVec 64) :
    (alignUp size minimumAllocationGranularity).toNat =
      roundUp size.toNat minimumAllocationGranularity.toNat % 2 ^ 64 :=
  toNat_add_and_not_mask (k := 2) (by decide) (Nat.mod_eq_of_lt size.isLt).symm

/-- The block holds the rounded size at the first aligned address behind its header. -/
def CanHold (heap : ExpHeap) (block : UIntPtr) (size : BitVec 64) (alignment : BitVec 32) :
    Prop :=
  roundUp (block.toNat + blockHeaderSize.toNat) (max alignment.toNat minimumAlignment.toNat) +
      roundUp size.toNat minimumAllocationGranularity.toNat ≤
    block.toNat + blockHeaderSize.toNat + (heap.memory block).blockSize.toNat

instance (heap : ExpHeap) (block : UIntPtr) (size : BitVec 64) (alignment : BitVec 32) :
    Decidable (heap.CanHold block size alignment) :=
  inferInstanceAs (Decidable (_ ≤ _))

/-- The block that the mode asks for: the first of the list that can hold the allocation, or
the smallest one. -/
def IsChoice (heap : ExpHeap) (blocks : List UIntPtr) (size : BitVec 64)
    (alignment : BitVec 32) (block : UIntPtr) : Prop :=
  heap.CanHold block size alignment ∧
    match heap.allocationMode with
    | .firstFit => ∃ before after, blocks = before ++ block :: after ∧
        ∀ other ∈ before, ¬ heap.CanHold other size alignment
    | .bestFit => block ∈ blocks ∧ ∀ other ∈ blocks, heap.CanHold other size alignment →
        (heap.memory block).blockSize ≤ (heap.memory other).blockSize

/-- `TryAllocate` returns the aligned address in the mode's choice, and null with nothing
changed if no block can hold the allocation. -/
structure FindsMemory (heap : ExpHeap) (blocks : List UIntPtr) (size : BitVec 64)
    (alignment : BitVec 32) : Prop where
  found : (∃ block ∈ blocks, heap.CanHold block size alignment) →
    ∃ block it address heap', heap.IsChoice blocks size alignment block ∧
      heap.findBlock (effectiveSize size) (effectiveAlignment alignment) = .ok (it, address) ∧
      getParent (heap.links.iteratorNode it) = block ∧
      address.toNat = roundUp (block.toNat + blockHeaderSize.toNat)
        (max alignment.toNat minimumAlignment.toNat) ∧
      address ≠ 0 ∧ heap.tryAllocate size alignment = .ok (address, heap')
  none : (∀ block ∈ blocks, ¬ heap.CanHold block size alignment) →
    heap.tryAllocate size alignment = .ok (0, heap)

theorem IsChoice.mem {size : BitVec 64} {alignment : BitVec 32} {block : UIntPtr}
    (h : heap.IsChoice blocks size alignment block) : block ∈ blocks := by
  have hmode := h.2
  cases hm : heap.allocationMode with
  | firstFit =>
      rw [hm] at hmode
      obtain ⟨before, after, rfl, -⟩ := hmode
      exact List.mem_append_right before List.mem_cons_self
  | bestFit =>
      rw [hm] at hmode
      exact hmode.1

theorem WellFormedList.tryAllocate_of_fits (h : heap.WellFormedList blocks) {size : BitVec 64}
    {alignment : BitVec 32} (hfit : ∃ block ∈ blocks,
      heap.fits block (effectiveSize size) (effectiveAlignment alignment) = true) :
    heap.tryAllocate size alignment = .ok (0, heap) := by
  obtain ⟨block, hm, hfit⟩ := hfit
  apply ExpHeap.tryAllocate_of_fits h.coherent h.freeBlocks hm hfit
  have haddressable := h.addressable block hm
  simp only [blockHeaderSize] at haddressable
  rw [BitVec.lt_def, BitVec.toNat_allOnes]
  bv_omega

/-- A search in vain ends at no block of the list. -/
theorem WellFormedList.endBlock_notMem (h : heap.WellFormedList blocks) :
    heap.endBlock ∉ blocks := by
  intro hm
  rw [endBlock, Links.listEnd, Links.iteratorNode_iteratorTo h.coherent] at hm
  have hnode := List.mem_map_of_mem (f := getListNode) hm
  rw [getListNode_getParent] at hnode
  exact Links.Ring.head_notMem h.freeBlocks hnode

/-- With a search in vain the call does not do its work. -/
theorem WellFormedList.fits_of_findsMemory (h : heap.WellFormedList blocks) {size : BitVec 64}
    {alignment : BitVec 32} (hfinds : heap.FindsMemory blocks size alignment)
    (hne : blocks ≠ []) : ∃ block ∈ blocks,
      heap.fits block (effectiveSize size) (effectiveAlignment alignment) = true := by
  by_contra hvain
  have hnone : ∀ block ∈ blocks,
      ¬ heap.fits block (effectiveSize size) (effectiveAlignment alignment) = true :=
    fun block hm hfit => hvain ⟨block, hm, hfit⟩
  have hfound := findBlock_in_vain h.coherent h.freeBlocks hnone
  by_cases hcan : ∃ block ∈ blocks, heap.CanHold block size alignment
  · obtain ⟨block, it, address', heap', hchoice, hsearch, hnode, -⟩ := hfinds.found hcan
    rw [hfound] at hsearch
    cases hsearch
    have hblock : heap.endBlock = block := hnode
    rw [← hblock] at hchoice
    exact h.endBlock_notMem hchoice.mem
  · have hnull := hfinds.none (fun block hm hc => hcan ⟨block, hm, hc⟩)
    exact tryAllocate_in_vain_ne h.coherent h.freeBlocks hne hnone heap hnull

/-- `TryAllocate` does its work exactly where there is none to do: no block can hold the
allocation, and the search is not in vain all the same. -/
theorem findsMemory_iff (h : heap.WellFormedList blocks) (size : BitVec 64)
    (alignment : BitVec 32) :
    heap.FindsMemory blocks size alignment ↔
      (∀ block ∈ blocks, ¬ heap.CanHold block size alignment) ∧
        (blocks = [] ∨ ∃ block ∈ blocks,
          heap.fits block (effectiveSize size) (effectiveAlignment alignment) = true) := by
  constructor
  · intro hfinds
    by_cases hne : blocks = []
    · subst hne
      exact ⟨by simp, Or.inl rfl⟩
    · have hfit := h.fits_of_findsMemory hfinds hne
      refine ⟨?_, Or.inr hfit⟩
      intro block hm hcan
      obtain ⟨_, _, address, heap', -, -, -, -, hnull, htry⟩ := hfinds.found ⟨block, hm, hcan⟩
      rw [h.tryAllocate_of_fits hfit] at htry
      cases htry
      exact hnull rfl
  · rintro ⟨hnone, hsearch⟩
    refine ⟨?_, fun _ => ?_⟩
    · rintro ⟨block, hm, hcan⟩
      exact absurd hcan (hnone block hm)
    · rcases hsearch with rfl | hfit
      · exact tryAllocate_of_empty h.freeBlocks size alignment
      · exact h.tryAllocate_of_fits hfit

/-- A size that rounds up to 0 passes the fit test, and no block can hold it. -/
theorem findsMemory_wrapped : ∃ heap,
    tryCreate (fun _ => ⟨0, 0, 0⟩) .bestFit 0x10000 4096 = some heap ∧
      heap.FindsMemory [0x10098] (BitVec.allOnes 64) 16 := by
  obtain ⟨heap, hheap, hlist, hcan, hfit⟩ := exists_created .bestFit 4096
    (fun heap => ¬ heap.CanHold 0x10098 (BitVec.allOnes 64) 16 ∧
      heap.fits 0x10098 (effectiveSize (BitVec.allOnes 64)) (effectiveAlignment 16) = true)
    (by decide) (by decide +kernel)
  refine ⟨heap, hheap, (findsMemory_iff hlist _ _).mpr ⟨?_, ?_⟩⟩
  · simpa using hcan
  · exact Or.inr ⟨0x10098, List.mem_singleton_self _, hfit⟩

/-- A fresh heap of 4096 bytes returns null for 100 bytes. -/
theorem found_block_refused : ∃ heap,
    tryCreate (fun _ => ⟨0, 0, 0⟩) .firstFit 0x10000 4096 = some heap ∧
      heap.WellFormedList [0x10098] ∧ heap.CanHold 0x10098 100 16 ∧
        heap.tryAllocate 100 16 = .ok (0, heap) ∧ ¬ heap.FindsMemory [0x10098] 100 16 := by
  obtain ⟨heap, hheap, hlist, hcan, hfit⟩ := exists_created .firstFit 4096
    (fun heap => heap.CanHold 0x10098 100 16 ∧
      heap.fits 0x10098 (effectiveSize 100) (effectiveAlignment 16) = true)
    (by decide) (by decide +kernel)
  have htry : heap.tryAllocate 100 16 = .ok (0, heap) :=
    hlist.tryAllocate_of_fits ⟨0x10098, List.mem_singleton_self _, hfit⟩
  refine ⟨heap, hheap, hlist, hcan, htry, ?_⟩
  intro hfinds
  obtain ⟨_, _, address, heap', -, -, -, -, hnull, hsome⟩ :=
    hfinds.found ⟨0x10098, List.mem_singleton_self _, hcan⟩
  rw [htry] at hsome
  cases hsome
  exact hnull rfl

end DDFramework.ExpHeap
