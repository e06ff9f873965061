import DDFramework.Model.ExpHeap
import DDFramework.Verification.IntrusiveList.Walk
import Mathlib.Data.Fintype.Card

/-! # The search of `TryAllocate`

Both modes end at a block of the free list if one passes the fit test, and the call then
returns null. -/

namespace DDFramework.ExpHeap

variable {heap : ExpHeap} {blocks nodes : List UIntPtr} {size alignment : BitVec 64}

@[simp] theorem getParent_getListNode (block : UIntPtr) : getParent (getListNode block) = block :=
  BitVec.add_sub_cancel block expListNodeOffset

@[simp] theorem getListNode_getParent (node : UIntPtr) : getListNode (getParent node) = node :=
  BitVec.sub_add_cancel node expListNodeOffset

theorem getListNode_injective : Function.Injective getListNode := by
  intro b c he
  rw [← getParent_getListNode b, he, getParent_getListNode]

/-- The blocks of the free list, in list order. -/
def FreeBlocks (heap : ExpHeap) (blocks : List UIntPtr) : Prop :=
  heap.links.Ring heap.freeBlockList (blocks.map getListNode)

/-- A list cannot be longer than memory. -/
theorem ring_length_lt {L : Links UIntPtr} {list : UIntPtr} (hr : L.Ring list nodes) :
    nodes.length < addressCount := by
  have hinj : Function.Injective (BitVec.toFin (w := 64)) := fun _ _ => BitVec.eq_of_toFin_eq
  have hle := (hr.nodup.map hinj).length_le_card
  rw [List.length_map, List.length_cons, Fintype.card_fin] at hle
  exact hle

theorem FreeBlocks.isEmpty_eq (h : heap.FreeBlocks blocks) :
    heap.links.isEmpty heap.freeBlockList = blocks.isEmpty := by
  rw [Links.Ring.isEmpty_eq h, Bool.eq_iff_iff, List.isEmpty_iff, List.isEmpty_iff,
    List.map_eq_nil_iff]

theorem FreeBlocks.unique {blocks' : List UIntPtr} (h : heap.FreeBlocks blocks)
    (h' : heap.FreeBlocks blocks') : blocks = blocks' :=
  getListNode_injective.list_map (Links.Ring.unique h h')

/-! ### First fit -/

theorem scan_firstFitBody_isSome {node : UIntPtr} (hm : node ∈ nodes)
    (hfit : heap.fits (getParent node) size alignment = true) (address : UIntPtr) :
    ∃ found ∈ nodes, (scan (heap.firstFitBody size alignment) nodes address).1 = some found := by
  induction nodes generalizing address with
  | nil => cases hm
  | cons x xs ih =>
      by_cases hx : heap.fits (getParent x) size alignment = true
      · refine ⟨x, by simp, ?_⟩
        rw [scan_stop (by rw [firstFitBody, if_pos hx])]
      · have htail : node ∈ xs := by
          refine (List.mem_cons.mp hm).resolve_left ?_
          rintro rfl
          exact hx hfit
        obtain ⟨found, hf, he⟩ := ih htail (allocationAddressIn (getParent x) alignment)
        refine ⟨found, List.mem_cons_of_mem x hf, ?_⟩
        rw [scan_next (by rw [firstFitBody, if_neg hx]), he]

/-! ### Best fit -/

/-- The test that makes a block the new candidate. -/
def Improves (heap : ExpHeap) (size alignment : BitVec 64) (s : BestFit) (block : UIntPtr) :
    Prop :=
  (heap.memory block).blockSize < s.smallerSize ∧ heap.fits block size alignment = true

/-- The block as a candidate. -/
def candidate (heap : ExpHeap) (alignment : BitVec 64) (block : UIntPtr) : BestFit where
  smallerSize := (heap.memory block).blockSize
  smallerAddress := allocationAddressIn block alignment
  smallerBlock := block
  allocationAddress := allocationAddressIn block alignment

theorem bestFitBody_of_improves {node : UIntPtr} {s : BestFit}
    (h : heap.Improves size alignment s (getParent node)) :
    heap.bestFitBody size alignment node s =
      if (heap.memory (getParent node)).blockSize = size then
        .stop (heap.candidate alignment (getParent node))
      else .next (heap.candidate alignment (getParent node)) :=
  if_pos h

theorem bestFitBody_of_not_improves {node : UIntPtr} {s : BestFit}
    (h : ¬ heap.Improves size alignment s (getParent node)) :
    heap.bestFitBody size alignment node s =
      .next { s with allocationAddress := s.smallerAddress } :=
  if_neg h

/-- The candidate at the end is a block of the list, unless none was an improvement. -/
theorem scan_bestFitBody_smallerBlock (nodes : List UIntPtr) (s : BestFit) :
    getListNode (scan (heap.bestFitBody size alignment) nodes s).2.smallerBlock ∈ nodes ∨
      (scan (heap.bestFitBody size alignment) nodes s).2.smallerBlock = s.smallerBlock ∧
        ∀ node ∈ nodes, ¬ heap.Improves size alignment s (getParent node) := by
  induction nodes generalizing s with
  | nil => exact Or.inr ⟨rfl, by simp⟩
  | cons x xs ih =>
      by_cases hx : heap.Improves size alignment s (getParent x)
      · left
        have hbody := bestFitBody_of_improves hx
        by_cases hexact : (heap.memory (getParent x)).blockSize = size
        · rw [if_pos hexact] at hbody
          rw [scan_stop hbody]
          simp [candidate]
        · rw [if_neg hexact] at hbody
          rw [scan_next hbody]
          rcases ih (heap.candidate alignment (getParent x)) with hm | ⟨he, -⟩
          · exact List.mem_cons_of_mem x hm
          · rw [he]
            simp [candidate]
      · rw [scan_next (bestFitBody_of_not_improves hx)]
        rcases ih { s with allocationAddress := s.smallerAddress } with hm | ⟨he, hnone⟩
        · exact Or.inl (List.mem_cons_of_mem x hm)
        · refine Or.inr ⟨he, ?_⟩
          intro node hn
          rcases List.mem_cons.mp hn with rfl | hn
          · exact hx
          · exact hnone node hn

/-! ### Both modes -/

/-- With a fitting block on the list, the search ends at a block of the list. The best-fit
search compares with `SIZE_MAX` first. -/
theorem findBlock_of_fits (hc : heap.links.Coherent)
    (hr : heap.links.Ring heap.freeBlockList nodes) {node : UIntPtr} (hm : node ∈ nodes)
    (hfit : heap.fits (getParent node) size alignment = true)
    (hsize : (heap.memory (getParent node)).blockSize < BitVec.allOnes 64) :
    ∃ found ∈ nodes, ∃ address,
      heap.findBlock size alignment = .ok (heap.links.iteratorTo found, address) := by
  have hfuel := ring_length_lt hr
  dsimp only [findBlock]
  cases heap.allocationMode with
  | firstFit =>
      obtain ⟨found, hf, he⟩ := scan_firstFitBody_isSome hm hfit 0
      refine ⟨found, hf, (scan (heap.firstFitBody size alignment) nodes 0).2, ?_⟩
      dsimp only
      rw [walk_ring hc hr hfuel, he, Option.getD_some]
  | bestFit =>
      dsimp only
      rw [walk_ring hc hr hfuel, ok_bind]
      rcases scan_bestFitBody_smallerBlock nodes
        ⟨BitVec.allOnes 64, 0, heap.endBlock, 0⟩ with hf | ⟨-, hnone⟩
      · exact ⟨_, hf, _, rfl⟩
      · exact absurd ⟨hsize, hfit⟩ (hnone node hm)

theorem tryAllocate_of_empty (h : heap.FreeBlocks []) (size : BitVec 64)
    (alignment : BitVec 32) : heap.tryAllocate size alignment = .ok (0, heap) := by
  rw [tryAllocate, h.isEmpty_eq]
  rfl

/-- The test behind the search is the wrong way round: a search that found a block returns
null. -/
theorem tryAllocate_of_fits {size : BitVec 64} {alignment : BitVec 32} {block : UIntPtr}
    (hc : heap.links.Coherent) (h : heap.FreeBlocks blocks) (hm : block ∈ blocks)
    (hfit : heap.fits block (effectiveSize size) (effectiveAlignment alignment) = true)
    (hsize : (heap.memory block).blockSize < BitVec.allOnes 64) :
    heap.tryAllocate size alignment = .ok (0, heap) := by
  have hnode : getListNode block ∈ blocks.map getListNode := List.mem_map_of_mem hm
  obtain ⟨found, hf, address, hfound⟩ := findBlock_of_fits hc h hnode
    (by rwa [getParent_getListNode]) (by rwa [getParent_getListNode])
  have hne : heap.links.iteratorTo found ≠ heap.links.listEnd heap.freeBlockList := by
    rw [ne_eq, Links.iteratorTo_eq_listEnd_iff hc]
    rintro rfl
    exact Links.Ring.head_notMem h hf
  rw [tryAllocate, h.isEmpty_eq]
  split
  · rfl
  · dsimp only
    rw [hfound, ok_bind]
    dsimp only
    rw [if_pos hne]
    rfl

end DDFramework.ExpHeap
