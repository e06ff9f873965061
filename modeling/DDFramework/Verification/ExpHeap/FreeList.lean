import DDFramework.Verification.ExpHeap.Split
import DDFramework.Verification.IntrusiveList.RangeFor
import Mathlib.Data.List.TakeWhile
import Mathlib.Order.Interval.Set.Disjoint

/-! # The free list under `AddFreeBlock`

`AddFreeBlock` takes blocks off the free list and puts none on it: its `LinkNext` takes back
what its `LinkPrev` did. -/

namespace DDFramework.ExpHeap

variable {heap : ExpHeap} {blocks xs ys : List UIntPtr} {newStart newEnd : UIntPtr}

/-! ### The search for the neighbours -/

/-- The search stops at the first block that does not start before the range. -/
theorem visit_neighbours (newStart : UIntPtr) (blocks : List UIntPtr) (last : Option UIntPtr) :
    visit (fun node (s : FreeNeighbours) =>
        if newStart ≤ getParent node then
          .ok (.stop { s with nextBlock := some (getParent node) })
        else .ok (.next ⟨some (getParent node), some (getParent node)⟩))
      (blocks.map getListNode) .ok ⟨last, last⟩ =
      .ok ⟨(blocks.takeWhile (· < newStart)).getLast?.or last,
        (blocks.dropWhile (· < newStart)).head?.or
          ((blocks.takeWhile (· < newStart)).getLast?.or last)⟩ := by
  induction blocks generalizing last with
  | nil => simp [visit_nil]
  | cons block blocks ih =>
      rw [List.map_cons]
      by_cases hlt : block < newStart
      · have hnot : ¬ newStart ≤ getParent (getListNode block) := by
          rw [getParent_getListNode]
          exact BitVec.not_le.mpr hlt
        rw [visit_next (by rw [if_neg hnot]), getParent_getListNode, ih,
          List.takeWhile_cons_of_pos (by simpa using hlt),
          List.dropWhile_cons_of_pos (by simpa using hlt), List.getLast?_cons]
        cases (blocks.takeWhile (· < newStart)).getLast? <;> rfl
      · have hle : newStart ≤ getParent (getListNode block) := by
          rw [getParent_getListNode]
          exact BitVec.not_lt.mp hlt
        rw [visit_stop (by rw [if_pos hle]), getParent_getListNode,
          List.takeWhile_cons_of_neg (by simpa using hlt),
          List.dropWhile_cons_of_neg (by simpa using hlt)]
        rfl

theorem findNeighbours_eq (h : heap.WellFormedList blocks) (newStart : UIntPtr) :
    heap.findNeighbours newStart = .ok ⟨(blocks.takeWhile (· < newStart)).getLast?,
      (blocks.dropWhile (· < newStart)).head?.or
        (blocks.takeWhile (· < newStart)).getLast?⟩ := by
  have hvisit := visit_neighbours newStart blocks none
  rw [Option.or_none] at hvisit
  rw [findNeighbours]
  refine (rangeFor_eq_visit (fun _ => True) ?_ ?_ ?_ ?_ trivial).trans hvisit
  · exact h.coherent
  · exact h.freeBlocks
  · exact ring_length_lt h.freeBlocks
  · intro node _ s s' _ hbody
    exact ⟨rfl, trivial⟩

/-! ### Coalescing -/

theorem WellFormedList.unlinkBlock {block : UIntPtr}
    (h : heap.WellFormedList (xs ++ block :: ys)) :
    (heap.unlinkBlock block).WellFormedList (xs ++ ys) := by
  have hsub : (xs ++ ys).Sublist (xs ++ block :: ys) :=
    (List.Sublist.refl xs).append (List.sublist_cons_self block ys)
  refine ⟨h.coherent.unlink _, ?_, ?_, ?_⟩
  · have hring := h.freeBlocks
    rw [FreeBlocks, List.map_append, List.map_cons] at hring
    rw [FreeBlocks, List.map_append]
    exact hring.unlink_middle h.coherent
  · exact fun other hm => h.behind other (hsub.subset hm)
  · exact fun other hm => h.addressable other (hsub.subset hm)

theorem WellFormedList.nodup (h : heap.WellFormedList blocks) : blocks.Nodup := by
  have hnodes := (List.nodup_cons.mp (Links.Ring.nodup h.freeBlocks)).2
  exact hnodes.of_map getListNode

/-- Coalescing at the back takes the block behind the range off the list, or nothing. -/
theorem WellFormedList.coalesceBack (h : heap.WellFormedList (xs ++ ys))
    (hend : ∀ block ∈ xs, newEnd ≠ block) :
    ∃ kept newEnd' heap', kept.Sublist ys ∧ heap'.WellFormedList (xs ++ kept) ∧
      heap'.memory = heap.memory ∧ heap'.this = heap.this ∧
      heap.coalesceBack (ys.head?.or xs.getLast?) newEnd = (newEnd', heap') := by
  cases ys with
  | nil =>
      refine ⟨[], newEnd, heap, List.Sublist.refl [], h, rfl, rfl, ?_⟩
      rw [List.head?_nil, Option.none_or]
      cases hlast : xs.getLast? with
      | none => rfl
      | some last => exact if_neg (hend last (List.mem_of_getLast? hlast))
  | cons next ys =>
      by_cases htouch : newEnd = next
      · exact ⟨ys, heap.freeBlockEnd next, heap.unlinkBlock next, List.sublist_cons_self next ys,
          h.unlinkBlock, rfl, rfl, if_pos htouch⟩
      · exact ⟨next :: ys, newEnd, heap, List.Sublist.refl _, h, rfl, rfl, if_neg htouch⟩

/-- Coalescing at the front takes the block before the range off the list, or nothing. The
node to link behind is on the list, and the new block is not. -/
theorem WellFormedList.coalesceFront (h : heap.WellFormedList (xs ++ ys))
    (hstart : newStart ∉ xs ++ ys) {start link : UIntPtr} {heap' : ExpHeap}
    (hok : heap.coalesceFront xs.getLast? newStart = .ok (start, link, heap')) :
    ∃ kept, kept.Sublist (xs ++ ys) ∧ heap'.WellFormedList kept ∧
      heap'.memory = heap.memory ∧ heap'.this = heap.this ∧
      link ∈ heap.freeBlockList :: kept.map getListNode ∧ start ∉ kept ∧
      (start = newStart ∨ start ∈ xs ++ ys) := by
  cases hlast : xs.getLast? with
  | none =>
      rw [hlast] at hok
      cases hok
  | some last =>
      obtain ⟨xs, rfl⟩ := List.getLast?_eq_some_iff.mp hlast
      rw [hlast] at hok
      rw [List.append_assoc, List.singleton_append] at h hstart
      dsimp only [ExpHeap.coalesceFront] at hok
      by_cases htouch : newStart = heap.freeBlockEnd last
      · rw [if_pos htouch] at hok
        cases hok
        have hring := h.freeBlocks
        rw [FreeBlocks, List.map_append, List.map_cons] at hring
        have hnodup := h.nodup
        rw [List.nodup_middle, List.nodup_cons] at hnodup
        refine ⟨xs ++ ys, ?_, h.unlinkBlock, rfl, rfl, ?_, hnodup.1, Or.inr (by simp)⟩
        · simp
        · rw [List.map_append]
          exact hring.prev_mem_middle h.coherent
      · rw [if_neg htouch] at hok
        cases hok
        refine ⟨xs ++ last :: ys, by simp, h, rfl, rfl, by simp, hstart, Or.inl rfl⟩

/-- With no block before the range, `AddFreeBlock` reads through a null pointer. -/
theorem WellFormedList.addFreeBlock_of_none_before (h : heap.WellFormedList blocks)
    (hbefore : ∀ block ∈ blocks.head?, newStart ≤ block) (newEnd : UIntPtr) :
    heap.addFreeBlock newStart newEnd = .error .nullDereference := by
  have hnil : blocks.takeWhile (· < newStart) = [] := by
    cases blocks with
    | nil => rfl
    | cons block blocks =>
        have hle := hbefore block rfl
        exact List.takeWhile_cons_of_neg (by simpa using hle)
  rw [ExpHeap.addFreeBlock, findNeighbours_eq h, ok_bind, hnil]
  rfl

/-! ### The new block -/

/-- Linking the new block leaves the links as its constructor made them. -/
theorem WellFormedList.link_new (h : heap.WellFormedList blocks) {start link : UIntPtr}
    (hlink : link ∈ heap.freeBlockList :: blocks.map getListNode)
    (hstart : start ∉ blocks) (hhead : getListNode start ≠ heap.freeBlockList) :
    let L := heap.links.construct (getListNode start)
    (L.linkPrev (L.next link) (getListNode start)).linkNext link (getListNode start) = L ∧
      L.Ring heap.freeBlockList (blocks.map getListNode) := by
  have hnode : getListNode start ∉ heap.freeBlockList :: blocks.map getListNode := by
    intro hm
    rcases List.mem_cons.mp hm with he | hm
    · exact hhead he
    · obtain ⟨block, hblock, he⟩ := List.mem_map.mp hm
      have hsame := congrArg getParent he
      rw [getParent_getListNode, getParent_getListNode] at hsame
      exact hstart (hsame ▸ hblock)
  have hne : ∀ node ∈ heap.freeBlockList :: blocks.map getListNode, node ≠ getListNode start := by
    rintro node hm rfl
    exact hnode hm
  have hafter := (Links.Ring.next_mem_iff h.coherent h.freeBlocks link).mpr hlink
  have hbefore := (Links.Ring.prev_mem_iff h.coherent h.freeBlocks link).mpr hlink
  have hnext : ∀ node ∈ heap.freeBlockList :: blocks.map getListNode,
      (heap.links.construct (getListNode start)).next node = heap.links.next node :=
    fun node hm => Function.update_of_ne (hne node hm) _ _
  have hprev : ∀ node ∈ heap.freeBlockList :: blocks.map getListNode,
      (heap.links.construct (getListNode start)).prev node = heap.links.prev node :=
    fun node hm => Function.update_of_ne (hne node hm) _ _
  constructor
  · apply Links.linkNext_linkPrev
    · rw [hnext link hlink, hprev _ hafter, h.coherent.prev_next]
    · rw [hprev link hlink, hnext _ hbefore, h.coherent.next_prev]
    · exact Function.update_self _ _ _
    · exact Function.update_self _ _ _
    · exact hne link hlink
  · exact ⟨Links.Ring.path h.freeBlocks |>.congr hnext, Links.Ring.nodup h.freeBlocks⟩

/-- `AddFreeBlock` only takes blocks off the free list. The header it writes is of no block
that stays on the list. -/
theorem WellFormedList.addFreeBlock (h : heap.WellFormedList blocks) (hstart : newStart ∉ blocks)
    (hhead : getListNode newStart ≠ heap.freeBlockList)
    (hend : ∀ block ∈ blocks, block < newStart → newEnd ≠ block) {added : Bool} {heap' : ExpHeap}
    (hok : heap.addFreeBlock newStart newEnd = .ok (added, heap')) :
    ∃ kept start, kept.Sublist blocks ∧ heap'.FreeBlocks kept ∧ start ∉ kept ∧
      (start = newStart ∨ start ∈ blocks) ∧
      ∀ block ≠ start, heap'.memory block = heap.memory block := by
  rw [ExpHeap.addFreeBlock, findNeighbours_eq h, ok_bind] at hok
  have hbefore : ∀ block ∈ blocks.takeWhile (· < newStart), newEnd ≠ block := by
    intro block hm
    exact hend block ((List.takeWhile_sublist _).subset hm) (by simpa using List.mem_takeWhile_imp hm)
  have hsplit := List.takeWhile_append_dropWhile (p := fun block => decide (block < newStart))
    (l := blocks)
  generalize blocks.takeWhile (· < newStart) = xs at hok hbefore hsplit
  generalize blocks.dropWhile (· < newStart) = ys at hok hsplit
  subst hsplit
  obtain ⟨behind, newEnd', heapB, hbehind, hwellB, hmemoryB, hthisB, hback⟩ :=
    h.coalesceBack hbefore
  dsimp only at hok
  rw [hback] at hok
  dsimp only at hok
  obtain ⟨⟨start, link, heapF⟩, hfront, hok⟩ := bind_eq_ok_iff.mp hok
  have hsub : (xs ++ behind).Sublist (xs ++ ys) := (List.Sublist.refl xs).append hbehind
  obtain ⟨kept, hkept, hwellF, hmemoryF, hthisF, hlink, hnew, horigin⟩ :=
    hwellB.coalesceFront (fun hm => hstart (hsub.subset hm)) hfront
  dsimp only at hok
  have horigin' : start = newStart ∨ start ∈ xs ++ ys := horigin.imp_right fun hm => hsub.subset hm
  have hlist : heapF.freeBlockList = heap.freeBlockList := by
    rw [freeBlockList, freeBlockList, hthisF, hthisB]
  have hnode : getListNode start ≠ heapF.freeBlockList := by
    rw [hlist]
    rcases horigin' with rfl | hm
    · exact hhead
    · intro he
      exact Links.Ring.head_notMem h.freeBlocks (he ▸ List.mem_map_of_mem hm)
  have hmemory : heapF.memory = heap.memory := hmemoryF.trans hmemoryB
  refine ⟨kept, start, hkept.trans hsub, ?_, hnew, horigin', ?_⟩
  · split at hok
    · cases hok
      exact hwellF.freeBlocks
    · cases hok
      have hlink' : link ∈ heapF.freeBlockList :: kept.map getListNode := by
        rw [hlist, freeBlockList, ← hthisB]
        exact hlink
      obtain ⟨hlinks, hring⟩ := hwellF.link_new hlink' hnew hnode
      rw [← hlinks] at hring
      exact hring
  · intro block hne
    split at hok
    · cases hok
      rw [hmemory]
    · cases hok
      rw [← hmemory]
      exact Function.update_of_ne hne _ _

/-! ### Ranges that are freed -/

/-- A free list in address order whose blocks neither overlap nor touch. -/
structure SortedList (heap : ExpHeap) (blocks : List UIntPtr) : Prop
    extends WellFormedList heap blocks where
  sorted : blocks.Pairwise fun b c =>
    b.toNat + blockHeaderSize.toNat + (heap.memory b).blockSize.toNat < c.toNat

/-- The free list has the range in addition and is sorted and coalesced again. -/
def AddsRange (heap : ExpHeap) (blocks : List UIntPtr) (newStart : UIntPtr)
    (length : BitVec 64) : Prop :=
  ∃ heap' blocks', heap.addFreeBlock newStart (newStart + length) = .ok (true, heap') ∧
    heap'.SortedList blocks' ∧
    ⋃ block ∈ blocks', heap'.extent block =
      (⋃ block ∈ blocks, heap.extent block) ∪
        Set.Ico newStart.toNat (newStart.toNat + length.toNat)

theorem start_mem_extent (heap : ExpHeap) (block : UIntPtr) :
    block.toNat ∈ heap.extent block := by
  simp only [extent, blockHeaderSize, Set.mem_Ico]
  bv_omega

/-- The blocks of the free list afterwards are blocks that were on it, with their headers. -/
theorem WellFormedList.addFreeBlock_kept (h : heap.WellFormedList blocks) {length : BitVec 64}
    (hbehind : heap.this.toNat + heapObjectSize.toNat ≤ newStart.toNat)
    (hlength : newStart.toNat + length.toNat ≤ 2 ^ 64)
    (hout : ∀ block ∈ blocks, newStart.toNat ∉ heap.extent block) {added : Bool}
    {heap' : ExpHeap}
    (hok : heap.addFreeBlock newStart (newStart + length) = .ok (added, heap')) :
    ∃ kept, heap'.FreeBlocks kept ∧
      (∀ block ∈ kept, block ∈ blocks ∧ heap'.memory block = heap.memory block) ∧
      ∀ block ∉ blocks, block ≠ newStart → heap'.memory block = heap.memory block := by
  have hstart : newStart ∉ blocks := fun hm => hout newStart hm (start_mem_extent heap newStart)
  have hhead : getListNode newStart ≠ heap.freeBlockList := by
    simp only [heapObjectSize] at hbehind
    simp only [getListNode, freeBlockList, expListNodeOffset]
    bv_omega
  have hend : ∀ block ∈ blocks, block < newStart → newStart + length ≠ block := by
    intro block hm hlt
    have hblock := h.behind block hm
    simp only [heapObjectSize] at hblock
    bv_omega
  obtain ⟨kept, start, hsub, hfree, hnew, horigin, hmemory⟩ :=
    h.addFreeBlock hstart hhead hend hok
  refine ⟨kept, hfree, fun block hm => ⟨hsub.subset hm, hmemory block ?_⟩, ?_⟩
  · rintro rfl
    exact hnew hm
  · intro block hm hne
    apply hmemory
    rintro rfl
    exact horigin.elim hne hm

/-- `AddFreeBlock` never adds the range: it faults or leaves the new block unlinked. -/
theorem not_addsRange (h : heap.SortedList blocks) {length : BitVec 64}
    (hlength : newStart.toNat + length.toNat ≤ 2 ^ 64)
    (hlarge : blockHeaderSize ≤ length)
    (hout : ∀ block ∈ blocks, Disjoint (heap.extent block)
      (Set.Ico newStart.toNat (newStart.toNat + length.toNat))) :
    ¬ heap.AddsRange blocks newStart length := by
  rintro ⟨heap', blocks', hok, hsorted, hunion⟩
  have hfirst : newStart.toNat ∈ Set.Ico newStart.toNat (newStart.toNat + length.toNat) := by
    simp only [blockHeaderSize] at hlarge
    exact ⟨Nat.le_refl _, by bv_omega⟩
  have hbehind : heap.this.toNat + heapObjectSize.toNat ≤ newStart.toNat := by
    by_contra hbefore
    -- Every block is behind a range that starts before or in the heap object.
    have hnone : ∀ block ∈ blocks.head?, newStart ≤ block := by
      intro block hm
      have hblock := h.behind block (List.mem_of_mem_head? hm)
      rw [BitVec.le_def]
      omega
    rw [h.toWellFormedList.addFreeBlock_of_none_before hnone] at hok
    cases hok
  have hnot : ∀ block ∈ blocks, newStart.toNat ∉ heap.extent block :=
    fun block hm hin => Set.disjoint_left.mp (hout block hm) hin hfirst
  obtain ⟨kept, hfree, hkept, -⟩ :=
    h.toWellFormedList.addFreeBlock_kept hbehind hlength hnot hok
  obtain rfl := hfree.unique hsorted.freeBlocks
  have hin : newStart.toNat ∈ ⋃ block ∈ kept, heap'.extent block := by
    rw [hunion]
    exact Or.inr hfirst
  obtain ⟨block, hm, hextent⟩ := Set.mem_iUnion₂.mp hin
  obtain ⟨hblock, hmemory⟩ := hkept block hm
  rw [extent, hmemory] at hextent
  exact hnot block hblock hextent

/-- A range behind the only block of a heap. -/
theorem not_addsRange_behind : ∃ heap,
    tryCreate (fun _ => ⟨0, 0, 0⟩) .firstFit 0x10000 248 = some heap ∧
      ¬ heap.AddsRange [0x10098] 0x10200 64 := by
  obtain ⟨heap, hheap, hlist, hsize⟩ := exists_created .firstFit 248
    (fun heap => (heap.memory 0x10098).blockSize = 64)
    (by decide) (by decide +kernel)
  refine ⟨heap, hheap, not_addsRange ⟨hlist, List.pairwise_singleton _ _⟩ ?_ ?_ ?_⟩
  · decide
  · decide
  · intro block hm
    rw [List.mem_singleton.mp hm, extent, hsize]
    exact Set.Ico_disjoint_Ico.mpr (by decide)

/-- A heap whose memory is all in use. -/
def fullHeap : ExpHeap where
  memory := fun _ => ⟨allocMagic, 0, 64⟩
  links := .detached UIntPtr
  this := 0x10000
  startAddress := 0x10098
  endAddress := 0x100f8
  allocationMode := .firstFit

theorem fullHeap_sortedList : fullHeap.SortedList [] where
  coherent := Links.detached_coherent
  freeBlocks := Links.ring_nil.mpr rfl
  behind := by simp
  addressable := by simp
  sorted := List.Pairwise.nil

/-- The first range that is freed into an empty list. -/
theorem empty_list_faults : fullHeap.SortedList [] ∧
    fullHeap.addFreeBlock 0x10098 (0x10098 + 96) = .error .nullDereference ∧
      ¬ fullHeap.AddsRange [] 0x10098 96 := by
  have hfault : fullHeap.addFreeBlock 0x10098 (0x10098 + 96) = .error .nullDereference :=
    fullHeap_sortedList.toWellFormedList.addFreeBlock_of_none_before (by simp) _
  refine ⟨fullHeap_sortedList, hfault, ?_⟩
  rintro ⟨heap', blocks', hok, -⟩
  rw [hfault] at hok
  cases hok

end DDFramework.ExpHeap
