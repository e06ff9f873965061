import DDFramework.Verification.ExpHeap.Search
import Mathlib.Data.Set.Lattice
import Mathlib.Order.CompletePartialOrder
import Mathlib.Order.Interval.Set.Basic

/-! # The layout of a heap under its users' calls

The blocks of a heap keep apart inside its memory for as long as no `TryAllocate` searches
in vain. A search in vain goes on with the head of the free list as if it were a block. -/

namespace DDFramework

namespace ExpHeap

/-- The bytes of a block: its header and its payload. -/
def extent (heap : ExpHeap) (block : UIntPtr) : Set ℕ :=
  Set.Ico block.toNat (block.toNat + blockHeaderSize.toNat + (heap.memory block).blockSize.toNat)

/-! ### A created heap -/

/-- A heap as `TryCreate` returns it: one free block that spans it. -/
structure Fresh (heap : ExpHeap) (address : UIntPtr) (size : BitVec 64) : Prop where
  size_ge : heapObjectSize + blockHeaderSize + minimumAllocationGranularity ≤ size
  coherent : heap.links.Coherent
  freeBlocks : heap.FreeBlocks [address + heapObjectSize]
  blockSize : (heap.memory (address + heapObjectSize)).blockSize =
    size - heapObjectSize - blockHeaderSize

theorem firstNode_ne_freeBlockList (address : UIntPtr) :
    getListNode (address + heapObjectSize) ≠ address + 112 := by
  simp only [getListNode, heapObjectSize, expListNodeOffset]
  bv_omega

theorem tryCreate_fresh {memory : UIntPtr → ExpHeapMemoryBlock} {mode : AllocationMode}
    {address : UIntPtr} {size : BitVec 64} {heap : ExpHeap}
    (h : tryCreate memory mode address size = some heap) : heap.Fresh address size := by
  dsimp only [tryCreate] at h
  split at h
  · cases h
  · rename_i hguard
    cases h
    -- The nodes of the new heap object and of its first block are detached.
    have hdetached : (Links.detached UIntPtr).construct (getListNode (address + heapObjectSize)) =
        Links.detached UIntPtr := Links.construct_of_detached rfl rfl
    have hlinks : ((Links.detached UIntPtr).pushBack (address + 112)
        (getListNode (address + heapObjectSize))).Ring (address + 112)
          ([] ++ [getListNode (address + heapObjectSize)]) := by
      apply Links.Ring.pushBack Links.detached_coherent (Links.ring_nil.mpr rfl) rfl
      simpa using firstNode_ne_freeBlockList address
    have hcoherent := Links.detached_coherent.pushBack (address + 112)
      (getListNode (address + heapObjectSize))
    rw [← hdetached] at hlinks hcoherent
    refine ⟨BitVec.not_lt.mp (fun hlt => hguard (Or.inr hlt)), hcoherent, hlinks, ?_⟩
    simp

/-- The free block spans exactly the memory behind the heap object. -/
theorem Fresh.extent_eq {heap : ExpHeap} {address : UIntPtr} {size : BitVec 64}
    (h : heap.Fresh address size) (hregion : address.toNat + size.toNat ≤ 2 ^ 64) :
    heap.extent (address + heapObjectSize) =
      Set.Ico (address.toNat + heapObjectSize.toNat) (address.toNat + size.toNat) := by
  have hsize := h.size_ge
  have hblock := congrArg BitVec.toNat h.blockSize
  simp only [heapObjectSize, blockHeaderSize, minimumAllocationGranularity] at hsize hblock
  simp only [extent, heapObjectSize, blockHeaderSize]
  congr 1
  · bv_omega
  · rw [hblock]
    bv_omega

/-- A free list of one block is passed over by every call that finds the block fitting. -/
theorem Fresh.tryAllocate {heap : ExpHeap} {address : UIntPtr} {size : BitVec 64}
    (h : heap.Fresh address size) {requested : BitVec 64} {alignment : BitVec 32}
    {blocks : List UIntPtr} (hblocks : heap.FreeBlocks blocks)
    (hfits : blocks = [] ∨ ∃ block ∈ blocks,
      heap.fits block (effectiveSize requested) (effectiveAlignment alignment) = true) :
    heap.tryAllocate requested alignment = .ok (0, heap) := by
  rcases hfits with rfl | ⟨block, hm, hfit⟩
  · exact tryAllocate_of_empty hblocks requested alignment
  · apply tryAllocate_of_fits h.coherent hblocks hm hfit
    have hsize := h.size_ge
    rw [hblocks.unique h.freeBlocks] at hm
    rw [List.mem_singleton.mp hm, h.blockSize]
    simp only [heapObjectSize, blockHeaderSize, minimumAllocationGranularity] at hsize ⊢
    rw [BitVec.lt_def, BitVec.toNat_allOnes]
    bv_omega

end ExpHeap

namespace HeapSystem

open ExpHeap

variable {s : HeapSystem} {address : UIntPtr} {size : BitVec 64}

/-- The blocks of the live allocations. -/
def liveBlocks (s : HeapSystem) : List UIntPtr := s.live.map (· - blockHeaderSize)

/-- The live allocations and the free blocks are apart, inside the memory of the heap. -/
structure Layout (s : HeapSystem) (address : UIntPtr) (size : BitVec 64)
    (free : List UIntPtr) : Prop where
  freeBlocks : s.heap.FreeBlocks free
  apart : (s.liveBlocks ++ free).Pairwise fun b c => Disjoint (s.heap.extent b) (s.heap.extent c)
  inside : ∀ b ∈ s.liveBlocks ++ free, s.heap.extent b ⊆
    Set.Ico (address.toNat + heapObjectSize.toNat) (address.toNat + size.toNat)

def LaidOut (s : HeapSystem) (address : UIntPtr) (size : BitVec 64) : Prop :=
  ∃ free, s.Layout address size free

/-- A result of `TryAllocate` is null, or it is aligned and starts a payload of the requested
size. -/
def Delivers (s : HeapSystem) : HeapCall → BitVec 64 → Prop
  | .tryAllocate size alignment, result => result ≠ 0 →
      max alignment.toNat 4 ∣ result.toNat ∧
        size.toNat ≤ (s.heap.memory (result - blockHeaderSize)).blockSize.toNat
  | _, _ => True

/-- `TryAllocate` is called only when the free list is empty or a block on it passes the fit
test. -/
def NoVainSearch (s : HeapSystem) : HeapCall → Prop
  | .tryAllocate size alignment => ∃ blocks, s.heap.FreeBlocks blocks ∧
      (blocks = [] ∨ ∃ block ∈ blocks,
        s.heap.fits block (effectiveSize size) (effectiveAlignment alignment) = true)
  | _ => True

/-- The state of a heap that no call has changed. -/
structure Untouched (s : HeapSystem) (address : UIntPtr) (size : BitVec 64) : Prop where
  region : address.toNat + size.toNat ≤ 2 ^ 64
  fresh : s.heap.Fresh address size
  live : s.live = []

theorem Untouched.laidOut (h : s.Untouched address size) : s.LaidOut address size := by
  have hblocks : s.liveBlocks ++ [address + heapObjectSize] = [address + heapObjectSize] := by
    simp [liveBlocks, h.live]
  refine ⟨[address + heapObjectSize], h.fresh.freeBlocks, ?_, ?_⟩
  · rw [hblocks]
    exact List.pairwise_singleton _ _
  · rw [hblocks]
    intro b hb
    rw [List.mem_singleton.mp hb, h.fresh.extent_eq h.region]

/-- Without a search in vain every call is a `TryAllocate` that returns null. -/
theorem Untouched.call (h : s.Untouched address size) {c : HeapCall} (hadmits : s.Admits c)
    (hcond : s.NoVainSearch c) : s.call c = .ok (0, s) := by
  cases c with
  | tryAllocate requested alignment =>
      obtain ⟨blocks, hblocks, hfits⟩ := hcond
      rw [HeapSystem.call, h.fresh.tryAllocate hblocks hfits]
      rfl
  | free block =>
      rw [Admits, h.live] at hadmits
      cases hadmits
  | adjustAllocation block newSize =>
      rw [Admits, h.live] at hadmits
      cases hadmits

theorem reachable_untouched {memory : UIntPtr → ExpHeapMemoryBlock} {mode : AllocationMode}
    (h : Reachable NoVainSearch memory mode address size s) : s.Untouched address size := by
  induction h with
  | created region create => exact ⟨region, tryCreate_fresh create, rfl⟩
  | called c _ admits meets call ih =>
      rw [ih.call admits meets] at call
      cases call
      exact ih

theorem reachable_laidOut {memory : UIntPtr → ExpHeapMemoryBlock} {mode : AllocationMode}
    (h : Reachable NoVainSearch memory mode address size s) :
    s.LaidOut address size ∧ ∀ c, s.Admits c → s.NoVainSearch c →
      ∃ result s', s.call c = .ok (result, s') ∧ s'.LaidOut address size ∧
        s'.Delivers c result := by
  have huntouched := reachable_untouched h
  refine ⟨huntouched.laidOut, ?_⟩
  intro c hadmits hcond
  refine ⟨0, s, huntouched.call hadmits hcond, huntouched.laidOut, ?_⟩
  cases c with
  | tryAllocate requested alignment => exact fun hne => absurd rfl hne
  | free block => trivial
  | adjustAllocation block newSize => trivial

/-- A request for 100 bytes finds the block of a fresh heap of 4096 bytes. -/
theorem reachable_laidOut_fitting : ∃ heap,
    Reachable NoVainSearch (fun _ => ⟨0, 0, 0⟩) .bestFit 0x10000 4096 ⟨heap, []⟩ ∧
      LaidOut ⟨heap, []⟩ 0x10000 4096 ∧ ∃ result s',
        HeapSystem.call ⟨heap, []⟩ (.tryAllocate 100 16) = .ok (result, s') ∧
          s'.LaidOut 0x10000 4096 ∧ s'.Delivers (.tryAllocate 100 16) result := by
  have hcreate : (tryCreate (fun _ => ⟨0, 0, 0⟩) .bestFit 0x10000 4096).any (fun heap =>
      heap.fits 0x10098 (effectiveSize 100) (effectiveAlignment 16)) = true := by decide +kernel
  obtain ⟨heap, hheap, hfits⟩ := (Option.any_eq_true _ _).mp hcreate
  have hreach : Reachable NoVainSearch (fun _ => ⟨0, 0, 0⟩) .bestFit 0x10000 4096 ⟨heap, []⟩ :=
    .created (by decide) hheap
  have hblocks : heap.FreeBlocks [0x10098] := (tryCreate_fresh hheap).freeBlocks
  obtain ⟨hlaid, hcalls⟩ := reachable_laidOut hreach
  refine ⟨heap, hreach, hlaid, ?_⟩
  apply hcalls (.tryAllocate 100 16) ⟨4, by decide, rfl⟩
  exact ⟨[0x10098], hblocks, Or.inr ⟨0x10098, by simp, hfits⟩⟩

/-- The state in which a request for more than the whole heap has been granted. -/
def overrun (s : HeapSystem) : Bool :=
  s.live = [0x100b8] ∧ (s.heap.memory 0x10098).blockSize = 8192

theorem not_laidOut_of_overrun (h : s.overrun = true) : ¬ s.LaidOut 0x10000 4096 := by
  rw [overrun, decide_eq_true_iff] at h
  rintro ⟨free, hlayout⟩
  have hmem : (0x10098 : UIntPtr) ∈ s.liveBlocks ++ free := by
    rw [liveBlocks, h.1]
    exact List.mem_append_left free (by decide)
  have hlast : 0x12000 ∈ s.heap.extent 0x10098 := by
    rw [extent, h.2]
    exact ⟨by decide, by decide⟩
  have hout := (hlayout.inside _ hmem hlast).2
  exact absurd hout (by decide)

/-- A request for 8192 bytes finds no block in a heap of 4096 bytes. It is granted. -/
theorem reachable_overrun : ∃ s,
    Reachable (fun _ _ => True) (fun _ => ⟨0, 0, 0⟩) .firstFit 0x10000 4096 s ∧
      ¬ s.LaidOut 0x10000 4096 := by
  have hcreate : (tryCreate (fun _ => ⟨0, 0, 0⟩) .firstFit 0x10000 4096).any (fun heap =>
      (HeapSystem.call ⟨heap, []⟩ (.tryAllocate 8192 4)).toOption.any fun r => overrun r.2) =
        true := by decide +kernel
  obtain ⟨heap, hheap, hrun⟩ := (Option.any_eq_true _ _).mp hcreate
  cases hcall : HeapSystem.call ⟨heap, []⟩ (.tryAllocate 8192 4) with
  | error fault =>
      rw [hcall] at hrun
      cases hrun
  | ok r =>
      rw [hcall] at hrun
      refine ⟨r.2, ?_, not_laidOut_of_overrun hrun⟩
      refine .called (.tryAllocate 8192 4) (.created (by decide) hheap) ?_ trivial hcall
      exact ⟨2, by decide, rfl⟩

end HeapSystem

end DDFramework
