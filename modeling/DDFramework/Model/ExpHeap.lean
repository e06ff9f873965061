import DDFramework.Library.Computation
import DDFramework.Model.IntrusiveList

/-! `ExpHeap` of `mem_expheap.hpp` and `mem_expheap.cpp`. Addresses and sizes are 64-bit
words, so all arithmetic on them wraps. Blocks and list heads live in one memory: the
node of a block is inside its header, and the node of a list head is inside the heap
object. -/

namespace DDFramework

abbrev UIntPtr := BitVec 64

/-! ### `util_alignment.hpp` -/

def alignUp (value : UIntPtr) (align : BitVec 64) : UIntPtr :=
  let alignment := align - 1
  (value + alignment) &&& ~~~alignment

/-! ### `ExpHeapMemoryBlock` -/

/-- A block header without its list node. -/
structure ExpHeapMemoryBlock where
  allocMagic : BitVec 16
  alignment : BitVec 8
  blockSize : BitVec 64
  deriving DecidableEq, Repr

/-- `TCharCode16("FR")`. -/
def freeMagic : BitVec 16 := 0x5246

/-- `TCharCode16("UD")`. -/
def allocMagic : BitVec 16 := 0x4455

/-- `sizeof(ExpHeapMemoryBlock)`. -/
def blockHeaderSize : BitVec 64 := 32

/-- The offset of `exp_list_node` in a block. -/
def expListNodeOffset : BitVec 64 := 16

def getListNode (block : UIntPtr) : UIntPtr := block + expListNodeOffset

def getParent (node : UIntPtr) : UIntPtr := node - expListNodeOffset

inductive AllocationMode where
  | firstFit
  | bestFit
  deriving DecidableEq, Repr

structure ExpHeap where
  /-- The header at each address. A constructed block keeps the bytes that were there in
  the fields its constructor does not write. -/
  memory : UIntPtr → ExpHeapMemoryBlock
  /-- The list nodes by address; no node is read before it is constructed. -/
  links : Links UIntPtr
  /-- The address of the heap object. -/
  this : UIntPtr
  startAddress : UIntPtr
  endAddress : UIntPtr
  allocationMode : AllocationMode

namespace ExpHeap

/-- `sizeof(ExpHeap)`. -/
def heapObjectSize : BitVec 64 := 152

def minimumAlignment : BitVec 32 := 4

def minimumAllocationGranularity : BitVec 64 := 4

/-- The node of the head of `m_free_block_list`. -/
def freeBlockList (heap : ExpHeap) : UIntPtr := heap.this + 112

/-- The node of the head of `m_allocated_block_list`. -/
def allocatedBlockList (heap : ExpHeap) : UIntPtr := heap.this + 128

/-- As many iterations as there are addresses: a loop over a list that needs more than
these does not end. -/
def addressCount : ℕ := 2 ^ 64

@[simps] def update (heap : ExpHeap) (block : UIntPtr)
    (f : ExpHeapMemoryBlock → ExpHeapMemoryBlock) : ExpHeap :=
  { heap with memory := Function.update heap.memory block (f (heap.memory block)) }

/-- `std::construct_at` for a block resets its node only. -/
@[simps] def constructBlock (heap : ExpHeap) (block : UIntPtr) : ExpHeap :=
  { heap with links := heap.links.construct (getListNode block) }

@[simps] def unlinkBlock (heap : ExpHeap) (block : UIntPtr) : ExpHeap :=
  { heap with links := heap.links.unlink (getListNode block) }

@[simps] def pushBackFree (heap : ExpHeap) (block : UIntPtr) : ExpHeap :=
  { heap with links := heap.links.pushBack heap.freeBlockList (getListNode block) }

@[simps] def pushBackAllocated (heap : ExpHeap) (block : UIntPtr) : ExpHeap :=
  { heap with links := heap.links.pushBack heap.allocatedBlockList (getListNode block) }

/-! ### Creation -/

/-- The constructor. It leaves `m_allocation_mode` and the memory behind the object as they
are. -/
def construct (memory : UIntPtr → ExpHeapMemoryBlock) (allocationMode : AllocationMode)
    (startAddress : UIntPtr) (size : BitVec 64) : ExpHeap where
  memory := memory
  links := .detached UIntPtr
  this := startAddress
  startAddress := startAddress + heapObjectSize
  endAddress := startAddress + heapObjectSize + size
  allocationMode := allocationMode

def tryCreate (memory : UIntPtr → ExpHeapMemoryBlock) (allocationMode : AllocationMode)
    (address : UIntPtr) (size : BitVec 64) : Option ExpHeap :=
  if address = 0 ∨ size < heapObjectSize + blockHeaderSize + minimumAllocationGranularity then
    none
  else
    let newHeap := construct memory allocationMode address size
    let firstBlock := address + heapObjectSize
    let newHeap := newHeap.constructBlock firstBlock
    let newHeap := newHeap.update firstBlock fun block => { block with
      allocMagic := freeMagic
      blockSize := size - heapObjectSize - blockHeaderSize }
    some (newHeap.pushBackFree firstBlock)

/-! ### `AddFreeBlock` and `AddUsedBlock` -/

/-- The blocks before and after a range, as far as the search has come. -/
structure FreeNeighbours where
  prevBlock : Option UIntPtr
  nextBlock : Option UIntPtr
  deriving DecidableEq, Repr

/-- The loop of `AddFreeBlock`. -/
def findNeighbours (heap : ExpHeap) (newStart : UIntPtr) : Except Fault FreeNeighbours :=
  rangeFor (fun _ => heap.links) heap.freeBlockList
    (fun node s =>
      let nextBlock := getParent node
      if newStart ≤ nextBlock then .ok (.stop { s with nextBlock := some nextBlock })
      else .ok (.next ⟨some nextBlock, some nextBlock⟩))
    addressCount ⟨none, none⟩

/-- The address behind a free block. -/
def freeBlockEnd (heap : ExpHeap) (block : UIntPtr) : UIntPtr :=
  block + (heap.memory block).blockSize + blockHeaderSize

/-- Unlinks the block behind the range if the range ends at it. -/
def coalesceBack (heap : ExpHeap) (nextBlock : Option UIntPtr) (newEnd : UIntPtr) :
    UIntPtr × ExpHeap :=
  match nextBlock with
  | none => (newEnd, heap)
  | some next =>
    if newEnd = next then (heap.freeBlockEnd next, heap.unlinkBlock next) else (newEnd, heap)

/-- Unlinks the block before the range if it ends at the range. The result is the start of
the range and the node to link behind. -/
def coalesceFront (heap : ExpHeap) (prevBlock : Option UIntPtr) (newStart : UIntPtr) :
    Except Fault (UIntPtr × UIntPtr × ExpHeap) :=
  match prevBlock with
  | none => .error .nullDereference
  | some prev =>
    if newStart = heap.freeBlockEnd prev then
      .ok (prev, heap.links.prev (getListNode prev), heap.unlinkBlock prev)
    else .ok (newStart, getListNode prev, heap)

def addFreeBlock (heap : ExpHeap) (newStart newEnd : UIntPtr) : Except Fault (Bool × ExpHeap) := do
  let neighbours ← heap.findNeighbours newStart
  let (newEnd, heap) := heap.coalesceBack neighbours.nextBlock newEnd
  let (newStart, linkNode, heap) ← heap.coalesceFront neighbours.prevBlock newStart
  let newSize := newEnd - newStart
  if newSize < blockHeaderSize then
    return (false, heap)
  let heap := heap.constructBlock newStart
  let heap := heap.update newStart fun block => { block with
    allocMagic := freeMagic
    blockSize := newSize - blockHeaderSize }
  let links := heap.links.linkPrev (heap.links.next linkNode) (getListNode newStart)
  let links := links.linkNext linkNode (getListNode newStart)
  return (true, { heap with links := links })

/-- A free block of `AddUsedBlock`, made from a part of the old one. -/
def addSplitBlock (heap : ExpHeap) (address : UIntPtr) (totalSize : BitVec 64) : ExpHeap :=
  let heap := heap.constructBlock address
  let heap := heap.update address fun _ =>
    ⟨freeMagic, 0, totalSize - blockHeaderSize⟩
  heap.pushBackFree address

def addUsedBlock (heap : ExpHeap) (freeBlock allocationAddress : UIntPtr) (size : BitVec 64) :
    ExpHeap :=
  let heap := heap.unlinkBlock freeBlock
  let newFreeAddress := allocationAddress + size
  let newFreeEndAddress := freeBlock + (heap.memory freeBlock).blockSize
  let newFreeTotalSize := newFreeEndAddress - newFreeAddress
  let origStartAddress := freeBlock - (heap.memory freeBlock).alignment.setWidth 64
  let usedStartAddress := allocationAddress - blockHeaderSize
  let usedAlignment := usedStartAddress - origStartAddress
  let (usedAlignment, heap) :=
    if blockHeaderSize + minimumAllocationGranularity < usedAlignment then
      (0, heap.addSplitBlock origStartAddress usedAlignment)
    else (usedAlignment, heap)
  -- The block at the back is also made at `orig_start_address`.
  let (newFreeTotalSize, heap) :=
    if blockHeaderSize + minimumAllocationGranularity < newFreeTotalSize then
      (0, heap.addSplitBlock origStartAddress newFreeTotalSize)
    else (newFreeTotalSize, heap)
  let heap := heap.constructBlock usedStartAddress
  let heap := heap.update usedStartAddress fun _ =>
    ⟨allocMagic, usedAlignment.setWidth 8, size + newFreeTotalSize⟩
  heap.pushBackAllocated usedStartAddress

/-! ### `TryAllocate` -/

/-- The address at which an allocation from the block starts. -/
def allocationAddressIn (block : UIntPtr) (alignment : BitVec 64) : UIntPtr :=
  alignUp (block + blockHeaderSize) alignment

/-- The test of both modes: the allocation is within the block's range. -/
def fits (heap : ExpHeap) (block : UIntPtr) (size alignment : BitVec 64) : Bool :=
  allocationAddressIn block alignment + size - block ≤ (heap.memory block).blockSize

/-- One iteration of the first-fit loop. The state is `allocation_address`. -/
def firstFitBody (heap : ExpHeap) (size alignment : BitVec 64) (node : UIntPtr) (_ : UIntPtr) :
    LoopExit UIntPtr :=
  let block := getParent node
  if heap.fits block size alignment then .stop (allocationAddressIn block alignment)
  else .next (allocationAddressIn block alignment)

/-- The variables of the best-fit loop. -/
structure BestFit where
  smallerSize : BitVec 64
  smallerAddress : UIntPtr
  smallerBlock : UIntPtr
  allocationAddress : UIntPtr
  deriving DecidableEq, Repr

/-- One iteration of the best-fit loop. -/
def bestFitBody (heap : ExpHeap) (size alignment : BitVec 64) (node : UIntPtr) (s : BestFit) :
    LoopExit BestFit :=
  let block := getParent node
  let allocationAddress := allocationAddressIn block alignment
  let blockSize := (heap.memory block).blockSize
  if blockSize < s.smallerSize ∧ heap.fits block size alignment then
    let s : BestFit := ⟨blockSize, allocationAddress, block, allocationAddress⟩
    if blockSize = size then .stop s else .next s
  else .next { s with allocationAddress := s.smallerAddress }

/-- The block that `end()` denotes: the bytes of the heap object around the list head. -/
def endBlock (heap : ExpHeap) : UIntPtr :=
  getParent (heap.links.iteratorNode (heap.links.listEnd heap.freeBlockList))

/-- The search of `TryAllocate`: the iterator `free_block` and `allocation_address`. -/
def findBlock (heap : ExpHeap) (size alignment : BitVec 64) : Except Fault (UIntPtr × UIntPtr) :=
  let first := heap.links.listBegin heap.freeBlockList
  match heap.allocationMode with
  | .firstFit =>
    walk heap.links heap.freeBlockList (heap.firstFitBody size alignment) addressCount first 0
  | .bestFit => do
    let (_, s) ← walk heap.links heap.freeBlockList (heap.bestFitBody size alignment)
      addressCount first ⟨BitVec.allOnes 64, 0, heap.endBlock, 0⟩
    return (heap.links.iteratorTo (getListNode s.smallerBlock), s.allocationAddress)

/-- The alignment after the limit, converted to `size_t`. -/
def effectiveAlignment (alignment : BitVec 32) : BitVec 64 :=
  (if alignment.slt minimumAlignment then minimumAlignment else alignment).signExtend 64

/-- The size after the limit. -/
def effectiveSize (size : BitVec 64) : BitVec 64 := alignUp size minimumAllocationGranularity

/-- The block is added to the used ones when the search came to `end()`. The header of the used
block lies in front of the address, and nothing can be written in front of the null address. -/
def tryAllocate (heap : ExpHeap) (size : BitVec 64) (alignment : BitVec 32) :
    Except Fault (UIntPtr × ExpHeap) := do
  if heap.links.isEmpty heap.freeBlockList then
    return (0, heap)
  let size := effectiveSize size
  let (freeBlock, allocationAddress) ← heap.findBlock size (effectiveAlignment alignment)
  if freeBlock ≠ heap.links.listEnd heap.freeBlockList then
    return (0, heap)
  if allocationAddress = 0 then
    .error .nullDereference
  else
    return (allocationAddress, heap.addUsedBlock (getParent (heap.links.iteratorNode freeBlock))
      allocationAddress size)

/-! ### `Free` and `AdjustAllocation` -/

def free (heap : ExpHeap) (address : UIntPtr) : Except Fault ExpHeap := do
  let block := address - blockHeaderSize
  let heap := heap.unlinkBlock block
  let start := block - (heap.memory block).alignment.setWidth 64
  let stop := address + (heap.memory block).blockSize
  let (_, heap) ← heap.addFreeBlock start stop
  return heap

/-- The part of `AdjustAllocation` behind its tests: the block after the allocation is taken
into it, and what is left of that block becomes free again. -/
def absorbBlockAfter (heap : ExpHeap) (block address blockAfter : UIntPtr) (newSize : BitVec 64) :
    ExpHeap :=
  let afterSize := (heap.memory blockAfter).blockSize + blockHeaderSize
  let heap := heap.unlinkBlock blockAfter
  let newEndAddress := blockAfter + afterSize
  let newFree := address + newSize + blockHeaderSize
  let newFreeSize := newEndAddress - newFree
  let newFree := if blockHeaderSize ≤ newFreeSize then newFree - newFreeSize else newFree
  let heap := heap.update block fun header => { header with blockSize := newFree - address }
  if blockHeaderSize ≤ newFreeSize then
    let heap := heap.constructBlock newFree
    let heap := heap.update newFree fun _ => ⟨freeMagic, 0, newFreeSize⟩
    heap.pushBackFree newFree
  else heap

def adjustAllocation (heap : ExpHeap) (address : UIntPtr) (newSize : BitVec 64) :
    Except Fault (BitVec 64 × ExpHeap) := do
  let block := address - blockHeaderSize
  let newSize := alignUp newSize minimumAllocationGranularity
  let blockSize := (heap.memory block).blockSize
  if blockSize = newSize then
    return (newSize, heap)
  if newSize < blockSize then
    let (_, heap) ← heap.addFreeBlock (address + newSize) (address + blockSize)
    return (newSize, heap.update block fun header => { header with blockSize := newSize })
  let endAddress := address + blockSize
  let (freeBlock, _) ← walk heap.links heap.freeBlockList
    (fun node s => if getParent node = endAddress then .stop s else .next s)
    addressCount (heap.links.listBegin heap.freeBlockList) ()
  let blockAfter := getParent (heap.links.iteratorNode freeBlock)
  let afterSize := (heap.memory blockAfter).blockSize + blockHeaderSize
  if freeBlock ≠ heap.links.listEnd heap.freeBlockList ∧ newSize < afterSize + blockSize then
    return (blockSize, heap)
  return (newSize, heap.absorbBlockAfter block address blockAfter newSize)

/-! ### `GetMaximumAllocatableSize` -/

def getMaximumAllocatableSize (heap : ExpHeap) (alignment : BitVec 32) : Except Fault (BitVec 64) :=
  rangeFor (fun _ => heap.links) heap.freeBlockList
    (fun node maxFreeSize =>
      let block := getParent node
      let startAddress := block + blockHeaderSize
      let endAddress := startAddress + (heap.memory block).blockSize
      let blockSize := endAddress - alignUp startAddress (alignment.signExtend 64)
      .ok (.next (if maxFreeSize < blockSize then blockSize else maxFreeSize)))
    addressCount 0

end ExpHeap

/-! ### Users of a heap -/

/-- The calls of a heap's users. -/
inductive HeapCall where
  | tryAllocate (size : BitVec 64) (alignment : BitVec 32)
  | free (address : UIntPtr)
  | adjustAllocation (address : UIntPtr) (newSize : BitVec 64)
  deriving DecidableEq, Repr

/-- A heap with the addresses that its users got from it and have not freed. -/
structure HeapSystem where
  heap : ExpHeap
  live : List UIntPtr

namespace HeapSystem

/-- What the users may call: the alignments are powers of two, and only live allocations are
freed or adjusted. -/
def Admits (s : HeapSystem) : HeapCall → Prop
  | .tryAllocate _ alignment => ∃ k < 31, alignment = BitVec.twoPow 32 k
  | .free address => address ∈ s.live
  | .adjustAllocation address _ => address ∈ s.live

/-- A call, with the value that it returns. -/
def call (s : HeapSystem) : HeapCall → Except Fault (BitVec 64 × HeapSystem)
  | .tryAllocate size alignment => do
    let (address, heap) ← s.heap.tryAllocate size alignment
    return (address, ⟨heap, if address = 0 then s.live else address :: s.live⟩)
  | .free address => do
    let heap ← s.heap.free address
    return (0, ⟨heap, s.live.erase address⟩)
  | .adjustAllocation address newSize => do
    let (size, heap) ← s.heap.adjustAllocation address newSize
    return (size, ⟨heap, s.live⟩)

/-- The states that calls which meet `cond` reach from a heap over the memory
`[address, address + size)`. -/
inductive Reachable (cond : HeapSystem → HeapCall → Prop)
    (memory : UIntPtr → ExpHeapMemoryBlock) (allocationMode : AllocationMode)
    (address : UIntPtr) (size : BitVec 64) : HeapSystem → Prop where
  | created {heap : ExpHeap} (region : address.toNat + size.toNat ≤ 2 ^ 64)
      (create : ExpHeap.tryCreate memory allocationMode address size = some heap) :
      Reachable cond memory allocationMode address size ⟨heap, []⟩
  | called {s s' : HeapSystem} {result : BitVec 64} (c : HeapCall)
      (reachable : Reachable cond memory allocationMode address size s) (admits : s.Admits c)
      (meets : cond s c) (call : s.call c = .ok (result, s')) :
      Reachable cond memory allocationMode address size s'

end HeapSystem

end DDFramework
