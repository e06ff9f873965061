import DDFramework.Model.ExpHeap
import DDFramework.Model.FixedString

/-! `Heap` of `mem_heap.hpp`, the searches of `mem_heapmanager.cpp`, and what `ExpHeap` does with
a second heap. All heaps lie in one memory: a heap is the address of its object, and the nodes of
its lists are inside the object. -/

namespace DDFramework

/-! ### The C library -/

/-- `strcmp` on the characters before the zeros. -/
def strcmpChars : List CChar → List CChar → ℤ
  | [], [] => 0
  | [], d :: _ => -d.toNat
  | c :: _, [] => c.toNat
  | c :: cs, d :: ds => if c = d then strcmpChars cs ds else c.toNat - d.toNat

def strcmp (s t : CString) : ℤ := strcmpChars s.val t.val

/-- The fields of a heap object that are not lists. -/
structure HeapObject where
  startAddress : UIntPtr
  endAddress : UIntPtr
  /-- Null for a heap without a parent. -/
  parentHeap : UIntPtr
  name : CString
  allocationMode : AllocationMode

structure HeapMemory where
  memory : UIntPtr → ExpHeapMemoryBlock
  links : Links UIntPtr
  objects : UIntPtr → HeapObject

/-- What `AdjustHeap` returns. -/
structure MemoryRange where
  address : UIntPtr
  size : BitVec 64
  deriving DecidableEq, Repr

namespace HeapMemory

/-- The offset of `m_child_list_node` in a heap object. -/
def childListNodeOffset : BitVec 64 := 32

def childListNode (heap : UIntPtr) : UIntPtr := heap + childListNodeOffset

/-- The heap object around a node of a child list. -/
def heapOfNode (node : UIntPtr) : UIntPtr := node - childListNodeOffset

/-- The node of the head of `m_child_list`. -/
def childList (heap : UIntPtr) : UIntPtr := heap + 48

/-- The node of the head of `m_disposer_list`. -/
def disposerList (heap : UIntPtr) : UIntPtr := heap + 64

def pushBackChild (m : HeapMemory) (this child : UIntPtr) : HeapMemory :=
  { m with links := m.links.pushBack (childList this) (childListNode child) }

/-! ### Searches -/

def isAddressInHeap (m : HeapMemory) (this address : UIntPtr) : Bool :=
  (m.objects this).startAddress ≤ address && address < (m.objects this).endAddress

def getTotalSize (m : HeapMemory) (this : UIntPtr) : BitVec 64 :=
  (m.objects this).endAddress - (m.objects this).startAddress

/-- The state of the loop is what the function returns. -/
def findHeapFromAddress (m : HeapMemory) : ℕ → UIntPtr → UIntPtr → Except Fault (Option UIntPtr)
  | 0, _, _ => .error .outOfFuel
  | fuel + 1, this, address =>
    if m.isAddressInHeap this address = false then .ok none
    else
      rangeFor (fun _ => m.links) (childList this)
        (fun node s =>
          let child := heapOfNode node
          if m.isAddressInHeap child address then do
            let found ← m.findHeapFromAddress fuel child address
            .ok (.stop found)
          else .ok (.next s))
        ExpHeap.addressCount (some this)

def findHeapByNameImpl (m : HeapMemory) (heapName : CString) :
    ℕ → UIntPtr → Except Fault (Option UIntPtr)
  | 0, _ => .error .outOfFuel
  | fuel + 1, parentHeap =>
    rangeFor (fun _ => m.links) (childList parentHeap)
      (fun node s =>
        let heap := heapOfNode node
        let result := strcmp (m.objects heap).name heapName
        if result = 0 then .ok (.stop (some heap))
        else if m.links.isEmpty (childList heap) = false then do
          let candidate ← m.findHeapByNameImpl heapName fuel heap
          if candidate.isSome then .ok (.stop candidate) else .ok (.next s)
        else .ok (.next s))
      ExpHeap.addressCount none

/-- `FindHeapByName` under the lock of the heap manager, whose root heap is `sRootHeap`. -/
def findHeapByName (m : HeapMemory) (fuel : ℕ) (sRootHeap : UIntPtr) (heapName : CString) :
    Except Fault (Option UIntPtr) := do
  let heap ← m.findHeapByNameImpl heapName fuel sRootHeap
  if heap.isNone ∧ strcmp heapName (m.objects sRootHeap).name = 0 then
    return some sRootHeap
  return heap

/-! ### The `ExpHeap` at an address -/

def expHeap (m : HeapMemory) (this : UIntPtr) : ExpHeap where
  memory := m.memory
  links := m.links
  this := this
  startAddress := (m.objects this).startAddress
  endAddress := (m.objects this).endAddress
  allocationMode := (m.objects this).allocationMode

/-- The memory after a call of `ExpHeap`; such calls leave the fields of the object alone. -/
def withExpHeap (m : HeapMemory) (heap : ExpHeap) : HeapMemory :=
  { m with memory := heap.memory, links := heap.links }

/-- The constructor. It leaves `m_allocation_mode` as it is. -/
def construct (m : HeapMemory) (this : UIntPtr) (name : CString) (parentHeap startAddress : UIntPtr)
    (size : BitVec 64) : HeapMemory :=
  { m with
    links := ((((m.links.construct (childListNode this)).construct (childList this)).construct
      (disposerList this)).construct (m.expHeap this).freeBlockList).construct
        (m.expHeap this).allocatedBlockList
    objects := Function.update m.objects this {
      startAddress := startAddress + ExpHeap.heapObjectSize
      endAddress := startAddress + ExpHeap.heapObjectSize + size
      parentHeap := parentHeap
      name := name
      allocationMode := (m.objects this).allocationMode } }

/-- Both `TryCreate` make the first free block in the same way. -/
def addFirstBlock (m : HeapMemory) (newHeap : UIntPtr) (size : BitVec 64) : HeapMemory :=
  let firstBlock := newHeap + ExpHeap.heapObjectSize
  let heap := (m.expHeap newHeap).constructBlock firstBlock
  let heap := heap.update firstBlock fun block => { block with
    allocMagic := freeMagic
    blockSize := size - (ExpHeap.heapObjectSize + blockHeaderSize) }
  m.withExpHeap (heap.pushBackFree firstBlock)

/-- The least size of a heap. -/
def minimumHeapSize : BitVec 64 :=
  ExpHeap.heapObjectSize + blockHeaderSize + ExpHeap.minimumAllocationGranularity

/-- `TryCreate` at an address; the result is the new heap or null. -/
def tryCreateAt (m : HeapMemory) (address : UIntPtr) (size : BitVec 64) (name : CString) :
    UIntPtr × HeapMemory :=
  if address = 0 ∨ size < minimumHeapSize then (0, m)
  else (address, (m.construct address name 0 address size).addFirstBlock address size)

/-- `TryCreate` in a parent heap, for the heap of the current thread if that is null. -/
def tryCreateIn (m : HeapMemory) (currentThreadHeap : UIntPtr) (size : BitVec 64)
    (alignment : BitVec 32) (name : CString) (parentHeap : UIntPtr) :
    Except Fault (UIntPtr × HeapMemory) := do
  let parentHeap := if parentHeap = 0 then currentThreadHeap else parentHeap
  let size ←
    if size = 0 then
      (m.expHeap parentHeap).getMaximumAllocatableSize
        (ExpHeap.minimumAllocationGranularity.setWidth 32)
    else .ok size
  if size < minimumHeapSize then
    return (0, m)
  let (newHeap, parent) ← (m.expHeap parentHeap).tryAllocate size alignment
  let m := m.withExpHeap parent
  if newHeap = 0 then
    return (0, m)
  let m := (m.construct newHeap name parentHeap newHeap size).addFirstBlock newHeap size
  return (newHeap, m.pushBackChild parentHeap newHeap)

def adjustHeap (m : HeapMemory) (this : UIntPtr) : Except Fault (MemoryRange × HeapMemory) := do
  let heap := m.expHeap this
  let lastBlock := getParent (m.links.prev heap.freeBlockList)
  let endAddress := (m.objects this).endAddress
  if m.links.isEmpty heap.freeBlockList then
    return (⟨endAddress, 0⟩, m)
  if heap.freeBlockEnd lastBlock ≠ endAddress then
    return (⟨endAddress, 0⟩, m)
  let m := { m with links := m.links.remove (getListNode lastBlock) }
  let trimedSize := blockHeaderSize + (m.memory lastBlock).blockSize
  let newEndAddress := endAddress - trimedSize
  let m := { m with
    objects := Function.update m.objects this { m.objects this with endAddress := newEndAddress } }
  let parentHeap := (m.objects this).parentHeap
  if parentHeap ≠ 0 then
    let (_, parent) ← (m.expHeap parentHeap).adjustAllocation (m.objects this).startAddress trimedSize
    return (⟨newEndAddress, trimedSize⟩, m.withExpHeap parent)
  return (⟨newEndAddress, trimedSize⟩, m)

end HeapMemory

end DDFramework
