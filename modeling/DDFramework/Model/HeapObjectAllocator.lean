import DDFramework.Model.Result
import Mathlib.Logic.Function.Basic

/-! The slot allocator of `util_heapobjectallocator.hpp`. Its slots lie in a buffer that somebody
else provides, with the contents that it has. -/

namespace DDFramework

/-- An address in memory; null is zero. -/
abbrev MemoryAddress := ℕ

/-- The word that each address holds. -/
abbrev WordMemory := MemoryAddress → MemoryAddress

/-- `sizeof(T)`, of which the template requires that a pointer fits. -/
def ObjectSize := {size : ℕ // 8 ≤ size}

structure HeapObjectAllocator where
  freeList : MemoryAddress
  startAddress : MemoryAddress

namespace HeapObjectAllocator

/-- The address of `list_array[i]`. -/
def listArray (size : ObjectSize) (allocation : MemoryAddress) (i : ℕ) : MemoryAddress :=
  allocation + i * size.val

/-- `list_array[i].next = list_array + i + 1`, for every `i` below the bound of the loop. -/
def constructFreeList (size : ObjectSize) (allocation : MemoryAddress) :
    ℕ → WordMemory → WordMemory
  | 0, memory => memory
  | i + 1, memory =>
    Function.update (constructFreeList size allocation i memory) (listArray size allocation i)
      (listArray size allocation (i + 1))

/-- What both `Initialize` do with the memory that they get. -/
def initializeSlots (a : HeapObjectAllocator) (size : ObjectSize) (allocation : MemoryAddress)
    (elementCount : BitVec 32) (memory : WordMemory) :
    Bool × HeapObjectAllocator × WordMemory :=
  if allocation = 0 then (false, a, memory)
  else (true, ⟨allocation, allocation⟩,
    constructFreeList size allocation (elementCount - 1).toNat memory)

/-- `allocate` is the heap's `operator new`, by the size that it is asked for. -/
def initializeFromHeap (a : HeapObjectAllocator) (size : ObjectSize)
    (allocate : ℕ → MemoryAddress) (elementCount : BitVec 32) (memory : WordMemory) :
    Bool × HeapObjectAllocator × WordMemory :=
  if elementCount = 0 then (false, a, memory)
  else initializeSlots a size (allocate (size.val * elementCount.toNat)) elementCount memory

def initializeFromBuffer (a : HeapObjectAllocator) (size : ObjectSize)
    (preallocatedBuffer : MemoryAddress) (elementCount : BitVec 32) (memory : WordMemory) :
    Bool × HeapObjectAllocator × WordMemory :=
  if elementCount = 0 then (false, a, memory)
  else initializeSlots a size preallocatedBuffer elementCount memory

/-- `constructed` is what the new object leaves in its first word. -/
def allocate (a : HeapObjectAllocator) (constructed : MemoryAddress) (memory : WordMemory) :
    MemoryAddress × HeapObjectAllocator × WordMemory :=
  if a.freeList = 0 then (0, a, memory)
  else (a.freeList, { a with freeList := memory a.freeList },
    Function.update memory a.freeList constructed)

def free (a : HeapObjectAllocator) (allocatedObject : MemoryAddress) (memory : WordMemory) :
    HeapObjectAllocator × WordMemory :=
  ({ a with freeList := allocatedObject }, Function.update memory allocatedObject a.freeList)

end HeapObjectAllocator

end DDFramework
