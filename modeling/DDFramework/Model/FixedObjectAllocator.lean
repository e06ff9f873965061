import DDFramework.Model.Result
import Mathlib.Logic.Function.Basic

/-! The slot allocator of `util_fixedobjectallocator.hpp`. A slot is its index in
the object array, and the link of a free slot lies in its own storage. -/

namespace DDFramework

structure FixedObjectAllocator (count : ℕ) where
  freeList : Option ℕ
  next : ℕ → Option ℕ

namespace FixedObjectAllocator

variable {count : ℕ}

/-- The constructor links every slot to the one after it; the last link is null. -/
def construct (count : ℕ) : FixedObjectAllocator count where
  freeList := some 0
  next i := if i + 1 < count then some (i + 1) else none

def allocate (a : FixedObjectAllocator count) : Option ℕ × FixedObjectAllocator count :=
  match a.freeList with
  | none => (none, a)
  | some slot => (some slot, { a with freeList := a.next slot })

/-- The range assertion is strict at the lower end, as in the source. -/
def free (a : FixedObjectAllocator count) (slot : ℕ) :
    Except Fault (FixedObjectAllocator count) :=
  if 0 < slot ∧ slot < count then
    .ok { freeList := some slot, next := Function.update a.next slot a.freeList }
  else .error .assertFailed

/-- `Free` without its assertion. -/
def freeUnasserted (a : FixedObjectAllocator count) (slot : ℕ) : FixedObjectAllocator count where
  freeList := some slot
  next := Function.update a.next slot a.freeList

/-- The object in a slot shares its storage with the link. `construct_at` writes to it, and
so does whoever owns the object. -/
def writeObject (a : FixedObjectAllocator count) (slot : ℕ) (word : Option ℕ) :
    FixedObjectAllocator count :=
  { a with next := Function.update a.next slot word }

end FixedObjectAllocator

end DDFramework
