import DDFramework.Model.Result
import Mathlib.Data.List.FinRange
import Mathlib.Logic.Function.Basic

/-! The handle table of `ukern_handletable.hpp`. The `s16` array `m_counters` holds
the generation of a used slot and the next free index of a free slot. -/

namespace DDFramework

def maxHandles : ℕ := 256

def counterBitOffset : ℕ := 0xf

structure HandleTable (α : Type*) where
  counters : Fin maxHandles → BitVec 16
  objects : Fin maxHandles → Option α
  indiceIter : BitVec 32
  activeHandles : BitVec 16
  counterValue : BitVec 16

namespace HandleTable

variable {α : Type*}

/-- One iteration of the loop in `Initialize`. -/
def initializeSlot (t : HandleTable α) (i : Fin maxHandles) : HandleTable α :=
  { t with
    objects := Function.update t.objects i none
    counters := Function.update t.counters i (BitVec.ofInt 16 ((i : ℤ) - 1))
    indiceIter := BitVec.ofNat 32 i }

def initializeTable (t : HandleTable α) : HandleTable α :=
  (List.finRange maxHandles).foldl initializeSlot { t with activeHandles := 0, counterValue := 1 }

def nextCounterValue (counterValue : BitVec 16) : BitVec 16 :=
  if -1 < (counterValue + 1).toInt then counterValue + 1 else 1

def encodeHandle (index counter : BitVec 16) : BitVec 32 :=
  (index.setWidth 32 &&& 0x7fff) ||| (counter.setWidth 32 <<< counterBitOffset)

/-- The reserved handle, or `none` for the result `false`. -/
def reserveHandle (t : HandleTable α) (object : Option α) :
    Except Fault (Option (BitVec 32) × HandleTable α) :=
  if maxHandles ≤ t.activeHandles.toNat then .ok (none, t)
  else
    let index : BitVec 16 := t.indiceIter.setWidth 16
    if h : index.toNat < maxHandles then
      let slot : Fin maxHandles := ⟨index.toNat, h⟩
      let counter := t.counterValue
      .ok (some (encodeHandle index counter),
        { counters := Function.update t.counters slot counter
          objects := Function.update t.objects slot object
          indiceIter := (t.counters slot).signExtend 32
          activeHandles := t.activeHandles + 1
          counterValue := nextCounterValue t.counterValue })
    else .error .outOfBounds

def freeHandle (t : HandleTable α) (handle : BitVec 32) : Except Fault (Bool × HandleTable α) :=
  if handle = 0 ∨ handle >>> counterBitOffset = 0 then .ok (false, t)
  else
    let index := handle &&& 0x7fff
    if maxHandles < index.toNat then .ok (false, t)
    else if h : index.toNat < maxHandles then
      let slot : Fin maxHandles := ⟨index.toNat, h⟩
      if (t.objects slot).isNone ∨
          handle >>> counterBitOffset ≠ (t.counters slot).signExtend 32 then .ok (false, t)
      else
        .ok (true,
          { t with
            objects := Function.update t.objects slot none
            counters := Function.update t.counters slot (t.indiceIter.setWidth 16)
            indiceIter := index
            activeHandles := t.activeHandles - 1 })
    else .error .outOfBounds

def getObjectByHandle (t : HandleTable α) (handle : BitVec 32) : Except Fault (Option α) :=
  if handle >>> 0x1e ≠ 0 ∨ handle = 0 ∨ handle >>> 0xf = 0 then .ok none
  else
    let index := handle &&& 0x7fff
    if maxHandles < index.toNat then .ok none
    else if h : index.toNat < maxHandles then
      let slot : Fin maxHandles := ⟨index.toNat, h⟩
      if handle >>> 0xf ≠ (t.counters slot).signExtend 32 then .ok none
      else .ok (t.objects slot)
    else .error .outOfBounds

end HandleTable

end DDFramework
