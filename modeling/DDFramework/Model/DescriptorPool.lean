import DDFramework.Model.CommandBuffer

/-! How the `DescriptorPool` of `vk_descriptorpool.hpp` hands out its slots. The results of the
Vulkan interface that the source asserts to be `VK_SUCCESS` are taken to be so. -/

namespace DDFramework

open Vulkan

abbrev DescriptorSlot := BitVec 32

/-- An array of `new u32[length]`. -/
structure FreeIdStack where
  length : ℕ
  contents : ℕ → BitVec 32

namespace FreeIdStack

def read (stack : FreeIdStack) (i : ℕ) : Except Fault (BitVec 32) :=
  if i < stack.length then .ok (stack.contents i) else .error .outOfBounds

def write (stack : FreeIdStack) (i : ℕ) (value : BitVec 32) : Except Fault FreeIdStack :=
  if i < stack.length then
    .ok { stack with contents := Function.update stack.contents i value }
  else .error .outOfBounds

/-- `memcpy` of the first `count` elements of `source`. -/
def copy (stack source : FreeIdStack) (count : ℕ) : Except Fault FreeIdStack :=
  if count ≤ source.length ∧ count ≤ stack.length then
    .ok { stack with
      contents := fun i => if i < count then source.contents i else stack.contents i }
  else .error .outOfBounds

end FreeIdStack

/-- A `DescriptorPool` with the fields that its own calls use. -/
structure DescriptorSlotPool extends DescriptorPool where
  maxSlotIds : BitVec 32
  textureIdCount : BitVec 32
  freeIdStackSize : BitVec 32
  freeIdStackCount : BitVec 32
  freeIdStack : FreeIdStack

namespace DescriptorSlotPool

def freeListDefaultSize : BitVec 32 := 64

def targetTextureDescriptorBinding : Word := 0

def targetSamplerDescriptorBinding : Word := 0

/-- What a call makes `vkUpdateDescriptorSets` write; the count is 1, and the fields of the
`VkDescriptorImageInfo` that the source does not name are zero. -/
structure WriteDescriptorSet where
  dstSet : Handle
  dstBinding : Word
  dstArrayElement : DescriptorSlot
  descriptorType : Word
  sampler : Handle
  imageView : Handle
  imageLayout : Word
  deriving DecidableEq, Repr

def getNewDescriptorId (p : DescriptorSlotPool) :
    Except Fault (DescriptorSlot × DescriptorSlotPool) :=
  if p.freeIdStackCount ≠ 0 then do
    let count := p.freeIdStackCount - 1
    let slot ← p.freeIdStack.read count.toNat
    .ok (slot, { p with freeIdStackCount := count })
  else if p.textureIdCount = p.maxSlotIds then .error .assertFailed
  else .ok (p.textureIdCount, { p with textureIdCount := p.textureIdCount + 1 })

/-- `new u32[length]` with the contents that the memory has; none stands for null. -/
def newStack (length : BitVec 32) (memory : Option (ℕ → BitVec 32)) : Except Fault FreeIdStack :=
  match memory with
  | none => .error .assertFailed
  | some contents => .ok ⟨length.toNat, contents⟩

/-- The count of the stack keeps its value. -/
def initializePool (p : DescriptorSlotPool) (descriptorType maxDescriptorSlots : Word)
    (descriptorSet : Handle) (memory : Option (ℕ → BitVec 32)) :
    Except Fault DescriptorSlotPool :=
  if descriptorType = descriptorTypeSampledImage ∨ descriptorType = descriptorTypeSampler then do
    let stack ← newStack freeListDefaultSize memory
    .ok { p with
      descriptorSet := descriptorSet
      freeIdStack := stack
      freeIdStackSize := freeListDefaultSize
      poolType := descriptorType
      maxSlotIds := maxDescriptorSlots
      textureIdCount := 0 }
  else .error .assertFailed

def registerTexture (p : DescriptorSlotPool) (imageView : Handle) :
    Except Fault (DescriptorSlot × WriteDescriptorSet × DescriptorSlotPool) :=
  if p.poolType = descriptorTypeSampledImage then do
    let (newId, p) ← p.getNewDescriptorId
    .ok (newId, ⟨p.descriptorSet, targetTextureDescriptorBinding, newId,
      descriptorTypeSampledImage, 0, imageView, imageLayoutGeneral⟩, p)
  else .error .assertFailed

def registerSampler (p : DescriptorSlotPool) (sampler : Handle) :
    Except Fault (DescriptorSlot × WriteDescriptorSet × DescriptorSlotPool) :=
  if p.poolType = descriptorTypeSampler then do
    let (newId, p) ← p.getNewDescriptorId
    .ok (newId, ⟨p.descriptorSet, targetSamplerDescriptorBinding, newId,
      descriptorTypeSampler, sampler, 0, 0⟩, p)
  else .error .assertFailed

/-- The `Resize Free List if necessary` block. -/
def resizeFreeList (p : DescriptorSlotPool) (memory : Option (ℕ → BitVec 32)) :
    Except Fault DescriptorSlotPool :=
  if p.freeIdStackSize = p.freeIdStackCount then do
    let size := p.freeIdStackSize * 2
    let stack ← newStack size memory
    let stack ← stack.copy p.freeIdStack p.freeIdStackCount.toNat
    .ok { p with freeIdStackSize := size, freeIdStack := stack }
  else .ok p

/-- The last line adds to the size of the stack, and not to its count. -/
def unregisterResourceBySlot (p : DescriptorSlotPool) (slot : DescriptorSlot)
    (memory : Option (ℕ → BitVec 32)) : Except Fault DescriptorSlotPool :=
  if p.textureIdCount - 1 = slot then .ok { p with textureIdCount := p.textureIdCount - 1 }
  else do
    let p ← p.resizeFreeList memory
    let stack ← p.freeIdStack.write p.freeIdStackCount.toNat slot
    .ok { p with freeIdStack := stack, freeIdStackSize := p.freeIdStackSize + 1 }

inductive Call where
  | registerTexture (imageView : Handle)
  | registerSampler (sampler : Handle)
  | unregisterResourceBySlot (slot : DescriptorSlot) (memory : Option (ℕ → BitVec 32))

/-- The call, with the slot that it hands out. -/
def perform (p : DescriptorSlotPool) :
    Call → Except Fault (Option DescriptorSlot × DescriptorSlotPool)
  | .registerTexture imageView => do
    let (slot, _, p) ← p.registerTexture imageView
    .ok (some slot, p)
  | .registerSampler sampler => do
    let (slot, _, p) ← p.registerSampler sampler
    .ok (some slot, p)
  | .unregisterResourceBySlot slot memory => do
    let p ← p.unregisterResourceBySlot slot memory
    .ok (none, p)

end DescriptorSlotPool

end DDFramework
