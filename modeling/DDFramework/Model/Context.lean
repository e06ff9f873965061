import DDFramework.Model.Vulkan

/-! The pipeline layout that `Context` of `vk_context.vulkan.cpp` creates, as far as the push
constants of a `CommandBuffer` go through it. -/

namespace DDFramework

open Vulkan

/-- A `VkPushConstantRange`. -/
structure PushConstantRange where
  stageFlags : Word
  offset : Word
  size : Word
  deriving DecidableEq, Repr

/-- `sizeof(VkDeviceAddress)`. -/
def deviceAddressSize : Word := 8

namespace Context

def resourceIndexPushConstantRanges : List PushConstantRange :=
  [⟨shaderStageVertexBit, 0, deviceAddressSize⟩,
   ⟨shaderStageTessellationEvaluationBit, deviceAddressSize, deviceAddressSize⟩,
   ⟨shaderStageTessellationControlBit, deviceAddressSize * 2, deviceAddressSize⟩,
   ⟨shaderStageGeometryBit, deviceAddressSize * 3, deviceAddressSize⟩,
   ⟨shaderStageFragmentBit, deviceAddressSize * 4, deviceAddressSize⟩,
   ⟨shaderStageComputeBit, deviceAddressSize * 5, deviceAddressSize⟩]

end Context

end DDFramework
