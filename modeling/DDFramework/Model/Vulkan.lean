import Mathlib.Data.BitVec
import Mathlib.Tactic.Basic

/-! The commands of the Vulkan interface that a `CommandBuffer` records, and the data in them.
Flags, enumerators and the bits of a `float` are words that are only passed on. The structure
types, the pipeline layout of the context and the constants of every attachment are left out. -/

namespace DDFramework

namespace Vulkan

/-- A `VkImage`, `VkImageView`, `VkBuffer`, `VkPipeline` or `VkDescriptorSet`. -/
abbrev Handle := BitVec 64

abbrev Word := BitVec 32

/-! ### Constants -/

def shaderStageVertexBit : Word := 0x1
def shaderStageTessellationControlBit : Word := 0x2
def shaderStageTessellationEvaluationBit : Word := 0x4
def shaderStageGeometryBit : Word := 0x8
def shaderStageFragmentBit : Word := 0x10
def shaderStageComputeBit : Word := 0x20

def pipelineStageEarlyFragmentTestsBit : BitVec 64 := 0x100
def pipelineStageLateFragmentTestsBit : BitVec 64 := 0x200
def pipelineStageColorAttachmentOutputBit : BitVec 64 := 0x400
def pipelineStageTransferBit : BitVec 64 := 0x1000
def pipelineStageBottomOfPipeBit : BitVec 64 := 0x2000
def pipelineStageAllCommandsBit : BitVec 64 := 0x10000

def accessShaderReadBit : BitVec 64 := 0x20
def accessColorAttachmentWriteBit : BitVec 64 := 0x100
def accessDepthStencilAttachmentWriteBit : BitVec 64 := 0x400
def accessTransferWriteBit : BitVec 64 := 0x1000

def imageLayoutGeneral : Word := 1
def imageLayoutAttachmentOptimal : Word := 1000314001

def imageAspectColorBit : Word := 0x1
def imageAspectDepthBit : Word := 0x2
def imageAspectStencilBit : Word := 0x4

def stencilFaceFrontBit : Word := 0x1
def stencilFaceBackBit : Word := 0x2

def descriptorTypeSampler : Word := 0
def descriptorTypeSampledImage : Word := 2

/-! ### Data -/

/-- A `VkClearColorValue`, by its four words. -/
structure ClearColorValue where
  red : Word
  green : Word
  blue : Word
  alpha : Word
  deriving DecidableEq, Repr

structure ClearDepthStencilValue where
  depth : Word
  stencil : Word
  deriving DecidableEq, Repr

structure ImageSubresourceRange where
  aspectMask : Word
  baseMipLevel : Word
  levelCount : Word
  baseArrayLayer : Word
  layerCount : Word
  deriving DecidableEq, Repr

inductive AttachmentLoadOp where
  | clear
  | dontCare
  deriving DecidableEq, Repr

inductive ClearValue where
  | color (value : ClearColorValue)
  | depthStencil (value : ClearDepthStencilValue)
  deriving DecidableEq, Repr

structure RenderingAttachmentInfo where
  imageView : Handle
  imageLayout : Word
  loadOp : AttachmentLoadOp
  clearValue : ClearValue
  deriving DecidableEq, Repr

/-- The depth attachment is the stencil attachment as well. -/
structure RenderingInfo where
  width : Word
  height : Word
  colorAttachments : List RenderingAttachmentInfo
  depthStencilAttachment : Option RenderingAttachmentInfo
  deriving DecidableEq, Repr

inductive PipelineBindPoint where
  | graphics
  | compute
  | rayTracing
  deriving DecidableEq, Repr

structure ColorBlendEquation where
  srcColorBlendFactor : Word
  dstColorBlendFactor : Word
  colorBlendOp : Word
  srcAlphaBlendFactor : Word
  dstAlphaBlendFactor : Word
  alphaBlendOp : Word
  deriving DecidableEq, Repr

structure StencilOpState where
  failOp : Word
  passOp : Word
  depthFailOp : Word
  compareOp : Word
  compareMask : Word
  writeMask : Word
  reference : Word
  deriving DecidableEq, Repr

structure VertexInputBindingDescription where
  binding : Word
  stride : Word
  inputRate : Word
  divisor : Word
  deriving DecidableEq, Repr

structure VertexInputAttributeDescription where
  location : Word
  binding : Word
  format : Word
  offset : Word
  deriving DecidableEq, Repr

structure Viewport where
  x : Word
  y : Word
  width : Word
  height : Word
  minDepth : Word
  maxDepth : Word
  deriving DecidableEq, Repr

structure Rect2D where
  x : Word
  y : Word
  width : Word
  height : Word
  deriving DecidableEq, Repr

/-- A buffer of the program, or one of the two that a memory pool makes to relocate its memory. -/
inductive BufferName where
  | buffer (handle : Handle)
  | stagingHostBuffer (pool : ℕ)
  | stagingDeviceBuffer (pool : ℕ)
  deriving DecidableEq, Repr

structure MemoryBarrier where
  srcStageMask : BitVec 64
  srcAccessMask : BitVec 64
  dstStageMask : BitVec 64
  dstAccessMask : BitVec 64
  deriving DecidableEq, Repr

/-! ### Commands -/

/-- What the `vkCmdSet` commands set. -/
inductive DynamicState where
  | logicOpEnable (enable : Bool)
  | logicOp (op : Word)
  | blendConstants (constants : ClearColorValue)
  | colorBlendEnable (enables : List Bool)
  | colorBlendEquation (equations : List ColorBlendEquation)
  | colorWriteMask (masks : List Word)
  | depthTestEnable (enable : Bool)
  | depthWriteEnable (enable : Bool)
  | depthBoundsTestEnable (enable : Bool)
  | depthBounds (min max : Word)
  | depthCompareOp (op : Word)
  | stencilTestEnable (enable : Bool)
  | stencilCompareMask (face mask : Word)
  | stencilWriteMask (face mask : Word)
  | stencilReference (face reference : Word)
  | stencilOp (face failOp passOp depthFailOp compareOp : Word)
  | rasterizerDiscardEnable (enable : Bool)
  | primitiveRestartEnable (enable : Bool)
  | depthBiasEnable (enable : Bool)
  | depthBias (constantFactor clamp slopeFactor : Word)
  | lineWidth (width : Word)
  | cullMode (mode : Word)
  | frontFace (face : Word)
  | depthClampEnable (enable : Bool)
  | polygonMode (mode : Word)
  | vertexInput (bindings : List VertexInputBindingDescription)
      (attributes : List VertexInputAttributeDescription)
  | viewportWithCount (viewports : List Viewport)
  | scissorWithCount (scissors : List Rect2D)
  | primitiveTopology (topology : Word)
  deriving DecidableEq, Repr

inductive Command where
  | beginCommandBuffer
  | endCommandBuffer
  | beginRendering (info : RenderingInfo)
  | endRendering
  | pushConstants (stageFlags offset : Word) (value : BitVec 64)
  | clearColorImage (image : Handle) (layout : Word) (color : ClearColorValue)
      (range : ImageSubresourceRange)
  | clearDepthStencilImage (image : Handle) (layout : Word) (value : ClearDepthStencilValue)
      (range : ImageSubresourceRange)
  | copyBuffer (source destination : BufferName) (size : BitVec 64)
  | bufferBarrier (barrier : MemoryBarrier) (buffer : BufferName)
  | imageBarrier (barrier : MemoryBarrier) (oldLayout newLayout : Word) (image : Handle)
      (aspectMask : Word)
  | bindPipeline (bindPoint : PipelineBindPoint) (pipeline : Handle)
  | bindDescriptorSets (set : Word) (descriptorSet : Handle)
  | bindIndexBuffer (buffer : Handle) (offset : BitVec 64) (indexType : Word)
  | bindVertexBuffers (binding : Word) (buffer : Handle) (offset size stride : BitVec 64)
  | setDynamicState (state : DynamicState)
  | draw (vertexCount instanceCount firstVertex firstInstance : Word)
  | drawIndexed (indexCount instanceCount firstIndex vertexOffset firstInstance : Word)
  deriving DecidableEq, Repr

/-- What matters of a command for its place in a recording. -/
inductive CommandKind where
  /-- It opens or closes a rendering scope. -/
  | scope
  | draw
  | clear
  | copy
  | push
  | other
  deriving DecidableEq, Repr

def Command.kind : Command → CommandKind
  | .beginRendering _ | .endRendering => .scope
  | .draw .. | .drawIndexed .. => .draw
  | .clearColorImage .. | .clearDepthStencilImage .. => .clear
  | .copyBuffer .. => .copy
  | .pushConstants .. => .push
  | _ => .other

end Vulkan

end DDFramework
