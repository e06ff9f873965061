import DDFramework.Library.Machine
import DDFramework.Model.Vulkan
import Mathlib.Logic.Function.Basic

/-! # A device that executes commands

The commands of a recording, as a device takes them one after another. The device refuses what the
interface forbids: a draw outside a rendering scope, a clear, a copy or a barrier inside one, a
scope inside another, and a command outside a command buffer. -/

namespace DDFramework

namespace Vulkan

/-- The dynamic state of one face, as far as it is set. -/
structure StencilFaceState where
  compareMask : Option Word
  writeMask : Option Word
  reference : Option Word
  failOp : Option Word
  passOp : Option Word
  depthFailOp : Option Word
  compareOp : Option Word
  deriving DecidableEq, Repr

/-- The dynamic state, as far as it is set. -/
structure DynamicStates where
  logicOpEnable : Option Bool
  logicOp : Option Word
  blendConstants : Option ClearColorValue
  colorBlendEnable : Option (List Bool)
  colorBlendEquation : Option (List ColorBlendEquation)
  colorWriteMask : Option (List Word)
  depthTestEnable : Option Bool
  depthWriteEnable : Option Bool
  depthBoundsTestEnable : Option Bool
  depthBounds : Option (Word × Word)
  depthCompareOp : Option Word
  stencilTestEnable : Option Bool
  stencilFront : StencilFaceState
  stencilBack : StencilFaceState
  rasterizerDiscardEnable : Option Bool
  primitiveRestartEnable : Option Bool
  depthBiasEnable : Option Bool
  /-- The constant factor, the clamp and the slope factor. -/
  depthBias : Option (Word × Word × Word)
  lineWidth : Option Word
  cullMode : Option Word
  frontFace : Option Word
  depthClampEnable : Option Bool
  polygonMode : Option Word
  vertexInput : Option (List VertexInputBindingDescription × List VertexInputAttributeDescription)
  viewportWithCount : Option (List Viewport)
  scissorWithCount : Option (List Rect2D)
  primitiveTopology : Option Word
  deriving DecidableEq, Repr

namespace DynamicStates

def unset : DynamicStates where
  logicOpEnable := none
  logicOp := none
  blendConstants := none
  colorBlendEnable := none
  colorBlendEquation := none
  colorWriteMask := none
  depthTestEnable := none
  depthWriteEnable := none
  depthBoundsTestEnable := none
  depthBounds := none
  depthCompareOp := none
  stencilTestEnable := none
  stencilFront := ⟨none, none, none, none, none, none, none⟩
  stencilBack := ⟨none, none, none, none, none, none, none⟩
  rasterizerDiscardEnable := none
  primitiveRestartEnable := none
  depthBiasEnable := none
  depthBias := none
  lineWidth := none
  cullMode := none
  frontFace := none
  depthClampEnable := none
  polygonMode := none
  vertexInput := none
  viewportWithCount := none
  scissorWithCount := none
  primitiveTopology := none

/-- A change of the faces in the mask. -/
def onFaces (face : Word) (change : StencilFaceState → StencilFaceState) (d : DynamicStates) :
    DynamicStates :=
  { d with
    stencilFront := if face &&& stencilFaceFrontBit = 0 then d.stencilFront
      else change d.stencilFront
    stencilBack := if face &&& stencilFaceBackBit = 0 then d.stencilBack
      else change d.stencilBack }

def set (d : DynamicStates) : DynamicState → DynamicStates
  | .logicOpEnable enable => { d with logicOpEnable := some enable }
  | .logicOp op => { d with logicOp := some op }
  | .blendConstants constants => { d with blendConstants := some constants }
  | .colorBlendEnable enables => { d with colorBlendEnable := some enables }
  | .colorBlendEquation equations => { d with colorBlendEquation := some equations }
  | .colorWriteMask masks => { d with colorWriteMask := some masks }
  | .depthTestEnable enable => { d with depthTestEnable := some enable }
  | .depthWriteEnable enable => { d with depthWriteEnable := some enable }
  | .depthBoundsTestEnable enable => { d with depthBoundsTestEnable := some enable }
  | .depthBounds min max => { d with depthBounds := some (min, max) }
  | .depthCompareOp op => { d with depthCompareOp := some op }
  | .stencilTestEnable enable => { d with stencilTestEnable := some enable }
  | .stencilCompareMask face mask => d.onFaces face fun f => { f with compareMask := some mask }
  | .stencilWriteMask face mask => d.onFaces face fun f => { f with writeMask := some mask }
  | .stencilReference face reference =>
      d.onFaces face fun f => { f with reference := some reference }
  | .stencilOp face failOp passOp depthFailOp compareOp =>
      d.onFaces face fun f =>
        { f with
          failOp := some failOp
          passOp := some passOp
          depthFailOp := some depthFailOp
          compareOp := some compareOp }
  | .rasterizerDiscardEnable enable => { d with rasterizerDiscardEnable := some enable }
  | .primitiveRestartEnable enable => { d with primitiveRestartEnable := some enable }
  | .depthBiasEnable enable => { d with depthBiasEnable := some enable }
  | .depthBias constantFactor clamp slopeFactor =>
      { d with depthBias := some (constantFactor, clamp, slopeFactor) }
  | .lineWidth width => { d with lineWidth := some width }
  | .cullMode mode => { d with cullMode := some mode }
  | .frontFace face => { d with frontFace := some face }
  | .depthClampEnable enable => { d with depthClampEnable := some enable }
  | .polygonMode mode => { d with polygonMode := some mode }
  | .vertexInput bindings attributes => { d with vertexInput := some (bindings, attributes) }
  | .viewportWithCount viewports => { d with viewportWithCount := some viewports }
  | .scissorWithCount scissors => { d with scissorWithCount := some scissors }
  | .primitiveTopology topology => { d with primitiveTopology := some topology }

end DynamicStates

structure VertexBufferBinding where
  buffer : Handle
  offset : BitVec 64
  size : BitVec 64
  stride : BitVec 64
  deriving DecidableEq, Repr

structure IndexBufferBinding where
  buffer : Handle
  offset : BitVec 64
  indexType : Word
  deriving DecidableEq, Repr

structure Bindings where
  pipelines : PipelineBindPoint → Option Handle
  dynamicStates : DynamicStates
  vertexBuffers : Word → Option VertexBufferBinding
  descriptorSets : Word → Option Handle

def Bindings.unset : Bindings where
  pipelines _ := none
  dynamicStates := .unset
  vertexBuffers _ := none
  descriptorSets _ := none

/-- What a draw takes from the commands before it. The resources of a stage are what the memory
holds at the address last pushed for the stage. -/
structure DrawState (μ : Type*) extends Bindings where
  resources : Word → Option μ

/-- A view and what it is cleared to when the scope begins; without a value its contents are
lost. -/
structure Attachment where
  imageView : Handle
  clearValue : Option ClearValue
  deriving DecidableEq, Repr

def RenderingAttachmentInfo.attachment (info : RenderingAttachmentInfo) : Attachment where
  imageView := info.imageView
  clearValue := match info.loadOp with
    | .clear => some info.clearValue
    | .dontCare => none

/-- The attachments and the area of a rendering scope. -/
structure Pass where
  width : Word
  height : Word
  color : List Attachment
  depthStencil : Option Attachment
  deriving DecidableEq, Repr

def RenderingInfo.pass (info : RenderingInfo) : Pass where
  width := info.width
  height := info.height
  color := info.colorAttachments.map (·.attachment)
  depthStencil := info.depthStencilAttachment.map (·.attachment)

/-- What changes the contents of images. -/
inductive Output (μ : Type*) where
  | pass (pass : Pass)
  | draw (vertexCount instanceCount firstVertex firstInstance : Word) (state : DrawState μ)
  | drawIndexed (indexCount instanceCount firstIndex vertexOffset firstInstance : Word)
      (indexBuffer : Option IndexBufferBinding) (state : DrawState μ)
  | clearColorImage (image : Handle) (color : ClearColorValue) (range : ImageSubresourceRange)
  | clearDepthStencilImage (image : Handle) (value : ClearDepthStencilValue)
      (range : ImageSubresourceRange)

structure Device (μ : Type*) extends Bindings where
  isExecuting : Bool
  isRendering : Bool
  indexBuffer : Option IndexBufferBinding
  /-- The address last pushed with these stage flags. -/
  pushed : Word → Option (BitVec 64)
  /-- What was executed so far, the first one first. -/
  outputs : List (Output μ)

namespace Device

variable {μ : Type*}

/-- A device between two command buffers. -/
def idle : Device μ where
  toBindings := .unset
  isExecuting := false
  isRendering := false
  indexBuffer := none
  pushed _ := none
  outputs := []

def drawState (memory : BitVec 64 → μ) (d : Device μ) : DrawState μ where
  toBindings := d.toBindings
  resources stageFlags := (d.pushed stageFlags).map memory

def put (output : Output μ) (d : Device μ) : Device μ :=
  { d with outputs := d.outputs ++ [output] }

/-- A command between the beginning and the end of a command buffer. -/
def execute (memory : BitVec 64 → μ) (d : Device μ) : Command → Option (Device μ)
  | .beginCommandBuffer => none
  | .endCommandBuffer => if d.isRendering then none else some { d with isExecuting := false }
  | .beginRendering info =>
      if d.isRendering then none
      else some (({ d with isRendering := true }).put (.pass info.pass))
  | .endRendering => if d.isRendering then some { d with isRendering := false } else none
  | .pushConstants stageFlags _ value =>
      some { d with pushed := Function.update d.pushed stageFlags (some value) }
  | .clearColorImage image _ color range =>
      if d.isRendering then none else some (d.put (.clearColorImage image color range))
  | .clearDepthStencilImage image _ value range =>
      if d.isRendering then none else some (d.put (.clearDepthStencilImage image value range))
  | .copyBuffer .. => if d.isRendering then none else some d
  | .bufferBarrier .. => if d.isRendering then none else some d
  | .imageBarrier .. => if d.isRendering then none else some d
  | .bindPipeline bindPoint pipeline =>
      some { d with pipelines := Function.update d.pipelines bindPoint (some pipeline) }
  | .bindDescriptorSets set descriptorSet =>
      some { d with descriptorSets := Function.update d.descriptorSets set (some descriptorSet) }
  | .bindIndexBuffer buffer offset indexType =>
      some { d with indexBuffer := some ⟨buffer, offset, indexType⟩ }
  | .bindVertexBuffers binding buffer offset size stride =>
      some { d with
        vertexBuffers := Function.update d.vertexBuffers binding
          (some ⟨buffer, offset, size, stride⟩) }
  | .setDynamicState state => some { d with dynamicStates := d.dynamicStates.set state }
  | .draw vertexCount instanceCount firstVertex firstInstance =>
      if d.isRendering then
        some (d.put (.draw vertexCount instanceCount firstVertex firstInstance
          (d.drawState memory)))
      else none
  | .drawIndexed indexCount instanceCount firstIndex vertexOffset firstInstance =>
      if d.isRendering then
        some (d.put (.drawIndexed indexCount instanceCount firstIndex vertexOffset firstInstance
          d.indexBuffer (d.drawState memory)))
      else none

/-- No state of an earlier command buffer is left when the next one begins. -/
def next (memory : BitVec 64 → μ) (d : Device μ) (command : Command) : Option (Device μ) :=
  if d.isExecuting then d.execute memory command
  else if command = .beginCommandBuffer then
    some { (idle : Device μ) with isExecuting := true, outputs := d.outputs }
  else none

theorem next_of_isExecuting {memory : BitVec 64 → μ} {d : Device μ} (h : d.isExecuting = true)
    (command : Command) : d.next memory command = d.execute memory command := by
  rw [next, if_pos h]

end Device

end Vulkan

end DDFramework
