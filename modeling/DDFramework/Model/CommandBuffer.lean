import DDFramework.Library.Computation
import DDFramework.Model.ExpHeap
import DDFramework.Model.Result
import DDFramework.Model.Vulkan
import Mathlib.Data.List.OfFn
import Mathlib.Logic.Function.Basic

/-! `CommandBuffer` of `vk_commandbuffer.hpp`, with what it calls of `Buffer`, `MemoryPool`,
`Texture`, the target views, `Shader` and `DescriptorPool`. The results of the Vulkan interface
that the source asserts to be `VK_SUCCESS` are taken to be so. -/

namespace DDFramework

open Vulkan

/-! ### Objects that the calls get -/

structure Texture where
  image : Handle
  imageLayout : Word
  deriving DecidableEq, Repr

/-- A `ColorTargetView` or a `DepthStencilTargetView`, which no call changes. -/
structure TargetView where
  texture : ℕ
  imageView : Handle
  deriving DecidableEq, Repr

structure MemoryPool where
  requiresRelocation : Bool
  size : BitVec 64
  deriving DecidableEq, Repr

structure Buffer where
  boundMemoryPool : ℕ
  buffer : Handle
  requiresRelocation : Bool
  deriving DecidableEq, Repr

/-- `Initialize` with the new `buffer` and the pool with the number `memoryPool`. -/
def Buffer.initialize (buffer : Handle) (memoryPool : ℕ) (pool : MemoryPool) : Buffer where
  boundMemoryPool := memoryPool
  buffer := buffer
  requiresRelocation := pool.requiresRelocation

inductive PipelineType where
  | invalid
  | primitive
  | mesh
  | rayTracing
  | compute
  deriving DecidableEq, Repr

structure Shader where
  pipeline : Handle
  pipelineType : PipelineType
  deriving DecidableEq, Repr

def Shader.getPipelineBindPoint (shader : Shader) : PipelineBindPoint :=
  match shader.pipelineType with
  | .primitive | .mesh => .graphics
  | .rayTracing => .rayTracing
  | .compute => .compute
  | .invalid => .graphics

structure DescriptorPool where
  descriptorSet : Handle
  poolType : Word
  deriving DecidableEq, Repr

inductive ShaderStage where
  | vertex
  | tessellationEvaluation
  | tessellationControl
  | geometry
  | fragment
  | compute
  | task
  | mesh
  | ray
  | anyHit
  | closesthit
  | miss
  | callable
  deriving DecidableEq, Repr

/-- The value of the enumerator. -/
def ShaderStage.value : ShaderStage → ℕ
  | .vertex => 0
  | .tessellationEvaluation => 1
  | .tessellationControl => 2
  | .geometry => 3
  | .fragment => 4
  | .compute => 5
  | .task => 6
  | .mesh => 7
  | .ray => 8
  | .anyHit => 9
  | .closesthit => 10
  | .miss => 11
  | .callable => 12

/-! ### Command states -/

/-- The arrays are as long as `color_blend_count`. -/
structure ColorBlendCmdState where
  colorBlendEnables : List Bool
  colorBlendEquations : List ColorBlendEquation
  colorBlendWriteMasks : List Word
  logicOpEnable : Bool
  logicOp : Word
  blendConstants : ClearColorValue
  deriving DecidableEq, Repr

structure DepthStencilCmdState where
  depthTestEnable : Bool
  depthWriteEnable : Bool
  depthBoundsTestEnable : Bool
  stencilTestEnable : Bool
  opStateFront : StencilOpState
  opStateBack : StencilOpState
  depthCompareOp : Word
  minDepthBounds : Word
  maxDepthBounds : Word
  deriving DecidableEq, Repr

structure RasterizerCmdState where
  cullMode : Word
  frontFace : Word
  polygonMode : Word
  rasterizerDiscardEnable : Bool
  primitiveRestartEnable : Bool
  depthBiasEnable : Bool
  depthClampEnable : Bool
  depthBiasConstantFactor : Word
  depthBiasClamp : Word
  depthBiasSlopeFactor : Word
  lineWidth : Word
  deriving DecidableEq, Repr

structure VertexCmdState where
  vertexBindingArray : List VertexInputBindingDescription
  vertexAttributeArray : List VertexInputAttributeDescription
  deriving DecidableEq, Repr

structure PipelineCmdState where
  colorBlendState : ColorBlendCmdState
  depthStencilState : DepthStencilCmdState
  rasterizerState : RasterizerCmdState
  vertexState : VertexCmdState
  deriving DecidableEq, Repr

structure TextureBarrierCmdState where
  barrier : MemoryBarrier
  srcLayout : Word
  dstLayout : Word
  deriving DecidableEq, Repr

/-! ### Calls and what they leave behind -/

/-- The public calls that record commands. A pointer to a texture or a buffer is its number, a
pointer to an object that no call changes is the object. -/
inductive Call where
  | clearColorTarget (colorTarget : TargetView) (color : ClearColorValue)
      (subRange : ImageSubresourceRange)
  | clearDepthStencilTarget (depthStencilTarget : TargetView) (clearValue : ClearDepthStencilValue)
      (subRange : ImageSubresourceRange)
  | registerFastClearColor (colorValue : ClearColorValue)
  | registerFastClearDepthStencil (depthStencilValue : ClearDepthStencilValue)
  | draw (primitiveTopology vertexCount baseVertex : Word)
  | drawIndexed (primitiveTopology indexFormat : Word) (indexBuffer : ℕ)
      (indexCount baseIndex : Word)
  | drawInstanced (primitiveTopology vertexCount baseVertex instanceCount baseInstance : Word)
  | drawInstancedIndexed (primitiveTopology indexFormat : Word) (indexBuffer : ℕ)
      (indexCount baseIndex instanceCount baseInstance : Word)
  | setShader (shader : Shader)
  | setPipelineState (pipelineState : PipelineCmdState)
  | setColorBlendState (colorBlendState : ColorBlendCmdState)
  | setDepthStencilState (depthStencilState : DepthStencilCmdState)
  | setRasterizerState (rasterizerState : RasterizerCmdState)
  | setVertexState (vertexState : VertexCmdState)
  | setViewports (viewports : List Viewport)
  | setScissors (scissors : List Rect2D)
  | setViewportScissors (viewports : List Viewport) (scissors : List Rect2D)
  | setRenderTargets (colorTargetCount : Word) (colorTargets : List (Option TargetView))
      (depthStencilTarget : Option TargetView)
  | setVertexBuffer (binding : Word) (vertexBuffer : ℕ) (stride size : BitVec 64)
  | setBufferStateTransition (buffer : ℕ) (barrierState : MemoryBarrier)
  | setTextureStateTransition (texture : ℕ) (barrierState : TextureBarrierCmdState)
      (aspectMask : Word)
  | setDescriptorPool (descriptorPool : DescriptorPool)
  | setUniformBuffer (location : Word) (shaderStage : ShaderStage) (gpuAddress : BitVec 64)
  | setStorageBuffer (location : Word) (shaderStage : ShaderStage) (gpuAddress : BitVec 64)
  | setTextureAndSampler (location : Word) (shaderStage : ShaderStage)
      (textureSlot samplerSlot : Word)
  | setRenderDimensions (width height : Word)
  deriving DecidableEq, Repr

/-- The resources of one stage. -/
structure ResourceBuffer where
  uniformBuffers : Fin 14 → BitVec 64
  storageBuffers : Fin 16 → BitVec 64
  textureIds : Fin 32 → Word
  samplerIds : Fin 32 → Word
  reserve0 : BitVec 64
  reserve1 : BitVec 64
  deriving DecidableEq

/-- `SetDefaults`, which is a `memset`. -/
def ResourceBuffer.defaults : ResourceBuffer where
  uniformBuffers _ := 0
  storageBuffers _ := 0
  textureIds _ := 0
  samplerIds _ := 0
  reserve0 := 0
  reserve1 := 0

inductive RecordingEvent where
  | call (call : Call)
  /-- A command is recorded. The flag is `m_is_rendering` at that point, only read by
  statements. -/
  | command (command : Command) (isRendering : Bool)
  /-- The resources of a stage are copied into a slot of the mapped memory. -/
  | write (slot : BitVec 32) (table : ResourceBuffer)
  deriving DecidableEq

/-- The flags `m_need_*_resource_update` stand one after another, so `addressof` of the first with
an index is the flag at that place. -/
structure CommandBuffer where
  resourceBufferPerStageArray : Fin 6 → ResourceBuffer
  resourceBufferMappedAddress : Option (BitVec 64)
  resourceBufferAddress : BitVec 64
  colorTargets : Fin 8 → Option TargetView
  depthStencilTarget : Option TargetView
  clearColor : ClearColorValue
  clearDepthStencil : ClearDepthStencilValue
  isRendering : Bool
  areNewTargets : Bool
  needResourceUpdate : Fin 6 → Bool
  resourceUpdateCount : BitVec 32
  renderWidth : BitVec 16
  renderHeight : BitVec 16
  fastClearColor : Bool
  fastClearDepthStencil : Bool

namespace CommandBuffer

/-- `sizeof(ResourceBuffer)`. -/
def resourceBufferSize : ℕ := 0x200

def targetMaxResourceUpdatesPerSubmission : ℕ := 120

def targetConstantBufferAlignment : BitVec 64 := 0x100

def targetResourceBufferPerStageSize : BitVec 64 :=
  alignUp (BitVec.ofNat 64 (resourceBufferSize * targetMaxResourceUpdatesPerSubmission))
    targetConstantBufferAlignment

/-- `GetDrawMemorySize`. The product of the two `u32` is taken before it is widened. -/
def getDrawMemorySize (maxShaderStages maxDraws : BitVec 32) : BitVec 64 :=
  (maxShaderStages * maxDraws).setWidth 64 * targetResourceBufferPerStageSize

end CommandBuffer

/-- A command buffer with the memory and the objects that its calls change. -/
structure Recording extends CommandBuffer where
  /-- The size of the mapped memory, the `draw_memory_size` of `Initialize`. -/
  drawMemorySize : BitVec 64
  /-- The mapped memory, in pieces of `sizeof(ResourceBuffer)`. -/
  slots : BitVec 32 → ResourceBuffer
  textures : ℕ → Texture
  buffers : ℕ → Buffer
  memoryPools : ℕ → MemoryPool
  /-- The calls, the recorded commands and the copies so far, the first one first. -/
  history : List RecordingEvent

namespace Recording

/-- A command is recorded. -/
def emit (command : Command) (s : Recording) : Recording :=
  { s with history := s.history ++ [.command command s.isRendering] }

def setDynamicStates (states : List DynamicState) (s : Recording) : Recording :=
  states.foldl (fun s state => s.emit (.setDynamicState state)) s

/-! ### Rendering scopes -/

def endRenderingIfRendering (s : Recording) : Recording :=
  if s.isRendering then ({ s with isRendering := false }).emit .endRendering else s

def loadOp (fastClear : Bool) : AttachmentLoadOp := if fastClear then .clear else .dontCare

def colorAttachment (s : Recording) (colorTarget : TargetView) : RenderingAttachmentInfo where
  imageView := colorTarget.imageView
  imageLayout := imageLayoutAttachmentOptimal
  loadOp := loadOp s.fastClearColor
  clearValue := .color s.clearColor

def depthStencilAttachment (s : Recording) (target : TargetView) : RenderingAttachmentInfo where
  imageView := target.imageView
  imageLayout := imageLayoutGeneral
  loadOp := loadOp s.fastClearDepthStencil
  clearValue := .depthStencil s.clearDepthStencil

/-- The loop over the color targets, which stops at the first null pointer. -/
def colorAttachments (s : Recording) : List (Option TargetView) → List RenderingAttachmentInfo
  | some colorTarget :: colorTargets =>
    s.colorAttachment colorTarget :: s.colorAttachments colorTargets
  | none :: _ => []
  | [] => []

def renderingInfo (s : Recording) : RenderingInfo where
  width := s.renderWidth.setWidth 32
  height := s.renderHeight.setWidth 32
  colorAttachments := s.colorAttachments (List.ofFn s.colorTargets)
  depthStencilAttachment := s.depthStencilTarget.map s.depthStencilAttachment

def beginRendering (s : Recording) : Recording :=
  { s.emit (.beginRendering s.renderingInfo) with isRendering := true }

def beginRenderingIfNotRendering (s : Recording) : Recording :=
  if s.areNewTargets then ({ s with areNewTargets := false }).endRenderingIfRendering.beginRendering
  else if s.isRendering then s
  else s.beginRendering

/-! ### Resources of the stages -/

/-- One block of `UpdateResourceBufferIfNecessary`: the place of the flag that it tests, the stage
whose resources it copies, and the arguments of `vkCmdPushConstants`. -/
structure UpdateBlock where
  flag : Fin 6
  stage : Fin 6
  stageFlags : Word
  offset : Word
  deriving DecidableEq, Repr

/-- The blocks in the order of the source. -/
def updateBlocks : List UpdateBlock :=
  [⟨0, 0, shaderStageVertexBit, 8 * 0⟩,
   -- The control comes before the evaluation here, but after it among the flags and the stages.
   ⟨2, 2, shaderStageTessellationControlBit, 8 * 1⟩,
   ⟨1, 1, shaderStageTessellationEvaluationBit, 8 * 2⟩,
   ⟨3, 3, shaderStageGeometryBit, 8 * 3⟩,
   ⟨4, 4, shaderStageFragmentBit, 8 * 4⟩,
   ⟨5, 5, shaderStageComputeBit, 8 * 5⟩]

/-- `m_vk_resource_buffer_address + (sizeof(ResourceBuffer) * slot)`. -/
def slotAddress (address : BitVec 64) (slot : BitVec 32) : BitVec 64 :=
  address + BitVec.ofNat 64 CommandBuffer.resourceBufferSize * slot.setWidth 64

/-- The `memcpy` of the resources of the stage into the slot of the counter. -/
def copyResources (s : Recording) (stage : Fin 6) : Recording :=
  let slot := s.resourceUpdateCount
  let table := s.resourceBufferPerStageArray stage
  { s with
    slots := Function.update s.slots slot table
    history := s.history ++ [.write slot table] }

/-- What a block does when its flag is set. -/
def flush (s : Recording) (block : UpdateBlock) : Recording :=
  let s := s.copyResources block.stage
  let offsetAddress := slotAddress s.resourceBufferAddress s.resourceUpdateCount
  let s := s.emit (.pushConstants block.stageFlags block.offset offsetAddress)
  { s with
    resourceUpdateCount := s.resourceUpdateCount + 1
    needResourceUpdate := Function.update s.needResourceUpdate block.flag false }

/-- The slot of the counter ends inside the mapped memory. -/
def NextSlotFits (s : Recording) : Prop :=
  CommandBuffer.resourceBufferSize * s.resourceUpdateCount.toNat +
    CommandBuffer.resourceBufferSize ≤ s.drawMemorySize.toNat

instance (s : Recording) : Decidable s.NextSlotFits :=
  inferInstanceAs (Decidable (_ ≤ _))

def updateBlock (s : Recording) (block : UpdateBlock) : Except Fault Recording :=
  if s.needResourceUpdate block.flag then
    if s.NextSlotFits then .ok (s.flush block) else .error .outOfBounds
  else .ok s

def updateResourceBufferIfNecessary (s : Recording) : Except Fault Recording :=
  match s.resourceBufferMappedAddress with
  | none => .error .assertFailed
  | some _ => updateBlocks.foldlM updateBlock s

/-- The stage as an index of an array with six entries. -/
def stageIndex (shaderStage : ShaderStage) : Except Fault (Fin 6) :=
  if h : shaderStage.value < 6 then .ok ⟨shaderStage.value, h⟩ else .error .outOfBounds

/-- The location as an index of an array with `n` entries. -/
def locationIndex (n : ℕ) (location : Word) : Except Fault (Fin n) :=
  if h : location.toNat < n then .ok ⟨location.toNat, h⟩ else .error .outOfBounds

/-- The resources of a stage are replaced and the flag at the index of the stage is set. -/
def setResources (s : Recording) (stage : Fin 6) (table : ResourceBuffer) : Recording :=
  { s with
    resourceBufferPerStageArray := Function.update s.resourceBufferPerStageArray stage table
    needResourceUpdate := Function.update s.needResourceUpdate stage true }

def setUniformBuffer (location : Word) (shaderStage : ShaderStage) (gpuAddress : BitVec 64)
    (s : Recording) : Except Fault Recording := do
  let stage ← stageIndex shaderStage
  let i ← locationIndex 14 location
  let table := s.resourceBufferPerStageArray stage
  if table.uniformBuffers i = gpuAddress then .ok s
  else
    .ok (s.setResources stage
      { table with uniformBuffers := Function.update table.uniformBuffers i gpuAddress })

def setStorageBuffer (location : Word) (shaderStage : ShaderStage) (gpuAddress : BitVec 64)
    (s : Recording) : Except Fault Recording := do
  let stage ← stageIndex shaderStage
  let i ← locationIndex 16 location
  let table := s.resourceBufferPerStageArray stage
  if table.storageBuffers i = gpuAddress then .ok s
  else
    .ok (s.setResources stage
      { table with storageBuffers := Function.update table.storageBuffers i gpuAddress })

def setTextureAndSampler (location : Word) (shaderStage : ShaderStage)
    (textureSlot samplerSlot : Word) (s : Recording) : Except Fault Recording := do
  let stage ← stageIndex shaderStage
  let i ← locationIndex 32 location
  let table := s.resourceBufferPerStageArray stage
  if table.textureIds i = textureSlot ∧ table.samplerIds i = samplerSlot then .ok s
  else
    .ok (s.setResources stage
      { table with
        textureIds := Function.update table.textureIds i textureSlot
        samplerIds := Function.update table.samplerIds i samplerSlot })

/-! ### Relocation -/

/-- `RelocateHostMemoryToDevice`. -/
def relocateHostMemoryToDevice (s : Recording) (pool : ℕ) : Recording :=
  if (s.memoryPools pool).requiresRelocation then
    let s := s.emit (.copyBuffer (.stagingHostBuffer pool) (.stagingDeviceBuffer pool)
      (s.memoryPools pool).size)
    let s := s.emit (.bufferBarrier ⟨0, 0, pipelineStageAllCommandsBit, accessShaderReadBit⟩
      (.stagingDeviceBuffer pool))
    { s with
      memoryPools := Function.update s.memoryPools pool
        { s.memoryPools pool with requiresRelocation := false } }
  else s

/-- `Buffer::Relocate`, which sets the flag of the buffer to true. -/
def relocate (s : Recording) (buffer : ℕ) : Recording :=
  let pool := (s.buffers buffer).boundMemoryPool
  let s := if (s.memoryPools pool).requiresRelocation then s.relocateHostMemoryToDevice pool else s
  { s with
    buffers := Function.update s.buffers buffer
      { s.buffers buffer with requiresRelocation := true } }

/-- The first block of the calls that use a buffer. -/
def relocateIfRequired (s : Recording) (buffer : ℕ) : Recording :=
  if (s.buffers buffer).requiresRelocation then s.endRenderingIfRendering.relocate buffer else s

def setVertexBuffer (binding : Word) (vertexBuffer : ℕ) (stride size : BitVec 64) (s : Recording) :
    Recording :=
  let s := s.relocateIfRequired vertexBuffer
  s.emit (.bindVertexBuffers binding (s.buffers vertexBuffer).buffer 0 size stride)

def setBufferStateTransition (buffer : ℕ) (barrierState : MemoryBarrier) (s : Recording) :
    Recording :=
  let s := s.relocateIfRequired buffer
  s.emit (.bufferBarrier barrierState (.buffer (s.buffers buffer).buffer))

def setTextureStateTransition (texture : ℕ) (barrierState : TextureBarrierCmdState)
    (aspectMask : Word) (s : Recording) : Recording :=
  let s := if barrierState.barrier.dstStageMask = pipelineStageBottomOfPipeBit then
    s.endRenderingIfRendering else s
  let s := s.emit (.imageBarrier barrierState.barrier barrierState.srcLayout barrierState.dstLayout
    (s.textures texture).image aspectMask)
  { s with
    textures := Function.update s.textures texture
      { s.textures texture with imageLayout := barrierState.dstLayout } }

/-! ### Clears -/

/-- The barrier after a clear. -/
def clearBarrierState (dstStageMask dstAccessMask : BitVec 64) : TextureBarrierCmdState where
  barrier := ⟨pipelineStageTransferBit, accessTransferWriteBit, dstStageMask, dstAccessMask⟩
  srcLayout := imageLayoutGeneral
  dstLayout := imageLayoutGeneral

def clearColorTarget (colorTarget : TargetView) (color : ClearColorValue)
    (subRange : ImageSubresourceRange) (s : Recording) : Recording :=
  let s := s.endRenderingIfRendering
  let s := s.emit (.clearColorImage (s.textures colorTarget.texture).image imageLayoutGeneral color
    subRange)
  s.setTextureStateTransition colorTarget.texture
    (clearBarrierState pipelineStageColorAttachmentOutputBit accessColorAttachmentWriteBit)
    imageAspectColorBit

def clearDepthStencilTarget (depthStencilTarget : TargetView) (clearValue : ClearDepthStencilValue)
    (subRange : ImageSubresourceRange) (s : Recording) : Recording :=
  let s := s.endRenderingIfRendering
  let s := s.emit (.clearDepthStencilImage (s.textures depthStencilTarget.texture).image
    imageLayoutGeneral clearValue subRange)
  s.setTextureStateTransition depthStencilTarget.texture
    (clearBarrierState (pipelineStageEarlyFragmentTestsBit ||| pipelineStageLateFragmentTestsBit)
      accessDepthStencilAttachmentWriteBit)
    (imageAspectDepthBit ||| imageAspectStencilBit)

def registerFastClearColor (colorValue : ClearColorValue) (s : Recording) : Recording :=
  { s with clearColor := colorValue, fastClearColor := true }

def registerFastClearDepthStencil (depthStencilValue : ClearDepthStencilValue) (s : Recording) :
    Recording :=
  { s with clearDepthStencil := depthStencilValue, fastClearDepthStencil := true }

/-! ### Draws -/

/-- What `Draw` and `DrawInstanced` share. -/
def drawVertices (primitiveTopology vertexCount instanceCount baseVertex baseInstance : Word)
    (s : Recording) : Except Fault Recording := do
  let s ← s.updateResourceBufferIfNecessary
  let s := s.beginRenderingIfNotRendering
  let s := s.emit (.setDynamicState (.primitiveTopology primitiveTopology))
  .ok (s.emit (.draw vertexCount instanceCount baseVertex baseInstance))

def draw (primitiveTopology vertexCount baseVertex : Word) : Recording → Except Fault Recording :=
  drawVertices primitiveTopology vertexCount 1 baseVertex 0

def drawInstanced (primitiveTopology vertexCount baseVertex instanceCount baseInstance : Word) :
    Recording → Except Fault Recording :=
  drawVertices primitiveTopology vertexCount instanceCount baseVertex baseInstance

/-- What `DrawIndexed` and `DrawInstancedIndexed` share. -/
def drawIndices (primitiveTopology indexFormat : Word) (indexBuffer : ℕ)
    (indexCount instanceCount baseIndex baseInstance : Word) (s : Recording) :
    Except Fault Recording := do
  let s := s.relocateIfRequired indexBuffer
  let s ← s.updateResourceBufferIfNecessary
  let s := s.beginRenderingIfNotRendering
  let s := s.emit (.bindIndexBuffer (s.buffers indexBuffer).buffer 0 indexFormat)
  let s := s.emit (.setDynamicState (.primitiveTopology primitiveTopology))
  .ok (s.emit (.drawIndexed indexCount instanceCount baseIndex 0 baseInstance))

def drawIndexed (primitiveTopology indexFormat : Word) (indexBuffer : ℕ)
    (indexCount baseIndex : Word) : Recording → Except Fault Recording :=
  drawIndices primitiveTopology indexFormat indexBuffer indexCount 1 baseIndex 0

def drawInstancedIndexed (primitiveTopology indexFormat : Word) (indexBuffer : ℕ)
    (indexCount baseIndex instanceCount baseInstance : Word) :
    Recording → Except Fault Recording :=
  drawIndices primitiveTopology indexFormat indexBuffer indexCount instanceCount baseIndex
    baseInstance

/-! ### State -/

def setShader (shader : Shader) (s : Recording) : Recording :=
  s.emit (.bindPipeline shader.getPipelineBindPoint shader.pipeline)

def setColorBlendState (state : ColorBlendCmdState) : Recording → Recording :=
  setDynamicStates
    [.logicOpEnable state.logicOpEnable, .logicOp state.logicOp,
     .blendConstants state.blendConstants, .colorBlendEnable state.colorBlendEnables,
     .colorBlendEquation state.colorBlendEquations, .colorWriteMask state.colorBlendWriteMasks]

def setDepthStencilState (state : DepthStencilCmdState) : Recording → Recording :=
  setDynamicStates
    [.depthTestEnable state.depthTestEnable, .depthWriteEnable state.depthWriteEnable,
     .depthBoundsTestEnable state.depthBoundsTestEnable,
     .depthBounds state.minDepthBounds state.maxDepthBounds,
     .depthCompareOp state.depthCompareOp, .stencilTestEnable state.stencilTestEnable,
     .stencilCompareMask stencilFaceFrontBit state.opStateFront.compareMask,
     .stencilCompareMask stencilFaceBackBit state.opStateBack.compareMask,
     .stencilWriteMask stencilFaceFrontBit state.opStateFront.writeMask,
     .stencilWriteMask stencilFaceBackBit state.opStateBack.writeMask,
     .stencilReference stencilFaceFrontBit state.opStateFront.reference,
     .stencilReference stencilFaceBackBit state.opStateBack.reference,
     .stencilOp stencilFaceFrontBit state.opStateFront.failOp state.opStateFront.passOp
       state.opStateFront.depthFailOp state.opStateFront.compareOp,
     .stencilOp stencilFaceBackBit state.opStateBack.failOp state.opStateBack.passOp
       state.opStateBack.depthFailOp state.opStateBack.compareOp]

def setRasterizerState (state : RasterizerCmdState) : Recording → Recording :=
  setDynamicStates
    [.rasterizerDiscardEnable state.rasterizerDiscardEnable,
     .primitiveRestartEnable state.primitiveRestartEnable,
     .depthBiasEnable state.depthBiasEnable,
     .depthBias state.depthBiasConstantFactor state.depthBiasClamp state.depthBiasSlopeFactor,
     .lineWidth state.lineWidth, .cullMode state.cullMode, .frontFace state.frontFace,
     .depthClampEnable state.depthClampEnable, .polygonMode state.polygonMode]

def setVertexState (state : VertexCmdState) : Recording → Recording :=
  setDynamicStates [.vertexInput state.vertexBindingArray state.vertexAttributeArray]

def setPipelineState (state : PipelineCmdState) (s : Recording) : Recording :=
  let s := s.setColorBlendState state.colorBlendState
  let s := s.setDepthStencilState state.depthStencilState
  let s := s.setRasterizerState state.rasterizerState
  s.setVertexState state.vertexState

def setViewports (viewports : List Viewport) : Recording → Recording :=
  setDynamicStates [.viewportWithCount viewports]

def setScissors (scissors : List Rect2D) : Recording → Recording :=
  setDynamicStates [.scissorWithCount scissors]

def setViewportScissors (viewports : List Viewport) (scissors : List Rect2D) :
    Recording → Recording :=
  setDynamicStates [.viewportWithCount viewports, .scissorWithCount scissors]

def setDescriptorPool (descriptorPool : DescriptorPool) (s : Recording) :
    Except Fault Recording :=
  if descriptorPool.poolType = descriptorTypeSampledImage then
    .ok (s.emit (.bindDescriptorSets 0 descriptorPool.descriptorSet))
  else if descriptorPool.poolType = descriptorTypeSampler then
    .ok (s.emit (.bindDescriptorSets 1 descriptorPool.descriptorSet))
  else .error .assertFailed

def setRenderDimensions (width height : Word) (s : Recording) : Recording :=
  { s with renderWidth := width.setWidth 16, renderHeight := height.setWidth 16 }

/-- The loop of `SetRenderTargets` up to the index `n`. -/
def copyColorTargets (colorTargets : List (Option TargetView)) :
    ℕ → Recording → Except Fault Recording
  | 0, s => .ok s
  | n + 1, s => do
    let s ← s.copyColorTargets colorTargets n
    match colorTargets[n]? with
    | none => .error .outOfBounds
    | some colorTarget =>
      if h : n < 8 then
        .ok { s with colorTargets := Function.update s.colorTargets ⟨n, h⟩ colorTarget }
      else .error .outOfBounds

def setRenderTargets (colorTargetCount : Word) (colorTargets : List (Option TargetView))
    (depthStencilTarget : Option TargetView) (s : Recording) : Except Fault Recording := do
  let s ← s.copyColorTargets colorTargets colorTargetCount.toInt.toNat
  let s := { s with depthStencilTarget := depthStencilTarget }
  if 0 < colorTargetCount.toInt ∧ colorTargetCount.toInt ≤ 8 then
    .ok { s with areNewTargets := true }
  else .error .assertFailed

/-! ### Recordings -/

/-- `Begin`. -/
def beginCommandBuffer (s : Recording) : Recording :=
  { s.emit .beginCommandBuffer with
    resourceBufferPerStageArray := fun _ => .defaults
    resourceUpdateCount := 0 }

/-- `End`. -/
def endCommandBuffer (s : Recording) : Recording :=
  s.endRenderingIfRendering.emit .endCommandBuffer

def perform : Call → Recording → Except Fault Recording
  | .clearColorTarget colorTarget color subRange, s =>
    .ok (s.clearColorTarget colorTarget color subRange)
  | .clearDepthStencilTarget depthStencilTarget clearValue subRange, s =>
    .ok (s.clearDepthStencilTarget depthStencilTarget clearValue subRange)
  | .registerFastClearColor colorValue, s => .ok (s.registerFastClearColor colorValue)
  | .registerFastClearDepthStencil value, s => .ok (s.registerFastClearDepthStencil value)
  | .draw topology vertexCount baseVertex, s => s.draw topology vertexCount baseVertex
  | .drawIndexed topology indexFormat indexBuffer indexCount baseIndex, s =>
    s.drawIndexed topology indexFormat indexBuffer indexCount baseIndex
  | .drawInstanced topology vertexCount baseVertex instanceCount baseInstance, s =>
    s.drawInstanced topology vertexCount baseVertex instanceCount baseInstance
  | .drawInstancedIndexed topology indexFormat indexBuffer indexCount baseIndex instanceCount
      baseInstance, s =>
    s.drawInstancedIndexed topology indexFormat indexBuffer indexCount baseIndex instanceCount
      baseInstance
  | .setShader shader, s => .ok (s.setShader shader)
  | .setPipelineState state, s => .ok (s.setPipelineState state)
  | .setColorBlendState state, s => .ok (s.setColorBlendState state)
  | .setDepthStencilState state, s => .ok (s.setDepthStencilState state)
  | .setRasterizerState state, s => .ok (s.setRasterizerState state)
  | .setVertexState state, s => .ok (s.setVertexState state)
  | .setViewports viewports, s => .ok (s.setViewports viewports)
  | .setScissors scissors, s => .ok (s.setScissors scissors)
  | .setViewportScissors viewports scissors, s => .ok (s.setViewportScissors viewports scissors)
  | .setRenderTargets colorTargetCount colorTargets depthStencilTarget, s =>
    s.setRenderTargets colorTargetCount colorTargets depthStencilTarget
  | .setVertexBuffer binding vertexBuffer stride size, s =>
    .ok (s.setVertexBuffer binding vertexBuffer stride size)
  | .setBufferStateTransition buffer barrierState, s =>
    .ok (s.setBufferStateTransition buffer barrierState)
  | .setTextureStateTransition texture barrierState aspectMask, s =>
    .ok (s.setTextureStateTransition texture barrierState aspectMask)
  | .setDescriptorPool descriptorPool, s => s.setDescriptorPool descriptorPool
  | .setUniformBuffer location shaderStage gpuAddress, s =>
    s.setUniformBuffer location shaderStage gpuAddress
  | .setStorageBuffer location shaderStage gpuAddress, s =>
    s.setStorageBuffer location shaderStage gpuAddress
  | .setTextureAndSampler location shaderStage textureSlot samplerSlot, s =>
    s.setTextureAndSampler location shaderStage textureSlot samplerSlot
  | .setRenderDimensions width height, s => .ok (s.setRenderDimensions width height)

/-- The call is entered in the history. -/
def enter (s : Recording) (call : Call) : Recording :=
  { s with history := s.history ++ [.call call] }

def call (s : Recording) (call : Call) : Except Fault Recording := perform call (s.enter call)

/-- `Begin` and the calls after it, with a history of their own. -/
def record (s : Recording) (calls : List Call) : Except Fault Recording :=
  calls.foldlM Recording.call ({ s with history := [] } : Recording).beginCommandBuffer

/-- A call of a run that goes over several recordings. -/
inductive Step where
  | beginCommandBuffer
  | call (call : Call)
  | endCommandBuffer
  deriving DecidableEq, Repr

/-- A call that fails ends the run. -/
def next (s : Recording) : Step → Option Recording
  | .beginCommandBuffer => some s.beginCommandBuffer
  | .call c => (s.call c).toOption
  | .endCommandBuffer => some s.endCommandBuffer

end Recording

end DDFramework
