import DDFramework.Verification.CommandBuffer.Device
import DDFramework.Verification.CommandBuffer.RenderTargets
import DDFramework.Verification.CommandBuffer.Slots

/-! # The meaning of the calls

What the calls of a command buffer ask for, each of them carried out at once. A draw belongs to
the pass of the draw before it unless a call between the two ends that pass. -/

namespace DDFramework

open Vulkan RecordingEvent

/-- What a call reads of the objects that it gets by number. -/
structure Objects where
  image : ℕ → Handle
  buffer : ℕ → Handle
  requiresRelocation : ℕ → Bool

/-- What decides about the passes. -/
structure Frame where
  objects : Objects
  /-- The next draw belongs to the pass of the last one. -/
  inPass : Bool
  colorTargets : Fin 8 → Option TargetView
  depthStencilTarget : Option TargetView
  clearColor : Option ClearColorValue
  clearDepthStencil : Option ClearDepthStencilValue
  renderWidth : BitVec 16
  renderHeight : BitVec 16

/-- What the calls so far have set and what they have drawn. -/
structure Immediate extends Frame where
  pipelines : PipelineBindPoint → Option Handle
  colorBlendState : Option ColorBlendCmdState
  depthStencilState : Option DepthStencilCmdState
  rasterizerState : Option RasterizerCmdState
  vertexState : Option VertexCmdState
  viewports : Option (List Viewport)
  scissors : Option (List Rect2D)
  primitiveTopology : Option Word
  vertexBuffers : Word → Option VertexBufferBinding
  descriptorSets : Word → Option Handle
  /-- The resources by the bit of the stage, once they have been changed. -/
  resources : Word → Option ResourceBuffer
  outputs : List (Output ResourceBuffer)

/-- The pass that would begin now. -/
def Frame.pass (f : Frame) : Pass where
  width := f.renderWidth.setWidth 32
  height := f.renderHeight.setWidth 32
  color := (upToNull (List.ofFn f.colorTargets)).map fun target =>
    ⟨target.imageView, f.clearColor.map .color⟩
  depthStencil := f.depthStencilTarget.map fun target =>
    ⟨target.imageView, f.clearDepthStencil.map .depthStencil⟩

namespace Immediate

/-! ### What a draw takes -/

def stencilFace (state : Option DepthStencilCmdState)
    (face : DepthStencilCmdState → StencilOpState) : StencilFaceState where
  compareMask := state.map fun s => (face s).compareMask
  writeMask := state.map fun s => (face s).writeMask
  reference := state.map fun s => (face s).reference
  failOp := state.map fun s => (face s).failOp
  passOp := state.map fun s => (face s).passOp
  depthFailOp := state.map fun s => (face s).depthFailOp
  compareOp := state.map fun s => (face s).compareOp

/-- The values of the command states that were set last. -/
def dynamicStates (p : Immediate) : DynamicStates where
  logicOpEnable := p.colorBlendState.map (·.logicOpEnable)
  logicOp := p.colorBlendState.map (·.logicOp)
  blendConstants := p.colorBlendState.map (·.blendConstants)
  colorBlendEnable := p.colorBlendState.map (·.colorBlendEnables)
  colorBlendEquation := p.colorBlendState.map (·.colorBlendEquations)
  colorWriteMask := p.colorBlendState.map (·.colorBlendWriteMasks)
  depthTestEnable := p.depthStencilState.map (·.depthTestEnable)
  depthWriteEnable := p.depthStencilState.map (·.depthWriteEnable)
  depthBoundsTestEnable := p.depthStencilState.map (·.depthBoundsTestEnable)
  depthBounds := p.depthStencilState.map fun s => (s.minDepthBounds, s.maxDepthBounds)
  depthCompareOp := p.depthStencilState.map (·.depthCompareOp)
  stencilTestEnable := p.depthStencilState.map (·.stencilTestEnable)
  stencilFront := stencilFace p.depthStencilState (·.opStateFront)
  stencilBack := stencilFace p.depthStencilState (·.opStateBack)
  rasterizerDiscardEnable := p.rasterizerState.map (·.rasterizerDiscardEnable)
  primitiveRestartEnable := p.rasterizerState.map (·.primitiveRestartEnable)
  depthBiasEnable := p.rasterizerState.map (·.depthBiasEnable)
  depthBias := p.rasterizerState.map fun s =>
    (s.depthBiasConstantFactor, s.depthBiasClamp, s.depthBiasSlopeFactor)
  lineWidth := p.rasterizerState.map (·.lineWidth)
  cullMode := p.rasterizerState.map (·.cullMode)
  frontFace := p.rasterizerState.map (·.frontFace)
  depthClampEnable := p.rasterizerState.map (·.depthClampEnable)
  polygonMode := p.rasterizerState.map (·.polygonMode)
  vertexInput := p.vertexState.map fun s => (s.vertexBindingArray, s.vertexAttributeArray)
  viewportWithCount := p.viewports
  scissorWithCount := p.scissors
  primitiveTopology := p.primitiveTopology

def bindings (p : Immediate) : Bindings where
  pipelines := p.pipelines
  dynamicStates := p.dynamicStates
  vertexBuffers := p.vertexBuffers
  descriptorSets := p.descriptorSets

def drawState (p : Immediate) : DrawState ResourceBuffer where
  toBindings := p.bindings
  resources := p.resources

/-! ### Calls -/

def put (output : Output ResourceBuffer) (p : Immediate) : Immediate :=
  { p with outputs := p.outputs ++ [output] }

def endPass (p : Immediate) : Immediate := { p with inPass := false }

def enterPass (p : Immediate) : Immediate :=
  if p.inPass then p else ({ p with inPass := true }).put (.pass p.toFrame.pass)

/-- The memory of a buffer is relocated outside a pass. -/
def useBuffer (buffer : ℕ) (p : Immediate) : Immediate :=
  if p.objects.requiresRelocation buffer then p.endPass else p

def drawVertices (topology vertexCount instanceCount baseVertex baseInstance : Word)
    (p : Immediate) : Immediate :=
  let p := { p.enterPass with primitiveTopology := some topology }
  p.put (.draw vertexCount instanceCount baseVertex baseInstance p.drawState)

def drawIndices (topology indexFormat : Word) (indexBuffer : ℕ)
    (indexCount instanceCount baseIndex baseInstance : Word) (p : Immediate) : Immediate :=
  let p := { (p.useBuffer indexBuffer).enterPass with primitiveTopology := some topology }
  p.put (.drawIndexed indexCount instanceCount baseIndex 0 baseInstance
    (some ⟨p.objects.buffer indexBuffer, 0, indexFormat⟩) p.drawState)

def setColorBlendState (state : ColorBlendCmdState) (p : Immediate) : Immediate :=
  { p with colorBlendState := some state }

def setDepthStencilState (state : DepthStencilCmdState) (p : Immediate) : Immediate :=
  { p with depthStencilState := some state }

def setRasterizerState (state : RasterizerCmdState) (p : Immediate) : Immediate :=
  { p with rasterizerState := some state }

def setVertexState (state : VertexCmdState) (p : Immediate) : Immediate :=
  { p with vertexState := some state }

def setPipelineState (state : PipelineCmdState) (p : Immediate) : Immediate :=
  (((p.setColorBlendState state.colorBlendState).setDepthStencilState
    state.depthStencilState).setRasterizerState state.rasterizerState).setVertexState
      state.vertexState

/-- Entries of the array past the targets of the call stay. -/
def setRenderTargets (colorTargetCount : Word) (colorTargets : List (Option TargetView))
    (depthStencilTarget : Option TargetView) (p : Immediate) : Immediate :=
  { p.endPass with
    colorTargets := fun i =>
      if (i : ℕ) < colorTargetCount.toInt.toNat then (colorTargets[(i : ℕ)]?).join
      else p.colorTargets i
    depthStencilTarget := depthStencilTarget }

def table (p : Immediate) (stage : Fin 6) : ResourceBuffer :=
  (p.resources (stageBit stage)).getD .defaults

/-- A setter that leaves the table of the stage as it is does nothing. -/
def changeTable (stage : Fin 6) (table : ResourceBuffer) (p : Immediate) : Immediate :=
  if table = p.table stage then p
  else { p with resources := Function.update p.resources (stageBit stage) (some table) }

/-- A stage or a location without an entry is refused by the call. -/
def setResource (n : ℕ) (location : Word) (shaderStage : ShaderStage)
    (change : Fin n → ResourceBuffer → ResourceBuffer) (p : Immediate) : Immediate :=
  if hstage : shaderStage.value < 6 then
    if hlocation : location.toNat < n then
      p.changeTable ⟨shaderStage.value, hstage⟩
        (change ⟨location.toNat, hlocation⟩ (p.table ⟨shaderStage.value, hstage⟩))
    else p
  else p

def setDescriptorPool (descriptorPool : DescriptorPool) (p : Immediate) : Immediate :=
  let set : Word := if descriptorPool.poolType = descriptorTypeSampledImage then 0 else 1
  { p with
    descriptorSets := Function.update p.descriptorSets set (some descriptorPool.descriptorSet) }

def perform (p : Immediate) : Call → Immediate
  | .clearColorTarget colorTarget color subRange =>
      p.endPass.put (.clearColorImage (p.objects.image colorTarget.texture) color subRange)
  | .clearDepthStencilTarget target clearValue subRange =>
      p.endPass.put (.clearDepthStencilImage (p.objects.image target.texture) clearValue subRange)
  | .registerFastClearColor colorValue => { p with clearColor := some colorValue }
  | .registerFastClearDepthStencil value => { p with clearDepthStencil := some value }
  | .draw topology vertexCount baseVertex => p.drawVertices topology vertexCount 1 baseVertex 0
  | .drawIndexed topology indexFormat indexBuffer indexCount baseIndex =>
      p.drawIndices topology indexFormat indexBuffer indexCount 1 baseIndex 0
  | .drawInstanced topology vertexCount baseVertex instanceCount baseInstance =>
      p.drawVertices topology vertexCount instanceCount baseVertex baseInstance
  | .drawInstancedIndexed topology indexFormat indexBuffer indexCount baseIndex instanceCount
      baseInstance =>
      p.drawIndices topology indexFormat indexBuffer indexCount instanceCount baseIndex
        baseInstance
  | .setShader shader =>
      { p with
        pipelines :=
          Function.update p.pipelines shader.getPipelineBindPoint (some shader.pipeline) }
  | .setPipelineState state => p.setPipelineState state
  | .setColorBlendState state => p.setColorBlendState state
  | .setDepthStencilState state => p.setDepthStencilState state
  | .setRasterizerState state => p.setRasterizerState state
  | .setVertexState state => p.setVertexState state
  | .setViewports viewports => { p with viewports := some viewports }
  | .setScissors scissors => { p with scissors := some scissors }
  | .setViewportScissors viewports scissors =>
      { p with viewports := some viewports, scissors := some scissors }
  | .setRenderTargets colorTargetCount colorTargets depthStencilTarget =>
      p.setRenderTargets colorTargetCount colorTargets depthStencilTarget
  | .setVertexBuffer binding vertexBuffer stride size =>
      let p := p.useBuffer vertexBuffer
      { p with
        vertexBuffers := Function.update p.vertexBuffers binding
          (some ⟨p.objects.buffer vertexBuffer, 0, size, stride⟩) }
  | .setBufferStateTransition buffer _ => p.useBuffer buffer
  | .setTextureStateTransition _ barrierState _ =>
      if barrierState.barrier.dstStageMask = pipelineStageBottomOfPipeBit then p.endPass else p
  | .setDescriptorPool descriptorPool => p.setDescriptorPool descriptorPool
  | .setUniformBuffer location shaderStage gpuAddress =>
      p.setResource 14 location shaderStage fun i table =>
        { table with uniformBuffers := Function.update table.uniformBuffers i gpuAddress }
  | .setStorageBuffer location shaderStage gpuAddress =>
      p.setResource 16 location shaderStage fun i table =>
        { table with storageBuffers := Function.update table.storageBuffers i gpuAddress }
  | .setTextureAndSampler location shaderStage textureSlot samplerSlot =>
      p.setResource 32 location shaderStage fun i table =>
        { table with
          textureIds := Function.update table.textureIds i textureSlot
          samplerIds := Function.update table.samplerIds i samplerSlot }
  | .setRenderDimensions width height =>
      { p with renderWidth := width.setWidth 16, renderHeight := height.setWidth 16 }

end Immediate

namespace Recording

/-- What a recording decides about its rendering scopes. -/
def frame (s : Recording) : Frame where
  objects :=
    { image := fun n => (s.textures n).image
      buffer := fun n => (s.buffers n).buffer
      requiresRelocation := fun n => (s.buffers n).requiresRelocation }
  inPass := s.isRendering && !s.areNewTargets
  colorTargets := s.colorTargets
  depthStencilTarget := s.depthStencilTarget
  clearColor := if s.fastClearColor then some s.clearColor else none
  clearDepthStencil := if s.fastClearDepthStencil then some s.clearDepthStencil else none
  renderWidth := s.renderWidth
  renderHeight := s.renderHeight

/-- Where a recording that begins starts. A stage still waiting for an update gets its empty table
with the first draw. -/
def immediate (s : Recording) : Immediate where
  toFrame := s.frame
  pipelines _ := none
  colorBlendState := none
  depthStencilState := none
  rasterizerState := none
  vertexState := none
  viewports := none
  scissors := none
  primitiveTopology := none
  vertexBuffers _ := none
  descriptorSets _ := none
  resources stageFlags :=
    if ∃ stage, stageFlags = stageBit stage ∧ s.needResourceUpdate stage = true then some .defaults
    else none
  outputs := []

end Recording

end DDFramework
