import DDFramework.Library.Ownership
import Mathlib.Data.BitVec
import Mathlib.Logic.Function.Basic

/-! The Vulkan objects that the classes of `vk` create and destroy. A call of the device succeeds,
and the handle of an object is not used for a later one. What an object is created with is left
out. The variables of the classes are in static storage, which is zero at the start. -/

namespace DDFramework

namespace DeviceObjects

open ObjectTable (create destroy)

inductive ObjectKind where
  | deviceMemory
  | buffer
  | image
  | imageView
  | sampler
  | descriptorPool
  | shaderModule
  | pipeline
  | commandBuffer
  | swapchain
  | semaphore
  | fence
  deriving DecidableEq, Repr

/-- `VK_NULL_HANDLE` is 0. -/
abbrev Handle := ℕ

abbrev DeviceM := StateM (ObjectTable ObjectKind)

/-! ### Classes with one object -/

structure Wrapper where
  handle : Handle
  deriving DecidableEq, Repr

def Wrapper.initialize (kind : ObjectKind) : DeviceM Wrapper := do
  let handle ← create kind
  pure ⟨handle⟩

/-- Some classes set the handle to null and the others leave it. -/
def Wrapper.finalize (kind : ObjectKind) (clears : Bool) (wrapper : Wrapper) : DeviceM Wrapper := do
  destroy kind wrapper.handle
  pure (if clears then ⟨0⟩ else wrapper)

def Buffer.initialize : DeviceM Wrapper := Wrapper.initialize .buffer

def Buffer.finalize : Wrapper → DeviceM Wrapper := Wrapper.finalize .buffer true

def TextureView.initialize : DeviceM Wrapper := Wrapper.initialize .imageView

def TextureView.finalize : Wrapper → DeviceM Wrapper := Wrapper.finalize .imageView false

def ColorTargetView.initialize : DeviceM Wrapper := Wrapper.initialize .imageView

def ColorTargetView.finalize : Wrapper → DeviceM Wrapper := Wrapper.finalize .imageView true

def DepthStencilTargetView.initialize : DeviceM Wrapper := Wrapper.initialize .imageView

def DepthStencilTargetView.finalize : Wrapper → DeviceM Wrapper :=
  Wrapper.finalize .imageView true

def Sampler.initialize : DeviceM Wrapper := Wrapper.initialize .sampler

def Sampler.finalize : Wrapper → DeviceM Wrapper := Wrapper.finalize .sampler false

/-- The descriptor set is a part of its pool. -/
def DescriptorPool.initialize : DeviceM Wrapper := Wrapper.initialize .descriptorPool

def DescriptorPool.finalize : Wrapper → DeviceM Wrapper := Wrapper.finalize .descriptorPool false

inductive WrapperClass where
  | buffer
  | textureView
  | colorTargetView
  | depthStencilTargetView
  | sampler
  | descriptorPool
  deriving DecidableEq, Repr

def WrapperClass.kind : WrapperClass → ObjectKind
  | buffer => .buffer
  | textureView | colorTargetView | depthStencilTargetView => .imageView
  | sampler => .sampler
  | descriptorPool => .descriptorPool

def WrapperClass.initialize : WrapperClass → DeviceM Wrapper
  | buffer => Buffer.initialize
  | textureView => TextureView.initialize
  | colorTargetView => ColorTargetView.initialize
  | depthStencilTargetView => DepthStencilTargetView.initialize
  | sampler => Sampler.initialize
  | descriptorPool => DescriptorPool.initialize

def WrapperClass.finalize : WrapperClass → Wrapper → DeviceM Wrapper
  | buffer => Buffer.finalize
  | textureView => TextureView.finalize
  | colorTargetView => ColorTargetView.finalize
  | depthStencilTargetView => DepthStencilTargetView.finalize
  | sampler => Sampler.finalize
  | descriptorPool => DescriptorPool.finalize

/-! ### `Texture` -/

structure Texture where
  vkImage : Handle
  isImport : Bool
  deriving DecidableEq, Repr

def Texture.zero : Texture := ⟨0, false⟩

/-- Both functions of this name. -/
def Texture.initialize (texture : Texture) : DeviceM Texture := do
  let vkImage ← create .image
  pure { texture with vkImage := vkImage }

def Texture.importExisting (image : Handle) (texture : Texture) : Texture :=
  { texture with vkImage := image, isImport := true }

def Texture.finalize (texture : Texture) : DeviceM Texture := do
  if texture.isImport = false then
    destroy .image texture.vkImage
  pure texture

/-! ### `MemoryPool` -/

structure MemoryPoolInfo where
  size : BitVec 64
  vkMemoryPropertyFlags : BitVec 32
  deriving DecidableEq, Repr

structure MemoryPool where
  vkMemory : Handle
  vkStagingMemory : Handle
  vkStagingHostBuffer : Handle
  vkStagingDeviceBuffer : Handle
  vkMemoryPropertyFlags : BitVec 32
  requiresRelocation : Bool
  isDeviceMemory : Bool
  isImport : Bool
  size : BitVec 64
  deriving DecidableEq, Repr

def MemoryPool.zero : MemoryPool := ⟨0, 0, 0, 0, 0, false, false, false, 0⟩

/-- The device gives the `memoryTypeBits` of the host memory that is imported. -/
def MemoryPool.initialize (info : MemoryPoolInfo) (memoryTypeBits : BitVec 32)
    (pool : MemoryPool) : DeviceM MemoryPool := do
  let pool := { pool with
    size := info.size, vkMemoryPropertyFlags := info.vkMemoryPropertyFlags }
  if memoryTypeBits &&& info.vkMemoryPropertyFlags = info.vkMemoryPropertyFlags then
    let vkMemory ← create .deviceMemory
    pure { pool with requiresRelocation := false, isDeviceMemory := false, vkMemory := vkMemory }
  else
    let vkMemory ← create .deviceMemory
    let vkStagingMemory ← create .deviceMemory
    pure { pool with
      requiresRelocation := true, isDeviceMemory := true, vkMemory := vkMemory,
      vkStagingMemory := vkStagingMemory }

def MemoryPool.importExisting (importMemory : Handle) (isDeviceLocal : Bool) (pool : MemoryPool) :
    MemoryPool :=
  { pool with vkMemory := importMemory, isDeviceMemory := isDeviceLocal, isImport := true }

/-- The two staging buffers. -/
def MemoryPool.relocateHostMemoryToDevice (pool : MemoryPool) : DeviceM MemoryPool := do
  if pool.requiresRelocation = false then
    pure pool
  else
    let vkStagingHostBuffer ← create .buffer
    let vkStagingDeviceBuffer ← create .buffer
    pure { pool with
      vkStagingHostBuffer := vkStagingHostBuffer, vkStagingDeviceBuffer := vkStagingDeviceBuffer,
      requiresRelocation := false }

def MemoryPool.finalize (pool : MemoryPool) : DeviceM MemoryPool := do
  if pool.isImport = true then
    pure pool
  else
    destroy .buffer pool.vkStagingDeviceBuffer
    destroy .deviceMemory pool.vkMemory
    destroy .buffer pool.vkStagingHostBuffer
    destroy .deviceMemory pool.vkStagingMemory
    -- the third of the ifs sets `m_vk_staging_device_buffer` to null, as the first one does
    pure { pool with vkStagingDeviceBuffer := 0, vkMemory := 0, vkStagingMemory := 0 }

/-! ### `Shader` -/

structure Shader where
  vkPipeline : Handle
  pipelineType : BitVec 32
  deriving DecidableEq, Repr

def pipelineTypePrimitive : BitVec 32 := 1
def pipelineTypeMesh : BitVec 32 := 2
def pipelineTypeCompute : BitVec 32 := 4

/-- The code of a stage, `none` for a null pointer. -/
abbrev ShaderCode := Option (List (BitVec 32))

structure PrimitiveShaderInfo where
  vertexCode : ShaderCode
  tessellationControlCode : ShaderCode
  tessellationEvaluationCode : ShaderCode
  geometryCode : ShaderCode
  fragmentCode : ShaderCode
  deriving DecidableEq, Repr

structure ComputeShaderInfo where
  computeCode : ShaderCode
  deriving DecidableEq, Repr

structure MeshShaderInfo where
  taskCode : ShaderCode
  meshCode : ShaderCode
  fragmentCode : ShaderCode
  deriving DecidableEq, Repr

def createShaderModule : ShaderCode → DeviceM Handle
  | none => pure 0
  | some _ => create .shaderModule

def destroyShaderModule (vkModule : Handle) : DeviceM Unit :=
  if vkModule ≠ 0 then destroy .shaderModule vkModule else pure ()

def Shader.initialize (codes : List ShaderCode) (pipelineType : BitVec 32) : DeviceM Shader := do
  let vkModules ← codes.mapM createShaderModule
  let vkPipeline ← create .pipeline
  let _ ← vkModules.mapM destroyShaderModule
  pure ⟨vkPipeline, pipelineType⟩

def Shader.initializePrimitive (info : PrimitiveShaderInfo) : DeviceM Shader :=
  Shader.initialize [info.vertexCode, info.tessellationControlCode,
    info.tessellationEvaluationCode, info.geometryCode, info.fragmentCode] pipelineTypePrimitive

def Shader.initializeCompute (info : ComputeShaderInfo) : DeviceM Shader :=
  Shader.initialize [info.computeCode] pipelineTypeCompute

def Shader.initializeMesh (info : MeshShaderInfo) : DeviceM Shader :=
  Shader.initialize [info.taskCode, info.meshCode, info.fragmentCode] pipelineTypeMesh

def Shader.finalize (shader : Shader) : DeviceM Shader := do
  if shader.vkPipeline ≠ 0 then
    destroy .pipeline shader.vkPipeline
  pure ⟨0, 0⟩

/-! ### `CommandBuffer` -/

structure CommandBuffer where
  vkCommandBuffer : Handle
  vkResourceBufferMemory : Handle
  vkResourceBuffer : Handle
  deriving DecidableEq, Repr

def CommandBuffer.initialize : DeviceM CommandBuffer := do
  let vkCommandBuffer ← create .commandBuffer
  let vkResourceBufferMemory ← create .deviceMemory
  let vkResourceBuffer ← create .buffer
  pure ⟨vkCommandBuffer, vkResourceBufferMemory, vkResourceBuffer⟩

def CommandBuffer.finalize (commandBuffer : CommandBuffer) : DeviceM CommandBuffer := do
  destroy .commandBuffer commandBuffer.vkCommandBuffer
  destroy .buffer commandBuffer.vkResourceBuffer
  destroy .deviceMemory commandBuffer.vkResourceBufferMemory
  pure commandBuffer

/-! ### `DisplayBuffer` -/

def framesInFlight : ℕ := 2

def bufferedFrames : ℕ := 3

/-- What there is for each of the frames in flight. -/
structure FrameSync where
  queuePresentSemaphore : Handle
  queueSubmitFence : Handle
  deriving DecidableEq, Repr

/-- What there is for each of the images of the swapchain. -/
structure SwapchainFrame where
  texture : Texture
  target : Wrapper
  deriving DecidableEq, Repr

structure DisplayBuffer where
  vkSwapchain : Handle
  vkSurface : Handle
  frameSyncs : List FrameSync
  vkImageAcquireFence : Handle
  swapchainFrames : List SwapchainFrame
  vkDepthStencilImageMemory : Handle
  depthStencilMemory : MemoryPool
  depthStencilTexture : Texture
  depthStencilTarget : Wrapper
  currentTargetIndex : BitVec 32
  currentFrame : BitVec 32
  deriving DecidableEq, Repr

def DisplayBuffer.zero : DisplayBuffer where
  vkSwapchain := 0
  vkSurface := 0
  frameSyncs := List.replicate framesInFlight ⟨0, 0⟩
  vkImageAcquireFence := 0
  swapchainFrames := List.replicate bufferedFrames ⟨Texture.zero, ⟨0⟩⟩
  vkDepthStencilImageMemory := 0
  depthStencilMemory := MemoryPool.zero
  depthStencilTexture := Texture.zero
  depthStencilTarget := ⟨0⟩
  currentTargetIndex := 0
  currentFrame := 0

/-- What the device gives for a new swapchain: its images, which are a part of it, and the first
one to draw to. -/
structure SwapchainImages where
  images : Vector Handle bufferedFrames
  targetIndex : BitVec 32
  deriving DecidableEq

/-- "Initialize textures" and "Initialize ColorTargets". -/
def DisplayBuffer.createTargets (given : SwapchainImages) (frames : List SwapchainFrame) :
    DeviceM (List SwapchainFrame) :=
  (frames.zipWith (fun frame image => { frame with texture := frame.texture.importExisting image })
    given.images.toList).mapM fun frame => do
      let target ← ColorTargetView.initialize
      pure { frame with target := target }

def DisplayBuffer.createSemaphores (syncs : List FrameSync) : DeviceM (List FrameSync) :=
  syncs.mapM fun sync => do
    let semaphore ← create .semaphore
    pure { sync with queuePresentSemaphore := semaphore }

def DisplayBuffer.createFences (syncs : List FrameSync) : DeviceM (List FrameSync) :=
  syncs.mapM fun sync => do
    let fence ← create .fence
    pure { sync with queueSubmitFence := fence }

/-- "Create depth image". -/
def DisplayBuffer.createDepthStencil (d : DisplayBuffer) : DeviceM DisplayBuffer := do
  let memory ← create .deviceMemory
  let depthStencilMemory := d.depthStencilMemory.importExisting memory true
  let depthStencilTexture ← d.depthStencilTexture.initialize
  let depthStencilTarget ← DepthStencilTargetView.initialize
  pure { d with
    vkDepthStencilImageMemory := memory, depthStencilMemory := depthStencilMemory,
    depthStencilTexture := depthStencilTexture, depthStencilTarget := depthStencilTarget }

def DisplayBuffer.initialize (surface : Handle) (given : SwapchainImages) (d : DisplayBuffer) :
    DeviceM DisplayBuffer := do
  let vkSwapchain ← create .swapchain
  let swapchainFrames ← DisplayBuffer.createTargets given d.swapchainFrames
  let frameSyncs ← DisplayBuffer.createSemaphores d.frameSyncs
  let vkImageAcquireFence ← create .fence
  let frameSyncs ← DisplayBuffer.createFences frameSyncs
  DisplayBuffer.createDepthStencil { d with
    vkSurface := surface, vkSwapchain := vkSwapchain, swapchainFrames := swapchainFrames,
    frameSyncs := frameSyncs, vkImageAcquireFence := vkImageAcquireFence,
    currentTargetIndex := given.targetIndex }

def DisplayBuffer.destroyTargets (frames : List SwapchainFrame) : DeviceM (List SwapchainFrame) :=
  frames.mapM fun frame => do
    let target ← ColorTargetView.finalize frame.target
    let texture ← frame.texture.finalize
    pure ⟨texture, target⟩

def DisplayBuffer.destroyDepthStencil (d : DisplayBuffer) : DeviceM DisplayBuffer := do
  let depthStencilTarget ← DepthStencilTargetView.finalize d.depthStencilTarget
  let depthStencilTexture ← d.depthStencilTexture.finalize
  let depthStencilMemory ← d.depthStencilMemory.finalize
  destroy .deviceMemory d.vkDepthStencilImageMemory
  pure { d with
    depthStencilTarget := depthStencilTarget, depthStencilTexture := depthStencilTexture,
    depthStencilMemory := depthStencilMemory }

def DisplayBuffer.finalize (d : DisplayBuffer) : DeviceM DisplayBuffer := do
  destroy .fence d.vkImageAcquireFence
  let _ ← d.frameSyncs.mapM fun sync => do
    destroy .semaphore sync.queuePresentSemaphore
    destroy .fence sync.queueSubmitFence
  let swapchainFrames ← DisplayBuffer.destroyTargets d.swapchainFrames
  let d ← DisplayBuffer.destroyDepthStencil { d with swapchainFrames := swapchainFrames }
  pure { d with currentFrame := 0, vkSurface := 0 }

def DisplayBuffer.recreate (given : SwapchainImages) (d : DisplayBuffer) :
    DeviceM DisplayBuffer := do
  let vkSwapchain ← create .swapchain
  destroy .swapchain d.vkSwapchain
  let swapchainFrames ← DisplayBuffer.destroyTargets d.swapchainFrames
  let swapchainFrames ← DisplayBuffer.createTargets given swapchainFrames
  let _ ← d.frameSyncs.mapM fun sync => destroy .semaphore sync.queuePresentSemaphore
  let frameSyncs ← DisplayBuffer.createSemaphores d.frameSyncs
  let d ← DisplayBuffer.destroyDepthStencil { d with
    vkSwapchain := vkSwapchain, swapchainFrames := swapchainFrames, frameSyncs := frameSyncs,
    currentFrame := 0, currentTargetIndex := given.targetIndex }
  d.createDepthStencil

/-! ### Objects and calls -/

/-- A variable of one of the classes. -/
inductive Object where
  | wrapper (cls : WrapperClass) (wrapper : Wrapper)
  | texture (texture : Texture)
  | memoryPool (pool : MemoryPool)
  | shader (shader : Shader)
  | commandBuffer (commandBuffer : CommandBuffer)
  | displayBuffer (displayBuffer : DisplayBuffer)
  deriving DecidableEq, Repr

/-- Static storage before the first call. -/
inductive Object.Zeroed : Object → Prop
  | wrapper (cls : WrapperClass) : Zeroed (Object.wrapper cls ⟨0⟩)
  | texture : Zeroed (Object.texture Texture.zero)
  | memoryPool : Zeroed (Object.memoryPool MemoryPool.zero)
  | shader : Zeroed (Object.shader ⟨0, 0⟩)
  | commandBuffer : Zeroed (Object.commandBuffer ⟨0, 0, 0⟩)
  | displayBuffer : Zeroed (Object.displayBuffer DisplayBuffer.zero)

inductive Call where
  | initializeObject
  | initializeMemoryPool (info : MemoryPoolInfo) (memoryTypeBits : BitVec 32)
  | initializePrimitive (info : PrimitiveShaderInfo)
  | initializeCompute (info : ComputeShaderInfo)
  | initializeMesh (info : MeshShaderInfo)
  | initializeDisplayBuffer (surface : Handle) (given : SwapchainImages)
  | importImage (image : Handle)
  | importMemory (memory : Handle) (isDeviceLocal : Bool)
  | relocate
  | recreate (given : SwapchainImages)
  | finalize

def Object.perform : Object → Call → Option (DeviceM Object)
  | .wrapper cls _, .initializeObject => some (.wrapper cls <$> cls.initialize)
  | .wrapper cls w, .finalize => some (.wrapper cls <$> cls.finalize w)
  | .texture t, .initializeObject => some (.texture <$> t.initialize)
  | .texture t, .importImage image => some (pure (.texture (t.importExisting image)))
  | .texture t, .finalize => some (.texture <$> t.finalize)
  | .memoryPool pool, .initializeMemoryPool info memoryTypeBits =>
    some (.memoryPool <$> pool.initialize info memoryTypeBits)
  | .memoryPool pool, .importMemory memory isDeviceLocal =>
    some (pure (.memoryPool (pool.importExisting memory isDeviceLocal)))
  | .memoryPool pool, .relocate => some (.memoryPool <$> pool.relocateHostMemoryToDevice)
  | .memoryPool pool, .finalize => some (.memoryPool <$> pool.finalize)
  | .shader _, .initializePrimitive info => some (.shader <$> Shader.initializePrimitive info)
  | .shader _, .initializeCompute info => some (.shader <$> Shader.initializeCompute info)
  | .shader _, .initializeMesh info => some (.shader <$> Shader.initializeMesh info)
  | .shader s, .finalize => some (.shader <$> s.finalize)
  | .commandBuffer _, .initializeObject => some (.commandBuffer <$> CommandBuffer.initialize)
  | .commandBuffer c, .finalize => some (.commandBuffer <$> c.finalize)
  | .displayBuffer d, .initializeDisplayBuffer surface given =>
    some (.displayBuffer <$> d.initialize surface given)
  | .displayBuffer d, .recreate given => some (.displayBuffer <$> d.recreate given)
  | .displayBuffer d, .finalize => some (.displayBuffer <$> d.finalize)
  | _, _ => none

/-! ### Runs -/

inductive Phase where
  | down
  | initialized
  | imported
  deriving DecidableEq, Repr

/-- Where an object is between its calls. Only `phase` says which calls may be made; `relocated`
is about the calls since the object is not down, and the others are about all earlier ones. -/
structure Life where
  phase : Phase
  relocated : Bool
  relocatedBefore : Bool
  everImported : Bool
  deriving DecidableEq, Repr

def Life.start : Life := ⟨.down, false, false, false⟩

/-- An object is initialised or imported when it is down and finalised when it is not. -/
def Call.allowedIn : Call → Phase → Bool
  | .relocate, phase => phase ≠ .down
  | .finalize, phase => phase ≠ .down
  | .recreate _, phase => phase = .initialized
  | _, phase => phase = .down

/-- The call makes the staging buffers of a memory pool. -/
def Object.relocates : Object → Bool
  | .memoryPool pool => pool.requiresRelocation
  | _ => false

def Life.after (life : Life) (object : Object) : Call → Life
  | .importImage _ | .importMemory _ _ => { life with phase := .imported, everImported := true }
  | .relocate => { life with relocated := life.relocated || object.relocates }
  | .recreate _ => life
  | .finalize =>
    { life with
      phase := .down, relocated := false,
      relocatedBefore := life.relocatedBefore || life.relocated }
  | _ => { life with phase := .initialized }

/-- The objects of a program and those of its device. -/
structure Layer (ι : Type) where
  table : ObjectTable ObjectKind
  objects : ι → Object
  lives : ι → Life

def Layer.start {ι : Type} (objects : ι → Object) : Layer ι :=
  ⟨ObjectTable.empty, objects, fun _ => Life.start⟩

def Layer.next {ι : Type} [DecidableEq ι] (s : Layer ι) (call : ι × Call) : Option (Layer ι) :=
  if call.2.allowedIn (s.lives call.1).phase then
    (s.objects call.1).perform call.2 |>.map fun m =>
      let result := (m.run s.table).run
      { table := result.2
        objects := Function.update s.objects call.1 result.1
        lives := Function.update s.lives call.1
          ((s.lives call.1).after (s.objects call.1) call.2) }
  else none

end DeviceObjects

end DDFramework
