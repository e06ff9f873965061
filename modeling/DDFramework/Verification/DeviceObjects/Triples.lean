import Mathlib.Algebra.BigOperators.Group.List.Basic
import Mathlib.Tactic.Abel
import DDFramework.Model.DeviceObjects

/-! # What the classes own

Each class in turn: the objects that it holds, and what its functions make of them. -/

namespace DDFramework.DeviceObjects

open ObjectTable

abbrev Objects := Multiset (ObjectKind × Handle)

/-! ### Classes with one object -/

def WrapperClass.held (cls : WrapperClass) (w : Wrapper) : Objects := owned cls.kind w.handle

theorem WrapperClass.initialize_triple (cls : WrapperClass) :
    Triple 0 cls.initialize (fun w q => q = cls.held w) := by
  have h : Triple 0 ( Wrapper.initialize cls.kind) (fun w q => q = cls.held w) :=
    Triple.create_bind fun n _ => Triple.pure (add_zero _)
  cases cls <;> exact h

theorem Wrapper.finalize_triple (kind : ObjectKind) (clears : Bool) (w : Wrapper) :
    Triple (owned kind w.handle) (Wrapper.finalize kind clears w) (fun _ q => q = 0) := by
  rw [← add_zero (owned kind w.handle)]
  exact Triple.destroy_bind (Triple.pure rfl)

theorem WrapperClass.finalize_triple (cls : WrapperClass) (w : Wrapper) :
    Triple (cls.held w) (cls.finalize w) (fun _ q => q = 0) := by
  cases cls <;> exact Wrapper.finalize_triple _ _ w

/-! ### `Texture` -/

def Texture.held (texture : Texture) : Objects := owned .image texture.vkImage

theorem Texture.initialize_triple (texture : Texture) :
    Triple 0 texture.initialize (fun texture' q => texture'.isImport = texture.isImport ∧
      texture'.vkImage ≠ 0 ∧ q = texture'.held) :=
  Triple.create_bind fun _ hn => Triple.pure ⟨rfl, hn, add_zero _⟩

/-- An imported texture owns no image. -/
theorem Texture.finalize_triple (texture : Texture) :
    Triple (if texture.isImport then 0 else texture.held) texture.finalize
      (fun texture' q => texture' = texture ∧ q = 0) := by
  rw [Texture.finalize]
  cases h : texture.isImport with
  | true => exact Triple.pure ⟨rfl, rfl⟩
  | false =>
      change Triple texture.held _ _
      rw [← add_zero texture.held]
      exact Triple.destroy_bind (Triple.pure ⟨rfl, rfl⟩)

/-! ### `MemoryPool` -/

/-- The memory of a pool that has allocated it. -/
def MemoryPool.memory (pool : MemoryPool) : Objects :=
  owned .deviceMemory pool.vkMemory +
    if pool.isDeviceMemory then owned .deviceMemory pool.vkStagingMemory else 0

def MemoryPool.stagingBuffers (pool : MemoryPool) : Objects :=
  owned .buffer pool.vkStagingHostBuffer + owned .buffer pool.vkStagingDeviceBuffer

/-- Staging memory, and a relocation to make, come with memory of the device. -/
theorem MemoryPool.initialize_triple (info : MemoryPoolInfo) (memoryTypeBits : BitVec 32)
    (pool : MemoryPool) :
    Triple 0 ( pool.initialize info memoryTypeBits) (fun pool' q =>
      q = pool'.memory ∧ pool'.vkMemory ≠ 0 ∧ pool'.isImport = pool.isImport ∧
      (pool'.isDeviceMemory = false → pool'.vkStagingMemory = pool.vkStagingMemory) ∧
      pool'.vkStagingHostBuffer = pool.vkStagingHostBuffer ∧
      pool'.vkStagingDeviceBuffer = pool.vkStagingDeviceBuffer) := by
  rw [ MemoryPool.initialize]
  split
  · refine Triple.create_bind fun n hn => Triple.pure ⟨?_, hn, rfl, fun _ => rfl, rfl, rfl⟩
    simp [MemoryPool.memory]
  · refine Triple.create_bind fun n hn => Triple.create_bind fun n' _ =>
      Triple.pure ⟨?_, hn, rfl, nofun, rfl, rfl⟩
    simp [MemoryPool.memory, add_comm]

theorem MemoryPool.relocate_triple (pool : MemoryPool) (h : pool.requiresRelocation = true) :
    Triple 0 pool.relocateHostMemoryToDevice (fun pool' q =>
      q = pool'.stagingBuffers ∧ pool'.vkStagingHostBuffer ≠ 0 ∧
      pool' = { pool with
        vkStagingHostBuffer := pool'.vkStagingHostBuffer,
        vkStagingDeviceBuffer := pool'.vkStagingDeviceBuffer, requiresRelocation := false }) := by
  rw [MemoryPool.relocateHostMemoryToDevice, if_neg (by simp [h])]
  refine Triple.create_bind fun host hhost => Triple.create_bind fun device _ =>
    Triple.pure ⟨?_, hhost, rfl⟩
  simp [MemoryPool.stagingBuffers, add_comm]

theorem MemoryPool.finalize_triple (pool : MemoryPool) (h : pool.isImport = false) :
    Triple (owned .deviceMemory pool.vkMemory + owned .deviceMemory pool.vkStagingMemory +
        pool.stagingBuffers) pool.finalize
      (fun pool' q => q = 0 ∧ pool' = { pool with
        vkStagingDeviceBuffer := 0, vkMemory := 0, vkStagingMemory := 0 }) := by
  have hpre : owned .deviceMemory pool.vkMemory + owned .deviceMemory pool.vkStagingMemory +
        pool.stagingBuffers =
      owned .buffer pool.vkStagingDeviceBuffer + (owned .deviceMemory pool.vkMemory +
        (owned .buffer pool.vkStagingHostBuffer +
          (owned .deviceMemory pool.vkStagingMemory + 0))) := by
    rw [MemoryPool.stagingBuffers]
    abel
  rw [hpre, MemoryPool.finalize, if_neg (by simp [h])]
  exact Triple.destroy_bind <| Triple.destroy_bind <| Triple.destroy_bind <| Triple.destroy_bind <|
    Triple.pure ⟨rfl, rfl⟩

/-! ### `Shader` -/

def Shader.held (shader : Shader) : Objects := owned .pipeline shader.vkPipeline

theorem createShaderModule_triple (code : ShaderCode) :
    Triple 0 (createShaderModule code)
      (fun vkModule q => True ∧ q = owned .shaderModule vkModule) := by
  cases code with
  | none => exact Triple.pure ⟨trivial, rfl⟩
  | some words => exact Triple.create.weaken fun _ _ h => ⟨trivial, h.2⟩

theorem destroyShaderModule_triple (vkModule : Handle) :
    Triple (owned .shaderModule vkModule) (destroyShaderModule vkModule)
      (fun _ q => True ∧ q = 0) := by
  rw [destroyShaderModule]
  split
  · exact Triple.destroy.weaken fun _ _ h => ⟨trivial, h⟩
  next hnull => exact Triple.pure ⟨trivial, if_pos (not_not.mp hnull)⟩

/-- The modules of the stages are there until the pipeline is made. -/
theorem Shader.initialize_triple (codes : List ShaderCode) (pipelineType : BitVec 32) :
    Triple 0 ( Shader.initialize codes pipelineType) (fun shader q => q = shader.held) := by
  have hmodules := Triple.mapM codes fun code _ => createShaderModule_triple code
  simp only [List.map_const', List.sum_replicate, nsmul_zero] at hmodules
  refine hmodules.bind fun vkModules q hq => Triple.create_bind fun n _ => ?_
  have hdestroy := Triple.mapM vkModules fun vkModule _ => destroyShaderModule_triple vkModule
  rw [hq.2, add_comm]
  refine hdestroy.call fun _ q' hq' => Triple.pure ?_
  simp [hq'.2, Shader.held]

theorem Shader.finalize_triple (shader : Shader) :
    Triple shader.held shader.finalize (fun _ q => q = 0) := by
  rw [Shader.finalize, Shader.held, ← add_zero (owned _ _)]
  split
  · exact Triple.destroy_bind (Triple.pure rfl)
  next hnull =>
    rw [not_not.mp hnull]
    exact Triple.pure rfl

/-! ### `CommandBuffer` -/

def CommandBuffer.held (c : CommandBuffer) : Objects :=
  owned .commandBuffer c.vkCommandBuffer + (owned .buffer c.vkResourceBuffer +
    owned .deviceMemory c.vkResourceBufferMemory)

theorem CommandBuffer.initialize_triple :
    Triple 0 CommandBuffer.initialize (fun c q => q = c.held) := by
  refine Triple.create_bind fun n _ => Triple.create_bind fun n' _ => Triple.create_bind
    fun n'' _ => Triple.pure ?_
  simp only [CommandBuffer.held, add_zero]
  abel

theorem CommandBuffer.finalize_triple (c : CommandBuffer) :
    Triple c.held c.finalize (fun _ q => q = 0) := by
  rw [CommandBuffer.held, ← add_zero (owned ObjectKind.deviceMemory _)]
  exact Triple.destroy_bind <| Triple.destroy_bind <| Triple.destroy_bind <| Triple.pure rfl

/-! ### `DisplayBuffer` -/

def FrameSync.held (sync : FrameSync) : Objects :=
  owned .semaphore sync.queuePresentSemaphore + owned .fence sync.queueSubmitFence

def SwapchainFrame.held (frame : SwapchainFrame) : Objects := owned .imageView frame.target.handle

def DisplayBuffer.depthStencil (d : DisplayBuffer) : Objects :=
  owned .deviceMemory d.vkDepthStencilImageMemory + (d.depthStencilTexture.held +
    owned .imageView d.depthStencilTarget.handle)

def DisplayBuffer.held (d : DisplayBuffer) : Objects :=
  owned .swapchain d.vkSwapchain + ((d.swapchainFrames.map SwapchainFrame.held).sum +
    ((d.frameSyncs.map FrameSync.held).sum + (owned .fence d.vkImageAcquireFence +
      d.depthStencil)))

/-- The images of the swapchain are never those of the display buffer. -/
def SwapchainFrame.Imports (frame : SwapchainFrame) : Prop := frame.texture.isImport = true

theorem sum_map_zero {α : Type} (as : List α) : (as.map fun _ => (0 : Objects)).sum = 0 := by
  simp

theorem DisplayBuffer.createTargets_triple (given : SwapchainImages)
    (frames : List SwapchainFrame) :
    Triple 0 (createTargets given frames) (fun frames' q =>
      (∀ frame ∈ frames', frame.Imports) ∧ q = (frames'.map SwapchainFrame.held).sum) := by
  rw [createTargets, ← sum_map_zero (frames.zipWith _ _)]
  refine Triple.mapM _ fun frame hframe => ?_
  have himport : frame.Imports := by
    obtain ⟨i, hi, rfl⟩ := List.getElem_of_mem hframe
    rw [List.getElem_zipWith]
    rfl
  refine (WrapperClass.initialize_triple .colorTargetView).bind fun target q hq => ?_
  exact Triple.pure ⟨himport, hq⟩

theorem DisplayBuffer.destroyTargets_triple (frames : List SwapchainFrame)
    (h : ∀ frame ∈ frames, frame.Imports) :
    Triple (frames.map SwapchainFrame.held).sum (destroyTargets frames)
      (fun _ q => q = 0) := by
  have hloop : Triple (frames.map SwapchainFrame.held).sum (destroyTargets frames)
      (fun frames' q => (∀ frame ∈ frames', True) ∧ q = (frames'.map fun _ => 0).sum) := by
    refine Triple.mapM frames fun frame hframe => ?_
    refine (Wrapper.finalize_triple .imageView true frame.target).bind fun target q hq => ?_
    have htexture := frame.texture.finalize_triple
    rw [h frame hframe, if_pos rfl] at htexture
    rw [hq]
    refine htexture.bind fun texture q' hq' => ?_
    exact Triple.pure ⟨trivial, hq'.2⟩
  exact hloop.weaken fun frames' q hq => hq.2.trans (sum_map_zero frames')

theorem sum_held (syncs : List FrameSync) : (syncs.map FrameSync.held).sum =
    (syncs.map fun sync => owned .semaphore sync.queuePresentSemaphore).sum +
      (syncs.map fun sync => owned .fence sync.queueSubmitFence).sum := by
  induction syncs with
  | nil => rfl
  | cons sync syncs ih =>
      simp only [List.map_cons, List.sum_cons, ih, FrameSync.held]
      abel

/-- New semaphores for variables with or without fences. -/
theorem DisplayBuffer.createSemaphores_triple (fence : Handle → Objects)
    (syncs : List FrameSync) :
    Triple (syncs.map fun sync => fence sync.queueSubmitFence).sum (createSemaphores syncs)
      (fun syncs' q => q = (syncs'.map fun sync =>
        owned .semaphore sync.queuePresentSemaphore + fence sync.queueSubmitFence).sum) := by
  have hloop : Triple (syncs.map fun sync => fence sync.queueSubmitFence).sum
      (createSemaphores syncs) (fun syncs' q => (∀ sync ∈ syncs', True) ∧
        q = (syncs'.map fun sync =>
          owned .semaphore sync.queuePresentSemaphore + fence sync.queueSubmitFence).sum) := by
    refine Triple.mapM syncs fun sync _ => ?_
    exact Triple.create_bind fun n _ => Triple.pure ⟨trivial, rfl⟩
  exact hloop.weaken fun _ _ hq => hq.2

theorem DisplayBuffer.createFences_triple (syncs : List FrameSync) :
    Triple (syncs.map fun sync => owned .semaphore sync.queuePresentSemaphore).sum
      (createFences syncs) (fun syncs' q => q = (syncs'.map FrameSync.held).sum) := by
  have hloop : Triple (syncs.map fun sync => owned .semaphore sync.queuePresentSemaphore).sum
      (createFences syncs)
      (fun syncs' q => (∀ sync ∈ syncs', True) ∧ q = (syncs'.map FrameSync.held).sum) := by
    refine Triple.mapM syncs fun sync _ => ?_
    exact Triple.create_bind fun n _ => Triple.pure ⟨trivial, add_comm _ _⟩
  exact hloop.weaken fun _ _ hq => hq.2

/-- What the functions of the depth stencil keep. -/
structure DisplayBuffer.SameOthers (d d' : DisplayBuffer) : Prop where
  vkSwapchain : d'.vkSwapchain = d.vkSwapchain
  swapchainFrames : d'.swapchainFrames = d.swapchainFrames
  frameSyncs : d'.frameSyncs = d.frameSyncs
  vkImageAcquireFence : d'.vkImageAcquireFence = d.vkImageAcquireFence
  isImport : d'.depthStencilTexture.isImport = d.depthStencilTexture.isImport

theorem DisplayBuffer.createDepthStencil_triple (d : DisplayBuffer) :
    Triple 0 d.createDepthStencil (fun d' q => q = d'.depthStencil ∧
      d'.depthStencilMemory.isImport = true ∧ d.SameOthers d') := by
  refine Triple.create_bind fun memory _ => ?_
  rw [add_comm]
  refine d.depthStencilTexture.initialize_triple.call fun texture q hq => ?_
  rw [hq.2.2, ← zero_add (texture.held + _)]
  refine (WrapperClass.initialize_triple .depthStencilTargetView).call fun target q' hq' => ?_
  refine Triple.pure ⟨?_, rfl, rfl, rfl, rfl, rfl, hq.1⟩
  simp only [hq', depthStencil, WrapperClass.held, WrapperClass.kind]
  abel

theorem DisplayBuffer.destroyDepthStencil_triple (d : DisplayBuffer)
    (hmemory : d.depthStencilMemory.isImport = true)
    (htexture : d.depthStencilTexture.isImport = false) :
    Triple d.depthStencil d.destroyDepthStencil (fun d' q => q = 0 ∧ d.SameOthers d') := by
  have hpre : d.depthStencil = owned .imageView d.depthStencilTarget.handle +
      (d.depthStencilTexture.held + (owned .deviceMemory d.vkDepthStencilImageMemory + 0)) := by
    rw [depthStencil]
    abel
  have hfinalize := d.depthStencilTexture.finalize_triple
  rw [htexture, if_neg (by simp)] at hfinalize
  rw [hpre]
  refine (Wrapper.finalize_triple .imageView true d.depthStencilTarget).call fun target q hq => ?_
  rw [hq, zero_add]
  refine hfinalize.call fun texture q' hq' => ?_
  rw [hq'.2, zero_add, MemoryPool.finalize, if_pos hmemory, pure_bind]
  refine Triple.destroy_bind (Triple.pure ⟨rfl, rfl, rfl, rfl, rfl, ?_⟩)
  rw [hq'.1]

/-- A display buffer that is ready for its calls. -/
structure DisplayBuffer.Ready (d : DisplayBuffer) : Prop where
  swapchain : d.vkSwapchain ≠ 0
  memory : d.depthStencilMemory.isImport = true
  frames : ∀ frame ∈ d.swapchainFrames, frame.Imports

theorem DisplayBuffer.initialize_triple (surface : Handle) (given : SwapchainImages)
    (d : DisplayBuffer) :
    Triple 0 ( d.initialize surface given) (fun d' q => q = d'.held ∧ d'.Ready ∧
      d'.depthStencilTexture.isImport = d.depthStencilTexture.isImport) := by
  refine Triple.create_bind fun swapchain hswapchain => ?_
  rw [add_comm]
  refine (createTargets_triple given d.swapchainFrames).call fun frames q hq => ?_
  rw [hq.2, ← zero_add (_ + _), ← sum_map_zero d.frameSyncs]
  refine (createSemaphores_triple (fun _ => 0) d.frameSyncs).call fun syncs q' hq' => ?_
  refine Triple.create_bind fun fence _ => ?_
  simp only [hq', add_zero]
  rw [add_left_comm]
  refine (createFences_triple syncs).call fun syncs' q'' hq'' => ?_
  rw [hq'', ← zero_add (_ + _)]
  refine ((createDepthStencil_triple _).frame).weaken fun d' q₃ hq₃ => ?_
  obtain ⟨own, ⟨hown, hmemory, hsame⟩, rfl⟩ := hq₃
  refine ⟨?_, ⟨hsame.vkSwapchain ▸ hswapchain, hmemory, ?_⟩, hsame.isImport⟩
  · simp only [DisplayBuffer.held, hown, hsame.vkSwapchain, hsame.swapchainFrames,
      hsame.frameSyncs, hsame.vkImageAcquireFence]
    abel
  · rw [hsame.swapchainFrames]
    exact hq.1

/-- The swapchain stays. -/
theorem DisplayBuffer.finalize_triple (d : DisplayBuffer) (h : d.Ready)
    (htexture : d.depthStencilTexture.isImport = false) :
    Triple d.held d.finalize (fun d' q => q = owned .swapchain d.vkSwapchain ∧
      d'.depthStencilTexture.isImport = false) := by
  have hpre : d.held = owned .fence d.vkImageAcquireFence +
      ((d.frameSyncs.map FrameSync.held).sum + ((d.swapchainFrames.map SwapchainFrame.held).sum +
        (d.depthStencil + owned .swapchain d.vkSwapchain))) := by
    rw [held]
    abel
  have hsyncs : Triple (d.frameSyncs.map FrameSync.held).sum
      (d.frameSyncs.mapM fun sync => do
        destroy ObjectKind.semaphore sync.queuePresentSemaphore
        destroy ObjectKind.fence sync.queueSubmitFence)
      (fun units q => (∀ u ∈ units, True) ∧ q = (units.map fun _ => 0).sum) := by
    refine Triple.mapM d.frameSyncs fun sync _ => ?_
    exact Triple.destroy_bind (Triple.destroy.weaken fun _ _ hq => ⟨trivial, hq⟩)
  rw [hpre]
  refine Triple.destroy_bind (hsyncs.call fun units q hq => ?_)
  rw [hq.2, sum_map_zero, zero_add]
  refine (destroyTargets_triple d.swapchainFrames h.frames).call fun frames q' hq' => ?_
  rw [hq', zero_add]
  refine (destroyDepthStencil_triple { d with swapchainFrames := frames } h.memory htexture).call
    fun d' q'' hq'' => Triple.pure ⟨?_, hq''.2.isImport.trans htexture⟩
  rw [hq''.1, zero_add]

theorem DisplayBuffer.recreate_triple (given : SwapchainImages) (d : DisplayBuffer) (h : d.Ready)
    (htexture : d.depthStencilTexture.isImport = false) :
    Triple d.held (d.recreate given) (fun d' q => q = d'.held ∧ d'.Ready ∧
      d'.depthStencilTexture.isImport = false) := by
  have hsemaphores : Triple
      (d.frameSyncs.map fun sync => owned .semaphore sync.queuePresentSemaphore).sum
      (d.frameSyncs.mapM fun sync => destroy ObjectKind.semaphore sync.queuePresentSemaphore)
      (fun units q => (∀ u ∈ units, True) ∧ q = (units.map fun _ => 0).sum) := by
    refine Triple.mapM d.frameSyncs fun sync _ => ?_
    exact Triple.destroy.weaken fun _ _ hq => ⟨trivial, hq⟩
  refine Triple.create_bind fun swapchain hswapchain => ?_
  rw [held, add_left_comm]
  refine Triple.destroy_bind ?_
  rw [add_left_comm]
  refine (destroyTargets_triple d.swapchainFrames h.frames).call fun frames q hq => ?_
  rw [hq]
  refine (createTargets_triple given frames).call fun frames' q' hq' => ?_
  rw [hq'.2, sum_held, add_left_comm (owned _ _), add_assoc, add_left_comm]
  refine hsemaphores.call fun units q'' hq'' => ?_
  rw [hq''.2, sum_map_zero, zero_add, add_left_comm]
  refine (createSemaphores_triple (owned .fence) d.frameSyncs).call fun syncs q₃ hq₃ => ?_
  have hreorder : ∀ swapchainView fence : Objects, q₃ + ((frames'.map SwapchainFrame.held).sum +
      (swapchainView + (fence + d.depthStencil))) = d.depthStencil +
        (swapchainView + ((frames'.map SwapchainFrame.held).sum + (q₃ + fence))) := by
    intro swapchainView fence
    abel
  rw [hreorder]
  refine (destroyDepthStencil_triple { d with
    vkSwapchain := swapchain, swapchainFrames := frames', frameSyncs := syncs,
    currentFrame := 0, currentTargetIndex := given.targetIndex } h.memory htexture).call
    fun d₁ q₄ hq₄ => ?_
  rw [hq₄.1]
  refine ((createDepthStencil_triple d₁).frame).weaken fun d₂ q₅ hq₅ => ?_
  obtain ⟨own, ⟨hown, hmemory, hsame⟩, rfl⟩ := hq₅
  have hkept := hq₄.2
  have hne : d₂.vkSwapchain ≠ 0 := hsame.vkSwapchain.trans hkept.vkSwapchain ▸ hswapchain
  refine ⟨?_, ⟨hne, hmemory, ?_⟩, (hsame.isImport.trans hkept.isImport).trans htexture⟩
  · simp only [held, hown, hsame.vkSwapchain, hkept.vkSwapchain, hsame.swapchainFrames,
      hkept.swapchainFrames, hsame.frameSyncs, hkept.frameSyncs, hsame.vkImageAcquireFence,
      hkept.vkImageAcquireFence, hq₃]
    rw [add_comm]
    simp only [add_assoc]
    rfl
  · rw [hsame.swapchainFrames, hkept.swapchainFrames]
    exact hq'.1

end DDFramework.DeviceObjects
