import DDFramework.Verification.CommandBuffer.ShaderResources
import DDFramework.Verification.CommandBuffer.Simulation

/-! # Executing a recording

A device that executes what the calls recorded shows what the calls ask for. -/

namespace DDFramework

open Vulkan RecordingEvent

namespace Recording

variable {memory : BitVec 64 → ResourceBuffer} {s t : Recording} {p q : Immediate}
  {d : Device ResourceBuffer}

/-! ### Targets -/

theorem copyColorTargets_targets {colorTargets : List (Option TargetView)} {n : ℕ}
    {targets : Fin 8 → Option TargetView}
    (h : s.copyColorTargets colorTargets n = .ok { s with colorTargets := targets }) :
    targets = fun i : Fin 8 =>
      if (i : ℕ) < n then (colorTargets[(i : ℕ)]?).join else s.colorTargets i := by
  induction n generalizing targets with
  | zero =>
      have heq := congrArg (fun u : Recording => u.colorTargets) (Except.ok.inj h)
      funext i
      exact (congrFun heq i).symm
  | succ n ih =>
      obtain ⟨u, hu, h⟩ := bind_eq_ok_iff.mp h
      obtain ⟨before, rfl⟩ := copyColorTargets_eq_ok hu
      rw [ih hu] at h
      split at h
      · cases h
      next target htarget =>
        split at h
        · next hn =>
          have heq := congrArg (fun u : Recording => u.colorTargets) (Except.ok.inj h)
          funext i
          refine (congrFun heq i).symm.trans ?_
          by_cases hi : i = ⟨n, hn⟩
          · subst hi
            simp [htarget]
          · have hne : (i : ℕ) ≠ n := fun hval => hi (Fin.ext hval)
            have hlt : (i : ℕ) < n + 1 ↔ (i : ℕ) < n := by omega
            simp [Function.update_of_ne hi, hlt]
        · cases h

theorem Shows.setRenderTargets (h : Shows memory s p) {colorTargetCount : Word}
    {colorTargets : List (Option TargetView)} {depthStencilTarget : Option TargetView}
    (hset : s.setRenderTargets colorTargetCount colorTargets depthStencilTarget = .ok t) :
    Shows memory t (p.setRenderTargets colorTargetCount colorTargets depthStencilTarget) := by
  obtain ⟨-, -, targets, hcopy, rfl⟩ := setRenderTargets_eq_ok hset
  refine h.congr rfl ?_ rfl rfl rfl rfl rfl rfl
  change { p.toFrame with
    inPass := false
    colorTargets := fun i => if (i : ℕ) < colorTargetCount.toInt.toNat then
      (colorTargets[(i : ℕ)]?).join else p.toFrame.colorTargets i
    depthStencilTarget := depthStencilTarget } = _
  rw [h.frame, copyColorTargets_targets hcopy]
  simp [Recording.frame]

/-! ### Draws -/

theorem Matches.emit_topology (h : Matches memory d s p) (topology : Word) :
    Matches memory { d with
        dynamicStates := { d.dynamicStates with primitiveTopology := some topology } }
      (s.emit (.setDynamicState (.primitiveTopology topology)))
      { p with primitiveTopology := some topology } := by
  refine h.emit rfl rfl rfl h.outputs rfl ?_ rfl rfl
  have hdynamic : d.dynamicStates = p.dynamicStates := congrArg Bindings.dynamicStates h.bindings
  change { d.toBindings with
    dynamicStates := { d.dynamicStates with primitiveTopology := some topology } } = _
  rw [hdynamic, h.bindings]
  rfl

theorem Matches.emit_draw {c : Command} {output : Output ResourceBuffer} (h : Matches memory d s p)
    (hexecute : d.execute memory c = some (d.put output)) :
    Matches memory (d.put output) (s.emit c) (p.put output) :=
  h.emit hexecute rfl rfl (congrArg (· ++ [output]) h.outputs) rfl h.bindings rfl rfl

theorem UpToDate.beginRenderingIfNotRendering (h : UpToDate memory s p) :
    UpToDate memory s.beginRenderingIfNotRendering p.enterPass where
  shows := h.shows.beginRenderingIfNotRendering
  needResourceUpdate := by
    rw [quiets_beginRenderingIfNotRendering.sameTables.needResourceUpdate]
    exact h.needResourceUpdate

theorem Shows.drawVertices (h : Shows memory s p)
    {topology vertexCount instanceCount baseVertex baseInstance : Word}
    (hdraw : s.drawVertices topology vertexCount instanceCount baseVertex baseInstance = .ok t)
    (hcovers : Covers memory t) :
    Shows memory t (p.drawVertices topology vertexCount instanceCount baseVertex baseInstance) := by
  obtain ⟨u, hupdate, hdraw⟩ := bind_eq_ok_iff.mp hdraw
  rw [← Except.ok.inj hdraw] at hcovers ⊢
  have hsteps : Quiets u (u.beginRenderingIfNotRendering.emit
      (.setDynamicState (.primitiveTopology topology))) :=
    quiets_beginRenderingIfNotRendering.emit rfl
  have hu : Covers memory u := hcovers.of_isPrefix
    (hsteps.sameSlots.history.trans (List.prefix_append _ _)) hsteps.sameSlots.resourceBufferAddress
  have hready := (h.updateResourceBufferIfNecessary hupdate hu).beginRenderingIfNotRendering
  obtain ⟨d, hd⟩ := hready.shows
  have hopen : d.isRendering = true := hd.isRendering.trans beginRenderingIfNotRendering_isRendering
  have htopology := hd.emit_topology topology
  refine ⟨_, htopology.emit_draw ?_⟩
  rw [← htopology.drawState_eq hready.needResourceUpdate]
  exact if_pos hopen

theorem Shows.drawIndices (h : Shows memory s p) {topology indexFormat : Word} {indexBuffer : ℕ}
    {indexCount instanceCount baseIndex baseInstance : Word}
    (hdraw : s.drawIndices topology indexFormat indexBuffer indexCount instanceCount baseIndex
      baseInstance = .ok t)
    (hcovers : Covers memory t) :
    Shows memory t (p.drawIndices topology indexFormat indexBuffer indexCount instanceCount
      baseIndex baseInstance) := by
  obtain ⟨u, hupdate, hdraw⟩ := bind_eq_ok_iff.mp hdraw
  rw [← Except.ok.inj hdraw] at hcovers ⊢
  let handle := (u.beginRenderingIfNotRendering.buffers indexBuffer).buffer
  have hsteps : Quiets u ((u.beginRenderingIfNotRendering.emit
      (.bindIndexBuffer handle 0 indexFormat)).emit
        (.setDynamicState (.primitiveTopology topology))) :=
    (quiets_beginRenderingIfNotRendering.emit rfl).emit rfl
  have hu : Covers memory u := hcovers.of_isPrefix
    (hsteps.sameSlots.history.trans (List.prefix_append _ _)) hsteps.sameSlots.resourceBufferAddress
  have hready := ((h.relocateIfRequired indexBuffer).updateResourceBufferIfNecessary hupdate
    hu).beginRenderingIfNotRendering
  obtain ⟨d, hd⟩ := hready.shows
  have hopen : d.isRendering = true := hd.isRendering.trans beginRenderingIfNotRendering_isRendering
  have hhandle : handle = (p.useBuffer indexBuffer).enterPass.objects.buffer indexBuffer :=
    congrArg (fun f : Frame => f.objects.buffer indexBuffer) hd.frame.symm
  have hindex := hd.emit (c := .bindIndexBuffer handle 0 indexFormat)
    (e := { d with indexBuffer := some ⟨handle, 0, indexFormat⟩ }) rfl rfl rfl hd.outputs rfl
    hd.bindings rfl rfl
  have htopology := hindex.emit_topology topology
  refine ⟨_, htopology.emit_draw ?_⟩
  have hstate := htopology.drawState_eq hready.needResourceUpdate
  rw [← hstate]
  change (if d.isRendering then some (Device.put (.drawIndexed indexCount instanceCount baseIndex 0
    baseInstance (some ⟨handle, 0, indexFormat⟩) _) _) else none) = _
  rw [if_pos hopen, hhandle]

/-! ### Command states -/

theorem Shows.setColorBlendState (h : Shows memory s p) (state : ColorBlendCmdState) :
    Shows memory (s.setColorBlendState state) (p.setColorBlendState state) :=
  h.setDynamicStates _ rfl rfl rfl rfl

theorem Shows.setDepthStencilState (h : Shows memory s p) (state : DepthStencilCmdState) :
    Shows memory (s.setDepthStencilState state) (p.setDepthStencilState state) :=
  h.setDynamicStates _ rfl rfl rfl rfl

theorem Shows.setRasterizerState (h : Shows memory s p) (state : RasterizerCmdState) :
    Shows memory (s.setRasterizerState state) (p.setRasterizerState state) :=
  h.setDynamicStates _ rfl rfl rfl rfl

theorem Shows.setVertexState (h : Shows memory s p) (state : VertexCmdState) :
    Shows memory (s.setVertexState state) (p.setVertexState state) :=
  h.setDynamicStates _ rfl rfl rfl rfl

/-! ### Clears and bindings -/

theorem Shows.image_eq (h : Shows memory s p) (texture : ℕ) :
    (s.textures texture).image = p.objects.image texture :=
  congrArg (fun f : Frame => f.objects.image texture) h.frame.symm

theorem Shows.buffer_eq (h : Shows memory s p) (buffer : ℕ) :
    (s.buffers buffer).buffer = p.objects.buffer buffer :=
  congrArg (fun f : Frame => f.objects.buffer buffer) h.frame.symm

theorem Shows.clearColorTarget (h : Shows memory s p) (colorTarget : TargetView)
    (color : ClearColorValue) (subRange : ImageSubresourceRange) :
    Shows memory (s.clearColorTarget colorTarget color subRange)
      (p.endPass.put (.clearColorImage (p.objects.image colorTarget.texture) color subRange)) := by
  have hended := h.endRenderingIfRendering
  have hcleared := hended.emit_put
    (.clearColorImage (p.objects.image colorTarget.texture) color subRange)
    (c := .clearColorImage (s.endRenderingIfRendering.textures colorTarget.texture).image
      imageLayoutGeneral color subRange) endRenderingIfRendering_isRendering fun d hd => by
        rw [Device.execute, if_neg (by simp [hd]), hended.image_eq]
        rfl
  exact hcleared.setTextureStateTransition colorTarget.texture
    (clearBarrierState pipelineStageColorAttachmentOutputBit accessColorAttachmentWriteBit)
    imageAspectColorBit fun hopen => absurd hopen (by simp)

theorem Shows.clearDepthStencilTarget (h : Shows memory s p) (target : TargetView)
    (clearValue : ClearDepthStencilValue) (subRange : ImageSubresourceRange) :
    Shows memory (s.clearDepthStencilTarget target clearValue subRange)
      (p.endPass.put
        (.clearDepthStencilImage (p.objects.image target.texture) clearValue subRange)) := by
  have hended := h.endRenderingIfRendering
  have hcleared := hended.emit_put
    (.clearDepthStencilImage (p.objects.image target.texture) clearValue subRange)
    (c := .clearDepthStencilImage (s.endRenderingIfRendering.textures target.texture).image
      imageLayoutGeneral clearValue subRange) endRenderingIfRendering_isRendering fun d hd => by
        rw [Device.execute, if_neg (by simp [hd]), hended.image_eq]
        rfl
  exact hcleared.setTextureStateTransition target.texture
    (clearBarrierState (pipelineStageEarlyFragmentTestsBit ||| pipelineStageLateFragmentTestsBit)
      accessDepthStencilAttachmentWriteBit) (imageAspectDepthBit ||| imageAspectStencilBit)
    fun hopen => absurd hopen (by simp)

theorem Shows.setVertexBuffer (h : Shows memory s p) (binding : Word) (vertexBuffer : ℕ)
    (stride size : BitVec 64) :
    Shows memory (s.setVertexBuffer binding vertexBuffer stride size)
      (p.perform (.setVertexBuffer binding vertexBuffer stride size)) := by
  have hused := h.relocateIfRequired vertexBuffer
  refine hused.bind (fun b => { b with
    vertexBuffers := Function.update b.vertexBuffers binding (some
      ⟨((s.relocateIfRequired vertexBuffer).buffers vertexBuffer).buffer, 0, size, stride⟩) })
    (fun _ => rfl) rfl rfl ?_ rfl
  rw [hused.buffer_eq]
  rfl

theorem Shows.setDescriptorPool (h : Shows memory s p) {descriptorPool : DescriptorPool}
    (hset : s.setDescriptorPool descriptorPool = .ok t) :
    Shows memory t (p.setDescriptorPool descriptorPool) := by
  have hbind (set : Word) {q : Immediate} (houtputs : q.outputs = p.outputs)
      (hframe : q.toFrame = p.toFrame)
      (hbindings : q.bindings = { p.bindings with
        descriptorSets := Function.update p.descriptorSets set
          (some descriptorPool.descriptorSet) }) (hresources : q.resources = p.resources) :
      Shows memory (s.emit (.bindDescriptorSets set descriptorPool.descriptorSet)) q :=
    h.bind (fun b => { b with
      descriptorSets := Function.update b.descriptorSets set
        (some descriptorPool.descriptorSet) }) (fun _ => rfl) houtputs hframe hbindings hresources
  unfold Recording.setDescriptorPool at hset
  unfold Immediate.setDescriptorPool
  split at hset
  next himages =>
    rw [← Except.ok.inj hset, if_pos himages]
    exact hbind 0 rfl rfl rfl rfl
  next himages =>
    split at hset
    · rw [← Except.ok.inj hset, if_neg himages]
      exact hbind 1 rfl rfl rfl rfl
    · cases hset

theorem uniformBuffers_update_iff {table : ResourceBuffer} {i : Fin 14} {gpuAddress : BitVec 64} :
    table.uniformBuffers i = gpuAddress ↔
      { table with uniformBuffers := Function.update table.uniformBuffers i gpuAddress } =
        table := by
  constructor
  · intro h
    rw [← h, Function.update_eq_self]
  · intro h
    exact (Function.update_eq_self_iff.mp (congrArg ResourceBuffer.uniformBuffers h)).symm

theorem storageBuffers_update_iff {table : ResourceBuffer} {i : Fin 16} {gpuAddress : BitVec 64} :
    table.storageBuffers i = gpuAddress ↔
      { table with storageBuffers := Function.update table.storageBuffers i gpuAddress } =
        table := by
  constructor
  · intro h
    rw [← h, Function.update_eq_self]
  · intro h
    exact (Function.update_eq_self_iff.mp (congrArg ResourceBuffer.storageBuffers h)).symm

theorem textureIds_update_iff {table : ResourceBuffer} {i : Fin 32} {texture sampler : Word} :
    table.textureIds i = texture ∧ table.samplerIds i = sampler ↔
      { table with
        textureIds := Function.update table.textureIds i texture
        samplerIds := Function.update table.samplerIds i sampler } = table := by
  constructor
  · intro h
    rw [← h.1, ← h.2, Function.update_eq_self, Function.update_eq_self]
  · intro h
    exact ⟨(Function.update_eq_self_iff.mp (congrArg ResourceBuffer.textureIds h)).symm,
      (Function.update_eq_self_iff.mp (congrArg ResourceBuffer.samplerIds h)).symm⟩

/-! ### Calls -/

/-- The call puts no barrier into a scope. -/
def PutsBarriersOutside (s : Recording) : Call → Prop
  | .setBufferStateTransition buffer _ =>
    s.isRendering = true → (s.buffers buffer).requiresRelocation = true
  | .setTextureStateTransition _ barrierState _ =>
    s.isRendering = true → barrierState.barrier.dstStageMask = pipelineStageBottomOfPipeBit
  | _ => True

theorem Shows.setBufferStateTransition (h : Shows memory s p) (buffer : ℕ)
    (barrierState : MemoryBarrier)
    (houtside : s.isRendering = true → (s.buffers buffer).requiresRelocation = true) :
    Shows memory (s.setBufferStateTransition buffer barrierState) (p.useBuffer buffer) := by
  have hclosed : (s.relocateIfRequired buffer).isRendering = false := by
    by_cases hrequired : (s.buffers buffer).requiresRelocation = true
    · rw [relocateIfRequired_of_set hrequired]
      simp
    · rw [relocateIfRequired_of_clear (Bool.eq_false_iff.mpr hrequired)]
      exact Bool.eq_false_iff.mpr fun hopen => hrequired (houtside hopen)
  exact (h.relocateIfRequired buffer).emit_silent fun d hd => by
    rw [Device.execute, if_neg (by simp [hd, hclosed])]

/-- A call that returns and puts no barrier into a scope is shown if the state before it is. -/
theorem Shows.call {c : Call} (h : Shows memory s p) (hcall : s.call c = .ok t)
    (houtside : s.PutsBarriersOutside c) (hcovers : Covers memory t) :
    Shows memory t (p.perform c) := by
  have hentered := h.enter c
  -- The calls that cannot fail.
  have returns {u : Recording} (hu : .ok u = (.ok t : Except Fault Recording))
      (hshows : Shows memory u (p.perform c)) : Shows memory t (p.perform c) :=
    Except.ok.inj hu ▸ hshows
  cases c with
  | clearColorTarget => exact returns hcall (hentered.clearColorTarget ..)
  | clearDepthStencilTarget => exact returns hcall (hentered.clearDepthStencilTarget ..)
  | registerFastClearColor colorValue =>
      refine returns hcall (hentered.congr rfl ?_ rfl rfl rfl rfl rfl rfl)
      change { p.toFrame with clearColor := some colorValue } = _
      rw [h.frame]
      rfl
  | registerFastClearDepthStencil value =>
      refine returns hcall (hentered.congr rfl ?_ rfl rfl rfl rfl rfl rfl)
      change { p.toFrame with clearDepthStencil := some value } = _
      rw [h.frame]
      rfl
  | draw => exact hentered.drawVertices hcall hcovers
  | drawIndexed => exact hentered.drawIndices hcall hcovers
  | drawInstanced => exact hentered.drawVertices hcall hcovers
  | drawInstancedIndexed => exact hentered.drawIndices hcall hcovers
  | setShader shader =>
      refine returns hcall (hentered.bind (fun b => { b with
        pipelines := Function.update b.pipelines shader.getPipelineBindPoint
          (some shader.pipeline) }) ?_ rfl rfl rfl rfl)
      exact fun _ => rfl
  | setPipelineState state =>
      exact returns hcall ((((hentered.setColorBlendState _).setDepthStencilState
        _).setRasterizerState _).setVertexState _)
  | setColorBlendState => exact returns hcall (hentered.setColorBlendState _)
  | setDepthStencilState => exact returns hcall (hentered.setDepthStencilState _)
  | setRasterizerState => exact returns hcall (hentered.setRasterizerState _)
  | setVertexState => exact returns hcall (hentered.setVertexState _)
  | setViewports => exact returns hcall (hentered.setDynamicStates _ rfl rfl rfl rfl)
  | setScissors => exact returns hcall (hentered.setDynamicStates _ rfl rfl rfl rfl)
  | setViewportScissors => exact returns hcall (hentered.setDynamicStates _ rfl rfl rfl rfl)
  | setRenderTargets => exact hentered.setRenderTargets hcall
  | setVertexBuffer => exact returns hcall (hentered.setVertexBuffer ..)
  | setBufferStateTransition buffer barrierState =>
      exact returns hcall (hentered.setBufferStateTransition buffer barrierState houtside)
  | setTextureStateTransition texture barrierState aspectMask =>
      exact returns hcall
        (hentered.setTextureStateTransition texture barrierState aspectMask houtside)
  | setDescriptorPool => exact hentered.setDescriptorPool hcall
  | setUniformBuffer location shaderStage gpuAddress =>
      exact hentered.setResource (fun i table => { table with
        uniformBuffers := Function.update table.uniformBuffers i gpuAddress })
        (fun _ _ => uniformBuffers_update_iff) hcall
  | setStorageBuffer location shaderStage gpuAddress =>
      exact hentered.setResource (fun i table => { table with
        storageBuffers := Function.update table.storageBuffers i gpuAddress })
        (fun _ _ => storageBuffers_update_iff) hcall
  | setTextureAndSampler location shaderStage textureSlot samplerSlot =>
      exact hentered.setResource (fun i table => { table with
        textureIds := Function.update table.textureIds i textureSlot
        samplerIds := Function.update table.samplerIds i samplerSlot })
        (fun _ _ => textureIds_update_iff) hcall
  | setRenderDimensions width height =>
      refine returns hcall (hentered.congr rfl ?_ rfl rfl rfl rfl rfl rfl)
      change { p.toFrame with
        renderWidth := width.setWidth 16
        renderHeight := height.setWidth 16 } = _
      rw [h.frame]
      rfl

/-! ### Refused barriers -/

/-- The device does not take the recorded commands. -/
def Refused (memory : BitVec 64 → ResourceBuffer) (s : Recording) : Prop :=
  Machine.run (Device.next memory) .idle (commands s.history) = none

theorem Refused.of_isPrefix (h : Refused memory s) (hhistory : s.history <+: t.history) :
    Refused memory t := by
  obtain ⟨later, hlater⟩ := hhistory
  rw [Refused, ← hlater, commands_append, Machine.run_append, h]
  rfl

theorem Shows.refused {c : Command} (h : Shows memory s p) (hopen : s.isRendering = true)
    (hrefuses : ∀ d : Device ResourceBuffer, d.isRendering = true → d.execute memory c = none)
    (hhistory : commands t.history = commands s.history ++ [c]) : Refused memory t := by
  obtain ⟨d, h⟩ := h
  rw [Refused, hhistory, Machine.run_append, h.executed]
  exact h.run_singleton.trans (hrefuses d (h.isRendering.trans hopen))

/-- A call that puts a barrier into a scope is refused. -/
theorem Shows.refused_call {c : Call} (h : Shows memory s p) (hcall : s.call c = .ok t)
    (hinside : ¬ s.PutsBarriersOutside c) : Refused memory t := by
  have hentered := h.enter c
  cases c with
  | setBufferStateTransition buffer barrierState =>
      obtain ⟨hopen, hclear⟩ := Classical.not_imp.mp hinside
      rw [← Except.ok.inj hcall]
      refine hentered.refused (c := .bufferBarrier barrierState (.buffer (s.buffers buffer).buffer))
        hopen (fun d hd => ?_) ?_
      · rw [Device.execute, if_pos hd]
      · have hkept : (s.enter (.setBufferStateTransition buffer barrierState)).relocateIfRequired
            buffer = s.enter (.setBufferStateTransition buffer barrierState) :=
          relocateIfRequired_of_clear (Bool.eq_false_iff.mpr hclear)
        rw [Recording.setBufferStateTransition, hkept]
        exact commands_append _ _
  | setTextureStateTransition texture barrierState aspectMask =>
      obtain ⟨hopen, hmask⟩ := Classical.not_imp.mp hinside
      rw [← Except.ok.inj hcall]
      refine hentered.refused (c := .imageBarrier barrierState.barrier barrierState.srcLayout
        barrierState.dstLayout (s.textures texture).image aspectMask) hopen (fun d hd => ?_) ?_
      · rw [Device.execute, if_pos hd]
      · rw [Recording.setTextureStateTransition, if_neg hmask]
        exact commands_append _ _
  | _ => exact absurd trivial hinside

/-! ### The memory after a recording -/

/-- The slots after the copies of a history. -/
def store (slots : BitVec 32 → ResourceBuffer) : RecordingEvent → BitVec 32 → ResourceBuffer
  | .write slot table => Function.update slots slot table
  | _ => slots

theorem foldl_store_concat (slots : BitVec 32 → ResourceBuffer) (t : List RecordingEvent)
    (e : RecordingEvent) : (t ++ [e]).foldl store slots = store (t.foldl store slots) e := by
  rw [List.foldl_append]
  rfl

/-- A slot that is written once holds what was written. -/
theorem foldl_store_of_mem {slots : BitVec 32 → ResourceBuffer} {t : List RecordingEvent}
    (hnodup : (writes t).Nodup) {slot : BitVec 32} {table : ResourceBuffer}
    (hmem : .write slot table ∈ t) : t.foldl store slots slot = table := by
  induction t using List.reverseRecOn with
  | nil => cases hmem
  | append_singleton t e ih =>
      rw [foldl_store_concat]
      rw [writes_append] at hnodup
      have hbefore (h : .write slot table ∈ t) := ih hnodup.of_append_left h
      rcases List.mem_append.mp hmem with hold | hnew
      · cases e with
        | write other later =>
            have hslot : slot ∈ writes t :=
              List.mem_filterMap.mpr ⟨.write slot table, hold, rfl⟩
            have hne : slot ≠ other := fun heq =>
              List.disjoint_of_nodup_append hnodup hslot (heq ▸ List.mem_singleton_self other)
            exact (Function.update_of_ne hne ..).trans (hbefore hold)
        | call c => exact hbefore hold
        | command c isRendering => exact hbefore hold
      · rw [← List.mem_singleton.mp hnew]
        exact Function.update_self ..

/-- The mapped memory holds what was copied into it since the recording began. -/
def Stored (slots : BitVec 32 → ResourceBuffer) (s : Recording) : Prop :=
  s.slots = s.history.foldl store slots

variable {slots : BitVec 32 → ResourceBuffer}

theorem Stored.append {e : RecordingEvent} (h : Stored slots s) (hslots : t.slots = store s.slots e)
    (hhistory : t.history = s.history ++ [e]) : Stored slots t := by
  rw [Stored, hhistory, foldl_store_concat, ← h]
  exact hslots

theorem Stored.quiets (h : Stored slots s) (hsteps : Quiets s t) : Stored slots t := by
  induction hsteps with
  | refl => exact h
  | tail _ hstep ih =>
      cases hstep with
      | plain => exact ih.append rfl rfl
      | outside => exact ih.append rfl rfl
      | endRendering => exact ih.append rfl rfl
      | beginRendering => exact ih.append rfl rfl
      | adjust => exact ih

theorem Stored.flush (h : Stored slots s) (block : UpdateBlock) :
    Stored slots (s.flush block) := by
  have hcopied : Stored slots (s.copyResources block.stage) := h.append rfl rfl
  exact hcopied.append rfl rfl

theorem Stored.call {c : Call} (h : Stored slots s) (hcall : s.call c = .ok t) :
    Stored slots t := by
  have hentered : Stored slots (s.enter c) := h.append rfl rfl
  cases call_effect hcall with
  | quiet _ hsteps => exact hentered.quiets hsteps
  | setResources => exact hentered
  | setRenderTargets => exact hentered
  | draw _ hrelocation hupdate hsteps =>
      have hupdated := updateResourceBufferIfNecessary_keeps (fun block hs => hs.flush block)
        (hentered.quiets hrelocation) hupdate
      exact (hupdated.quiets hsteps).append rfl rfl

theorem covers_of_record {calls : List Call} (h : s.record calls = .ok t)
    (hwrites : (writes t.history).length ≤ 2 ^ 32)
    (hmemory : ∀ slot, memory (slotAddress t.resourceBufferAddress slot) = t.slots slot) :
    Covers memory t := by
  have hbegun : Stored s.slots ({ s with history := [] } : Recording).beginCommandBuffer := rfl
  have hstored : Stored s.slots t := foldlM_invariant Stored.call hbegun h
  intro slot table hmem
  rw [hmemory, hstored]
  exact foldl_store_of_mem ((inOrder_of_record h).nodup hwrites) hmem

/-! ### Recordings -/

theorem shows_begin (h : s.isRendering = false) :
    Shows memory ({ s with history := [] } : Recording).beginCommandBuffer s.immediate := by
  refine ⟨{ (Device.idle : Device ResourceBuffer) with isExecuting := true }, rfl, rfl, h.symm, rfl,
    rfl, rfl, ?_⟩
  have hresources (stage : Fin 6) : s.immediate.resources (stageBit stage) =
      if s.needResourceUpdate stage = true then some .defaults else none := by
    have hiff : (∃ other, stageBit stage = stageBit other ∧ s.needResourceUpdate other = true) ↔
        s.needResourceUpdate stage = true := by
      constructor
      · intro hwaits
        obtain ⟨other, hbit, hneed⟩ := hwaits
        exact stageBit_injective hbit ▸ hneed
      · exact fun hneed => ⟨stage, rfl, hneed⟩
    exact if_congr hiff rfl rfl
  constructor
  case table =>
    intro stage
    rw [hresources]
    split
    · rfl
    · rfl
  case changed =>
    intro stage hneed
    have hset : s.needResourceUpdate stage = true := hneed
    rw [hresources, if_pos hset]
    exact Option.some_ne_none _
  case current =>
    intro stage hneed
    have hclear : s.needResourceUpdate stage = false := hneed
    rw [hresources, if_neg (Bool.eq_false_iff.mp hclear)]
    rfl
  case other =>
    intro flags hflags
    exact (if_neg fun hwaits => hflags hwaits.choose hwaits.choose_spec.1).symm

/-- No call of the recording puts a barrier into a scope. -/
def BarriersOutside (s : Recording) (calls : List Call) : Prop :=
  ∀ before c t, before ++ [c] <+: calls → s.record before = .ok t → t.PutsBarriersOutside c

theorem barriersOutside_concat_iff {calls : List Call} {c : Call} (h : s.record calls = .ok t) :
    BarriersOutside s (calls ++ [c]) ↔ BarriersOutside s calls ∧ t.PutsBarriersOutside c := by
  constructor
  · intro houtside
    refine ⟨fun before c' u hbefore => ?_, houtside calls c t (List.prefix_refl _) h⟩
    exact houtside before c' u (hbefore.trans (List.prefix_append _ _))
  · rintro ⟨houtside, hlast⟩ before c' u hbefore hu
    rcases List.prefix_concat_iff.mp hbefore with heq | hbefore
    · obtain ⟨rfl, hc⟩ := List.append_inj' heq rfl
      cases hc
      cases h.symm.trans hu
      exact hlast
    · exact houtside before c' u hbefore hu

/-- The commands are shown as long as the barriers are put outside the scopes. -/
theorem shows_or_refused {calls : List Call} (hclosed : s.isRendering = false)
    (h : s.record calls = .ok t) (hcovers : Covers memory t) :
    BarriersOutside s calls ∧ Shows memory t (calls.foldl Immediate.perform s.immediate) ∨
      ¬ BarriersOutside s calls ∧ Refused memory t := by
  induction calls using List.reverseRecOn generalizing t with
  | nil =>
      refine .inl ⟨fun before c u hbefore => ?_, Except.ok.inj h ▸ shows_begin hclosed⟩
      simp at hbefore
  | append_singleton calls c ih =>
      obtain ⟨u, hu, hcall⟩ := record_concat_eq_ok.mp h
      have hresources := call_resources hcall
      have hcoversu : Covers memory u :=
        hcovers.of_isPrefix hresources.history hresources.memory.resourceBufferAddress
      rw [barriersOutside_concat_iff hu, List.foldl_concat]
      rcases ih hu hcoversu with ⟨houtside, hshows⟩ | ⟨hinside, hrefused⟩
      · by_cases hlast : u.PutsBarriersOutside c
        · exact .inl ⟨⟨houtside, hlast⟩, hshows.call hcall hlast hcovers⟩
        · exact .inr ⟨fun hboth => hlast hboth.2, hshows.refused_call hcall hlast⟩
      · exact .inr ⟨fun hboth => hinside hboth.1, hrefused.of_isPrefix hresources.history⟩

/-- The end of a recording that the device has shown so far. -/
theorem Shows.endCommandBuffer (h : Shows memory s p) :
    ∃ d, Machine.run (Device.next memory) .idle (commands s.endCommandBuffer.history) = some d ∧
      d.isExecuting = false ∧ d.outputs = p.outputs := by
  obtain ⟨d, hd⟩ := h.endRenderingIfRendering
  have hended : d.isRendering = false := hd.isRendering.trans endRenderingIfRendering_isRendering
  refine ⟨{ d with isExecuting := false }, ?_, rfl, hd.outputs⟩
  have hhistory : commands s.endCommandBuffer.history =
      commands s.endRenderingIfRendering.history ++ [.endCommandBuffer] := commands_append _ _
  rw [hhistory, Machine.run_append, hd.executed]
  exact hd.run_singleton.trans (if_neg (by simp [hended]))

/-- A device takes a recording to its end exactly if no call puts a barrier into a scope, and what
it draws and clears on the way is what the calls ask for, with the states, the buffers and the
resources that they had set. -/
theorem record_executes {calls : List Call} (hclosed : s.isRendering = false)
    (h : s.record calls = .ok t) (hwrites : (writes t.history).length ≤ 2 ^ 32)
    (hmemory : ∀ slot, memory (slotAddress s.resourceBufferAddress slot) = t.slots slot) :
    ((Machine.run (Device.next memory) .idle (commands t.endCommandBuffer.history)).isSome ↔
      BarriersOutside s calls) ∧
      ∀ d, Machine.run (Device.next memory) .idle (commands t.endCommandBuffer.history) = some d →
        d.isExecuting = false ∧
          d.outputs = (calls.foldl Immediate.perform s.immediate).outputs := by
  rw [← (sameMemory_of_record h).resourceBufferAddress] at hmemory
  rcases shows_or_refused hclosed h (covers_of_record h hwrites hmemory) with
    ⟨houtside, hshows⟩ | ⟨hinside, hrefused⟩
  · obtain ⟨d, hd, hended, houtputs⟩ := hshows.endCommandBuffer
    rw [hd]
    refine ⟨iff_of_true rfl houtside, fun e he => ?_⟩
    exact Option.some.inj he ▸ ⟨hended, houtputs⟩
  · have hend : t.history <+: t.endCommandBuffer.history :=
      quiets_endRenderingIfRendering.sameSlots.history.trans (List.prefix_append _ _)
    have hnone : Machine.run (Device.next memory) .idle (commands t.endCommandBuffer.history) =
        none := hrefused.of_isPrefix hend
    rw [hnone]
    refine ⟨iff_of_false Bool.false_ne_true hinside, fun d hd => ?_⟩
    cases hd

/-- Two triangles with a uniform buffer each, and a clear between them that ends the pass. -/
def twoTriangles : List Call :=
  [.setRenderTargets 1 [some ⟨0, 1⟩] none, .setShader ⟨5, .primitive⟩, .setUniformBuffer 0 .vertex 7,
   .draw 3 3 0, .clearColorTarget ⟨0, 1⟩ ⟨0, 0, 0, 0⟩ ⟨1, 0, 1, 0, 1⟩,
   .setUniformBuffer 0 .vertex 8, .drawIndexed 3 1 0 3 0]

/-- The mapped memory at an address. -/
def slotMemory (s : Recording) (address : BitVec 64) : ResourceBuffer :=
  s.slots (((address - s.resourceBufferAddress) >>> 9).setWidth 32)

theorem slotMemory_slotAddress (s : Recording) (slot : BitVec 32) :
    s.slotMemory (slotAddress s.resourceBufferAddress slot) = s.slots slot := by
  have hslot : ((slotAddress s.resourceBufferAddress slot - s.resourceBufferAddress) >>>
      9).setWidth 32 = slot := by
    apply BitVec.eq_of_toNat_eq
    have hlt := slot.isLt
    rw [slotAddress, BitVec.add_comm, BitVec.add_sub_cancel]
    rw [BitVec.toNat_setWidth, BitVec.toNat_ushiftRight, BitVec.toNat_mul, BitVec.toNat_setWidth,
      Nat.shiftRight_eq_div_pow]
    change 512 * _ % _ / _ % _ = _
    omega
  rw [slotMemory, hslot]

theorem barriersOutside_twoTriangles : BarriersOutside blank twoTriangles := by
  intro before c t hbefore _
  have hmem : c ∈ twoTriangles := hbefore.subset (by simp)
  simp only [twoTriangles, List.mem_cons, List.not_mem_nil, or_false] at hmem
  rcases hmem with rfl | rfl | rfl | rfl | rfl | rfl | rfl
  all_goals exact trivial

/-- The triangles are drawn. With a barrier of an image after the last one, which is still inside
its scope, the device stops. -/
theorem record_executes_twoTriangles :
    (∃ t d, blank.record twoTriangles = .ok t ∧
      Machine.run (Device.next t.slotMemory) .idle (commands t.endCommandBuffer.history) = some d ∧
      d.outputs = (twoTriangles.foldl Immediate.perform blank.immediate).outputs) ∧
      ∃ t, blank.record (twoTriangles ++ [.setTextureStateTransition 0 ⟨⟨0, 0, 0, 0⟩, 0, 0⟩ 1]) =
        .ok t ∧
        Machine.run (Device.next t.slotMemory) .idle (commands t.endCommandBuffer.history) = none := by
  have hlength {calls : List Call} {t : Recording} (ht : blank.record calls = .ok t)
      (hdraws : 6 * calls.countP (fun c => c.kind = .draw) ≤ 2 ^ 32) :
      (writes t.history).length ≤ 2 ^ 32 := (length_writes_of_record_le ht).trans hdraws
  have hmemory {calls : List Call} {t : Recording} (ht : blank.record calls = .ok t)
      (slot : BitVec 32) :
      t.slotMemory (slotAddress blank.resourceBufferAddress slot) = t.slots slot := by
    rw [← (sameMemory_of_record ht).resourceBufferAddress, slotMemory_slotAddress]
  constructor
  · obtain ⟨t, ht⟩ : ∃ t, blank.record twoTriangles = .ok t := ⟨_, rfl⟩
    obtain ⟨hsome, houtputs⟩ := record_executes rfl ht (hlength ht (by decide)) (hmemory ht)
    obtain ⟨d, hd⟩ := Option.isSome_iff_exists.mp (hsome.mpr barriersOutside_twoTriangles)
    exact ⟨t, d, ht, hd, (houtputs d hd).2⟩
  · obtain ⟨u, hu, hopen⟩ : ∃ u, blank.record twoTriangles = .ok u ∧ u.isRendering = true :=
      ⟨_, rfl, rfl⟩
    obtain ⟨t, hcall⟩ : ∃ t,
        u.call (.setTextureStateTransition 0 ⟨⟨0, 0, 0, 0⟩, 0, 0⟩ 1) = .ok t := ⟨_, rfl⟩
    have ht := record_concat_eq_ok.mpr ⟨u, hu, hcall⟩
    refine ⟨t, ht, Option.not_isSome_iff_eq_none.mp fun hsome => ?_⟩
    have houtside := (record_executes rfl ht (hlength ht (by decide)) (hmemory ht)).1.mp hsome
    have hmask := houtside _ _ u (List.prefix_refl _) hu hopen
    exact absurd hmask (by decide)

end Recording

end DDFramework
