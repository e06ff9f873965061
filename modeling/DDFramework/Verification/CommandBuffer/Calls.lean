import DDFramework.Model.CommandBuffer
import Mathlib.Logic.Relation

/-! What the calls of a command buffer do. Most of them take quiet steps only, which leave the
resources of the stages alone. -/

namespace DDFramework

open Vulkan

inductive CallKind where
  | draw
  /-- `SetRenderTargets`. -/
  | targets
  | other
  deriving DecidableEq, Repr

def Call.kind : Call → CallKind
  | .draw .. | .drawIndexed .. | .drawInstanced .. | .drawInstancedIndexed .. => .draw
  | .setRenderTargets .. => .targets
  | _ => .other

namespace Recording

variable {s t : Recording}

/-- A command buffer with mapped memory for two draws of two stages and nothing set. -/
def blank : Recording where
  resourceBufferPerStageArray _ := .defaults
  resourceBufferMappedAddress := some 0
  resourceBufferAddress := 0
  colorTargets _ := none
  depthStencilTarget := none
  clearColor := ⟨0, 0, 0, 0⟩
  clearDepthStencil := ⟨0, 0⟩
  isRendering := false
  areNewTargets := false
  needResourceUpdate _ := false
  resourceUpdateCount := 0
  renderWidth := 0
  renderHeight := 0
  fastClearColor := false
  fastClearDepthStencil := false
  drawMemorySize := CommandBuffer.getDrawMemorySize 2 2
  slots _ := .defaults
  textures _ := ⟨0, 0⟩
  buffers _ := ⟨0, 0, true⟩
  memoryPools _ := ⟨true, 0⟩
  history := []

@[simp] theorem emit_isRendering (c : Command) : (s.emit c).isRendering = s.isRendering := rfl

@[simp] theorem emit_history (c : Command) :
    (s.emit c).history = s.history ++ [.command c s.isRendering] := rfl

@[simp] theorem endRenderingIfRendering_isRendering :
    s.endRenderingIfRendering.isRendering = false := by
  unfold endRenderingIfRendering
  split
  · rfl
  · simp_all

/-! ### Quiet steps -/

/-- The steps that leave the resources of the stages alone. -/
inductive Quiet : Recording → Recording → Prop
  | plain {s : Recording} {c : Command} (kind : c.kind = .other) : Quiet s (s.emit c)
  | outside {s : Recording} {c : Command} (kind : c.kind = .clear ∨ c.kind = .copy)
      (closed : s.isRendering = false) : Quiet s (s.emit c)
  | endRendering {s : Recording} (isOpen : s.isRendering = true) :
      Quiet s (({ s with isRendering := false } : Recording).emit .endRendering)
  | beginRendering {s : Recording} (closed : s.isRendering = false) :
      Quiet s ({ s with areNewTargets := false } : Recording).beginRendering
  | adjust {s : Recording} (clearColor : ClearColorValue)
      (clearDepthStencil : ClearDepthStencilValue) (fastClearColor fastClearDepthStencil : Bool)
      (renderWidth renderHeight : BitVec 16) (textures : ℕ → Texture) (buffers : ℕ → Buffer)
      (memoryPools : ℕ → MemoryPool) :
      Quiet s { s with
        clearColor := clearColor
        clearDepthStencil := clearDepthStencil
        fastClearColor := fastClearColor
        fastClearDepthStencil := fastClearDepthStencil
        renderWidth := renderWidth
        renderHeight := renderHeight
        textures := textures
        buffers := buffers
        memoryPools := memoryPools }

abbrev Quiets : Recording → Recording → Prop := Relation.ReflTransGen Quiet

theorem Quiets.emit {c : Command} (h : Quiets s t) (hc : c.kind = .other) : Quiets s (t.emit c) :=
  h.tail (.plain hc)

theorem quiets_setDynamicStates (states : List DynamicState) :
    Quiets s (s.setDynamicStates states) := by
  induction states generalizing s with
  | nil => exact .refl
  | cons state states ih => exact .head (.plain rfl) ih

theorem quiets_endRenderingIfRendering : Quiets s s.endRenderingIfRendering := by
  unfold endRenderingIfRendering
  split
  next h => exact .single (.endRendering h)
  next => exact .refl

theorem quiets_beginRenderingIfNotRendering : Quiets s s.beginRenderingIfNotRendering := by
  unfold beginRenderingIfNotRendering
  split
  next h =>
    -- The order of the reset of the flag and the end of the old scope does not matter.
    have hend : ({ s with areNewTargets := false } : Recording).endRenderingIfRendering =
        { s.endRenderingIfRendering with areNewTargets := false } := by
      unfold endRenderingIfRendering
      split
      · rfl
      · rfl
    rw [hend]
    exact quiets_endRenderingIfRendering.tail (.beginRendering endRenderingIfRendering_isRendering)
  next hnew =>
    split
    next => exact .refl
    next hclosed =>
      have hsame : ({ s with areNewTargets := false } : Recording) = s := by
        rw [← Bool.eq_false_iff.mpr hnew]
      have hstep := Quiet.beginRendering (Bool.eq_false_iff.mpr hclosed)
      rw [hsame] at hstep
      exact .single hstep

theorem beginRenderingIfNotRendering_isRendering :
    s.beginRenderingIfNotRendering.isRendering = true := by
  unfold beginRenderingIfNotRendering
  split
  · rfl
  · split
    next h => exact h
    next => rfl

theorem beginRenderingIfNotRendering_areNewTargets :
    s.beginRenderingIfNotRendering.areNewTargets = false := by
  unfold beginRenderingIfNotRendering
  split
  · unfold endRenderingIfRendering
    split
    · rfl
    · rfl
  next hnew =>
    split
    · exact Bool.eq_false_iff.mpr hnew
    · exact Bool.eq_false_iff.mpr hnew

theorem quiets_relocateHostMemoryToDevice (h : s.isRendering = false) (pool : ℕ) :
    Quiets s (s.relocateHostMemoryToDevice pool) := by
  unfold relocateHostMemoryToDevice
  split
  · refine .head (.outside (c := .copyBuffer (.stagingHostBuffer pool) (.stagingDeviceBuffer pool)
      (s.memoryPools pool).size) (.inr rfl) h) ?_
    refine .head (.plain (c := .bufferBarrier
      ⟨0, 0, pipelineStageAllCommandsBit, accessShaderReadBit⟩ (.stagingDeviceBuffer pool)) rfl) ?_
    exact .single (.adjust ..)
  · exact .refl

theorem quiets_relocate (h : s.isRendering = false) (buffer : ℕ) :
    Quiets s (s.relocate buffer) := by
  have hpool : Quiets s (if (s.memoryPools (s.buffers buffer).boundMemoryPool).requiresRelocation
      then s.relocateHostMemoryToDevice (s.buffers buffer).boundMemoryPool else s) := by
    split
    · exact quiets_relocateHostMemoryToDevice h _
    · exact .refl
  exact hpool.tail (.adjust ..)

theorem quiets_relocateIfRequired (buffer : ℕ) : Quiets s (s.relocateIfRequired buffer) := by
  unfold relocateIfRequired
  split
  · exact quiets_endRenderingIfRendering.trans
      (quiets_relocate endRenderingIfRendering_isRendering buffer)
  · exact .refl

theorem quiets_setTextureStateTransition (texture : ℕ) (barrierState : TextureBarrierCmdState)
    (aspectMask : Word) :
    Quiets s (s.setTextureStateTransition texture barrierState aspectMask) := by
  have hend : Quiets s (if barrierState.barrier.dstStageMask = pipelineStageBottomOfPipeBit then
      s.endRenderingIfRendering else s) := by
    split
    · exact quiets_endRenderingIfRendering
    · exact .refl
  exact (hend.emit rfl).tail (.adjust ..)

/-! ### The update before a draw -/

/-- A block of which the copy lies inside the mapped memory. -/
def flushIfNeeded (s : Recording) (block : UpdateBlock) : Recording :=
  if s.needResourceUpdate block.flag then s.flush block else s

theorem updateBlock_eq_ok {block : UpdateBlock} (h : s.updateBlock block = .ok t) :
    t = s.flushIfNeeded block := by
  unfold updateBlock at h
  rw [flushIfNeeded]
  split at h
  next hneed =>
    split at h
    · rw [if_pos hneed]
      exact (Except.ok.inj h).symm
    · cases h
  next hneed =>
    rw [if_neg hneed]
    exact (Except.ok.inj h).symm

theorem foldlM_updateBlock_eq_ok {blocks : List UpdateBlock}
    (h : blocks.foldlM updateBlock s = .ok t) : t = blocks.foldl flushIfNeeded s := by
  induction blocks generalizing s with
  | nil => exact (Except.ok.inj h).symm
  | cons block blocks ih =>
      obtain ⟨u, hu, h⟩ := bind_eq_ok_iff.mp h
      rw [updateBlock_eq_ok hu] at h
      exact ih h

theorem updateResourceBufferIfNecessary_eq_ok (h : s.updateResourceBufferIfNecessary = .ok t) :
    t = updateBlocks.foldl flushIfNeeded s := by
  unfold updateResourceBufferIfNecessary at h
  split at h
  · cases h
  · exact foldlM_updateBlock_eq_ok h

/-- What every block keeps holds after the update. -/
theorem updateResourceBufferIfNecessary_keeps {P : Recording → Prop}
    (hflush : ∀ {s : Recording} (block : UpdateBlock), P s → P (s.flush block)) (h : P s)
    (hupdate : s.updateResourceBufferIfNecessary = .ok t) : P t := by
  rw [updateResourceBufferIfNecessary_eq_ok hupdate]
  clear hupdate
  induction updateBlocks generalizing s with
  | nil => exact h
  | cons block blocks ih =>
      refine ih ?_
      unfold flushIfNeeded
      split
      · exact hflush block h
      · exact h

/-! ### Calls -/

/-- What a call does. -/
inductive Effect (c : Call) (s : Recording) : Recording → Prop
  | quiet {t : Recording} (kind : c.kind = .other) (steps : Quiets (s.enter c) t) :
      Effect c s t
  | setResources (kind : c.kind = .other) (stage : Fin 6) (table : ResourceBuffer) :
      Effect c s ((s.enter c).setResources stage table)
  | setRenderTargets (kind : c.kind = .targets) (colorTargets : Fin 8 → Option TargetView)
      (depthStencilTarget : Option TargetView) :
      Effect c s { s.enter c with
        colorTargets := colorTargets
        depthStencilTarget := depthStencilTarget
        areNewTargets := true }
  | draw {before updated ready : Recording} {command : Command} (kind : c.kind = .draw)
      (relocation : Quiets (s.enter c) before)
      (update : before.updateResourceBufferIfNecessary = .ok updated)
      (steps : Quiets updated ready) (isOpen : ready.isRendering = true)
      (current : ready.areNewTargets = false) (command_kind : command.kind = .draw) :
      Effect c s (ready.emit command)

theorem copyColorTargets_eq_ok {colorTargets : List (Option TargetView)} {n : ℕ}
    (h : s.copyColorTargets colorTargets n = .ok t) :
    ∃ targets, t = { s with colorTargets := targets } := by
  induction n generalizing t with
  | zero => exact ⟨s.colorTargets, (Except.ok.inj h).symm⟩
  | succ n ih =>
      obtain ⟨u, hu, h⟩ := bind_eq_ok_iff.mp h
      obtain ⟨targets, rfl⟩ := ih hu
      split at h
      · cases h
      · split at h
        · exact ⟨_, (Except.ok.inj h).symm⟩
        · cases h

theorem setRenderTargets_eq_ok {colorTargetCount : Word} {colorTargets : List (Option TargetView)}
    {depthStencilTarget : Option TargetView}
    (h : s.setRenderTargets colorTargetCount colorTargets depthStencilTarget = .ok t) :
    0 < colorTargetCount.toInt ∧ colorTargetCount.toInt ≤ 8 ∧
      ∃ targets, s.copyColorTargets colorTargets colorTargetCount.toInt.toNat =
          .ok { s with colorTargets := targets } ∧
        t = { s with
          colorTargets := targets
          depthStencilTarget := depthStencilTarget
          areNewTargets := true } := by
  obtain ⟨u, hu, h⟩ := bind_eq_ok_iff.mp h
  obtain ⟨targets, rfl⟩ := copyColorTargets_eq_ok hu
  split at h
  · next hcount => exact ⟨hcount.1, hcount.2, targets, hu, (Except.ok.inj h).symm⟩
  · cases h

theorem effect_setRenderTargets {c : Call} {colorTargetCount : Word}
    {colorTargets : List (Option TargetView)} {depthStencilTarget : Option TargetView}
    (hc : c.kind = .targets)
    (h : (s.enter c).setRenderTargets colorTargetCount colorTargets depthStencilTarget = .ok t) :
    Effect c s t := by
  obtain ⟨-, -, targets, -, rfl⟩ := setRenderTargets_eq_ok h
  exact .setRenderTargets hc targets depthStencilTarget

theorem effect_drawVertices {c : Call}
    {topology vertexCount instanceCount baseVertex baseInstance : Word} (hc : c.kind = .draw)
    (h : (s.enter c).drawVertices topology vertexCount instanceCount baseVertex baseInstance =
      .ok t) :
    Effect c s t := by
  obtain ⟨u, hu, h⟩ := bind_eq_ok_iff.mp h
  rw [← Except.ok.inj h]
  refine .draw hc .refl hu (quiets_beginRenderingIfNotRendering.emit rfl) ?_ ?_ rfl
  · exact beginRenderingIfNotRendering_isRendering
  · exact beginRenderingIfNotRendering_areNewTargets

theorem effect_drawIndices {c : Call} {topology indexFormat : Word} {indexBuffer : ℕ}
    {indexCount instanceCount baseIndex baseInstance : Word} (hc : c.kind = .draw)
    (h : (s.enter c).drawIndices topology indexFormat indexBuffer indexCount instanceCount baseIndex
      baseInstance = .ok t) :
    Effect c s t := by
  obtain ⟨u, hu, h⟩ := bind_eq_ok_iff.mp h
  rw [← Except.ok.inj h]
  refine .draw hc (quiets_relocateIfRequired indexBuffer) hu
    ((quiets_beginRenderingIfNotRendering.emit rfl).emit rfl) ?_ ?_ rfl
  · exact beginRenderingIfNotRendering_isRendering
  · exact beginRenderingIfNotRendering_areNewTargets

/-- What the three calls that set resources share after their bounds checks. -/
theorem setResources_eq_ok {n : ℕ} {location : Word} {shaderStage : ShaderStage}
    {same : Fin 6 → Fin n → Prop} [∀ stage i, Decidable (same stage i)]
    {table : Fin 6 → Fin n → ResourceBuffer}
    (h : (do
      let stage ← stageIndex shaderStage
      let i ← locationIndex n location
      if same stage i then .ok s
      else .ok (s.setResources stage (table stage i))) = .ok t) :
    t = s ∨ ∃ stage table, t = s.setResources stage table := by
  obtain ⟨stage, -, h⟩ := bind_eq_ok_iff.mp h
  obtain ⟨i, -, h⟩ := bind_eq_ok_iff.mp h
  split at h
  · exact .inl (Except.ok.inj h).symm
  · exact .inr ⟨stage, table stage i, (Except.ok.inj h).symm⟩

theorem effect_setResources {c : Call} (hc : c.kind = .other)
    (h : t = s.enter c ∨ ∃ stage table, t = (s.enter c).setResources stage table) :
    Effect c s t := by
  rcases h with rfl | ⟨stage, table, rfl⟩
  · exact .quiet hc .refl
  · exact .setResources hc stage table

theorem setDescriptorPool_eq_ok {descriptorPool : DescriptorPool}
    (h : s.setDescriptorPool descriptorPool = .ok t) :
    ∃ set, t = s.emit (.bindDescriptorSets set descriptorPool.descriptorSet) := by
  unfold setDescriptorPool at h
  split at h
  · exact ⟨0, (Except.ok.inj h).symm⟩
  · split at h
    · exact ⟨1, (Except.ok.inj h).symm⟩
    · cases h

/-- A call that returns is one of four kinds. -/
theorem call_effect {c : Call} (h : s.call c = .ok t) : Effect c s t := by
  have quiet {u : Recording} (hu : .ok u = (.ok t : Except Fault Recording))
      (hsteps : Quiets (s.enter c) u) (hc : c.kind = .other) : Effect c s t :=
    Except.ok.inj hu ▸ .quiet hc hsteps
  cases c with
  | clearColorTarget colorTarget color subRange =>
      refine quiet h ?_ rfl
      exact (quiets_endRenderingIfRendering.tail (.outside (.inl rfl)
        endRenderingIfRendering_isRendering)).trans (quiets_setTextureStateTransition ..)
  | clearDepthStencilTarget depthStencilTarget clearValue subRange =>
      refine quiet h ?_ rfl
      exact (quiets_endRenderingIfRendering.tail (.outside (.inl rfl)
        endRenderingIfRendering_isRendering)).trans (quiets_setTextureStateTransition ..)
  | registerFastClearColor colorValue => exact quiet h (.single (.adjust ..)) rfl
  | registerFastClearDepthStencil value => exact quiet h (.single (.adjust ..)) rfl
  | draw => exact effect_drawVertices rfl h
  | drawIndexed => exact effect_drawIndices rfl h
  | drawInstanced => exact effect_drawVertices rfl h
  | drawInstancedIndexed => exact effect_drawIndices rfl h
  | setShader shader => exact quiet h (.single (.plain rfl)) rfl
  | setPipelineState state =>
      refine quiet h ?_ rfl
      exact (((quiets_setDynamicStates _).trans (quiets_setDynamicStates _)).trans
        (quiets_setDynamicStates _)).trans (quiets_setDynamicStates _)
  | setColorBlendState state => exact quiet h (quiets_setDynamicStates _) rfl
  | setDepthStencilState state => exact quiet h (quiets_setDynamicStates _) rfl
  | setRasterizerState state => exact quiet h (quiets_setDynamicStates _) rfl
  | setVertexState state => exact quiet h (quiets_setDynamicStates _) rfl
  | setViewports viewports => exact quiet h (quiets_setDynamicStates _) rfl
  | setScissors scissors => exact quiet h (quiets_setDynamicStates _) rfl
  | setViewportScissors viewports scissors => exact quiet h (quiets_setDynamicStates _) rfl
  | setRenderTargets => exact effect_setRenderTargets rfl h
  | setVertexBuffer => exact quiet h ((quiets_relocateIfRequired _).emit rfl) rfl
  | setBufferStateTransition =>
      exact quiet h ((quiets_relocateIfRequired _).emit rfl) rfl
  | setTextureStateTransition => exact quiet h (quiets_setTextureStateTransition ..) rfl
  | setDescriptorPool =>
      obtain ⟨set, rfl⟩ := setDescriptorPool_eq_ok h
      exact .quiet rfl (.single (.plain rfl))
  | setUniformBuffer => exact effect_setResources rfl (setResources_eq_ok h)
  | setStorageBuffer => exact effect_setResources rfl (setResources_eq_ok h)
  | setTextureAndSampler => exact effect_setResources rfl (setResources_eq_ok h)
  | setRenderDimensions => exact quiet h (.single (.adjust ..)) rfl

end Recording

end DDFramework
