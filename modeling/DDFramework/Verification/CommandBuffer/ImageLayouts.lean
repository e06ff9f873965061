import DDFramework.Verification.CommandBuffer.Simulation

/-! # Image layouts

The layouts that the recorded barriers leave behind, and the layouts that the textures remember. A
device refuses a barrier that names a defined old layout other than the present one, and a clear of
an image in another layout than it names. It takes the undefined layout as the old one in any
case. -/

namespace DDFramework

open Vulkan RecordingEvent

namespace Vulkan

def imageLayoutUndefined : Word := 0

/-- The command leaves the layouts alone and does not depend on them. -/
def Command.LayoutFree : Command → Prop
  | .imageBarrier .. | .clearColorImage .. | .clearDepthStencilImage .. => False
  | _ => True

/-- The layouts of the images after a command. An undefined old layout is always taken. -/
def takeLayouts (layouts : Handle → Word) : Command → Option (Handle → Word)
  | .imageBarrier _ oldLayout newLayout image _ =>
      if (oldLayout = layouts image ∨ oldLayout = imageLayoutUndefined) ∧
          newLayout ≠ imageLayoutUndefined then
        some (Function.update layouts image newLayout)
      else none
  | .clearColorImage image layout _ _ | .clearDepthStencilImage image layout _ _ =>
      if layout = layouts image then some layouts else none
  | _ => some layouts

theorem takeLayouts_of_layoutFree {c : Command} (h : c.LayoutFree) (layouts : Handle → Word) :
    takeLayouts layouts c = some layouts := by
  cases c with
  | imageBarrier => exact h.elim
  | clearColorImage => exact h.elim
  | clearDepthStencilImage => exact h.elim
  | _ => rfl

theorem run_takeLayouts_of_layoutFree {cs : List Command} (h : ∀ c ∈ cs, c.LayoutFree)
    (layouts : Handle → Word) : Machine.run takeLayouts layouts cs = some layouts := by
  induction cs with
  | nil => rfl
  | cons c cs ih =>
      rw [List.forall_mem_cons] at h
      rw [Machine.run_cons, takeLayouts_of_layoutFree h.1]
      exact ih h.2

end Vulkan

namespace Recording

variable {s t u : Recording} {layouts current : Handle → Word} {existing : Set ℕ}

def images (s : Recording) (texture : ℕ) : Handle := (s.textures texture).image

/-- The recorded commands take the images from `layouts` to where the existing textures say that
they are. A command that names an undefined old layout does so from any layout. -/
structure LayoutsAgree (existing : Set ℕ) (layouts current : Handle → Word) (s : Recording) :
    Prop where
  executed : Machine.run takeLayouts layouts (commands s.history) = some current
  tracked : ∀ texture ∈ existing, current (s.images texture) = (s.textures texture).imageLayout

/-- The texture whose layout the call changes or relies on. -/
def Call.texture? : Call → Option ℕ
  | .setTextureStateTransition texture _ _ => some texture
  | .clearColorTarget target _ _ | .clearDepthStencilTarget target _ _ => some target.texture
  | _ => none

/-- The step gets no other texture than the existing ones. -/
def UsesExisting (existing : Set ℕ) (_ : Recording) : Step → Prop
  | .call c => ∀ texture, Call.texture? c = some texture → texture ∈ existing
  | _ => True

/-- A call of `SetTextureStateTransition` names the remembered layout or the undefined one, and a
call that clears a target finds it in the general layout. -/
def NamesLayout (s : Recording) : Step → Prop
  | .call (.setTextureStateTransition texture barrierState _) =>
      (barrierState.srcLayout = (s.textures texture).imageLayout ∨
        barrierState.srcLayout = imageLayoutUndefined) ∧
        barrierState.dstLayout ≠ imageLayoutUndefined
  | .call (.clearColorTarget target _ _) | .call (.clearDepthStencilTarget target _ _) =>
      (s.textures target.texture).imageLayout = imageLayoutGeneral
  | _ => True

/-! ### Steps without a layout -/

/-- Commands without a layout are recorded, and the textures stay. -/
structure KeepsLayouts (s t : Recording) : Prop where
  textures : t.textures = s.textures
  recorded : ∃ cs, commands t.history = commands s.history ++ cs ∧ ∀ c ∈ cs, c.LayoutFree

theorem KeepsLayouts.trans (h : KeepsLayouts s t) (h' : KeepsLayouts t u) : KeepsLayouts s u where
  textures := h'.textures.trans h.textures
  recorded := by
    obtain ⟨cs, hcs, hfree⟩ := h.recorded
    obtain ⟨cs', hcs', hfree'⟩ := h'.recorded
    refine ⟨cs ++ cs', ?_, ?_⟩
    · rw [hcs', hcs, List.append_assoc]
    · rw [List.forall_mem_append]
      exact ⟨hfree, hfree'⟩

theorem keepsLayouts_of_eq (htextures : t.textures = s.textures)
    (hhistory : commands t.history = commands s.history) : KeepsLayouts s t :=
  ⟨htextures, [], by rw [hhistory, List.append_nil], nofun⟩

theorem KeepsLayouts.refl (s : Recording) : KeepsLayouts s s := keepsLayouts_of_eq rfl rfl

theorem keepsLayouts_emit {c : Command} (hc : c.LayoutFree) : KeepsLayouts s (s.emit c) :=
  ⟨rfl, [c], commands_append _ _, List.forall_mem_singleton.mpr hc⟩

theorem KeepsLayouts.emit {c : Command} (h : KeepsLayouts s t) (hc : c.LayoutFree) :
    KeepsLayouts s (t.emit c) :=
  h.trans (keepsLayouts_emit hc)

theorem keepsLayouts_enter (c : Call) : KeepsLayouts s (s.enter c) :=
  keepsLayouts_of_eq rfl ((commands_append _ _).trans (List.append_nil _))

theorem keepsLayouts_setDynamicStates (states : List DynamicState) :
    KeepsLayouts s (s.setDynamicStates states) := by
  induction states generalizing s with
  | nil => exact .refl s
  | cons state states ih => exact (keepsLayouts_emit (c := .setDynamicState state) trivial).trans ih

theorem keepsLayouts_endRenderingIfRendering : KeepsLayouts s s.endRenderingIfRendering := by
  unfold endRenderingIfRendering
  split
  · exact ⟨rfl, [.endRendering], commands_append _ _, List.forall_mem_singleton.mpr trivial⟩
  · exact .refl s

theorem keepsLayouts_beginRendering : KeepsLayouts s s.beginRendering :=
  ⟨rfl, [.beginRendering s.renderingInfo], commands_append _ _,
    List.forall_mem_singleton.mpr trivial⟩

theorem keepsLayouts_beginRenderingIfNotRendering :
    KeepsLayouts s s.beginRenderingIfNotRendering := by
  unfold beginRenderingIfNotRendering
  split
  · have hreset : KeepsLayouts s { s with areNewTargets := false } := keepsLayouts_of_eq rfl rfl
    exact (hreset.trans keepsLayouts_endRenderingIfRendering).trans keepsLayouts_beginRendering
  · split
    · exact .refl s
    · exact keepsLayouts_beginRendering

theorem keepsLayouts_relocateHostMemoryToDevice (pool : ℕ) :
    KeepsLayouts s (s.relocateHostMemoryToDevice pool) := by
  unfold relocateHostMemoryToDevice
  split
  · have hcopied : KeepsLayouts s (s.emit (.copyBuffer (.stagingHostBuffer pool)
        (.stagingDeviceBuffer pool) (s.memoryPools pool).size)) := keepsLayouts_emit trivial
    have hbarrier := hcopied.emit (c := .bufferBarrier
      ⟨0, 0, pipelineStageAllCommandsBit, accessShaderReadBit⟩ (.stagingDeviceBuffer pool)) trivial
    exact hbarrier.trans (keepsLayouts_of_eq rfl rfl)
  · exact .refl s

theorem keepsLayouts_relocateIfRequired (buffer : ℕ) :
    KeepsLayouts s (s.relocateIfRequired buffer) := by
  cases hrequired : (s.buffers buffer).requiresRelocation with
  | false =>
      rw [relocateIfRequired_of_clear hrequired]
      exact .refl s
  | true =>
      rw [relocateIfRequired_of_set hrequired]
      exact keepsLayouts_endRenderingIfRendering.trans (keepsLayouts_relocateHostMemoryToDevice _)

theorem keepsLayouts_flush (block : UpdateBlock) : KeepsLayouts s (s.flush block) := by
  have hcopied : KeepsLayouts s (s.copyResources block.stage) :=
    keepsLayouts_of_eq rfl ((commands_append _ _).trans (List.append_nil _))
  have hpushed := hcopied.trans (keepsLayouts_emit (c := .pushConstants block.stageFlags
    block.offset (slotAddress s.resourceBufferAddress s.resourceUpdateCount)) trivial)
  exact hpushed.trans (keepsLayouts_of_eq rfl rfl)

theorem keepsLayouts_updateResourceBufferIfNecessary
    (h : s.updateResourceBufferIfNecessary = .ok t) : KeepsLayouts s t :=
  updateResourceBufferIfNecessary_keeps (P := KeepsLayouts s)
    (fun block hs => hs.trans (keepsLayouts_flush block)) (.refl s) h

theorem keepsLayouts_drawVertices
    {topology vertexCount instanceCount baseVertex baseInstance : Word}
    (h : s.drawVertices topology vertexCount instanceCount baseVertex baseInstance = .ok t) :
    KeepsLayouts s t := by
  obtain ⟨u, hu, h⟩ := bind_eq_ok_iff.mp h
  rw [← Except.ok.inj h]
  have hbegun := (keepsLayouts_updateResourceBufferIfNecessary hu).trans
    keepsLayouts_beginRenderingIfNotRendering
  exact .emit (.emit hbegun trivial) trivial

theorem keepsLayouts_drawIndices {topology indexFormat : Word} {indexBuffer : ℕ}
    {indexCount instanceCount baseIndex baseInstance : Word}
    (h : s.drawIndices topology indexFormat indexBuffer indexCount instanceCount baseIndex
      baseInstance = .ok t) : KeepsLayouts s t := by
  obtain ⟨u, hu, h⟩ := bind_eq_ok_iff.mp h
  rw [← Except.ok.inj h]
  have hbegun := ((keepsLayouts_relocateIfRequired indexBuffer).trans
    (keepsLayouts_updateResourceBufferIfNecessary hu)).trans
      keepsLayouts_beginRenderingIfNotRendering
  exact .emit (.emit (.emit hbegun trivial) trivial) trivial

theorem keepsLayouts_setResources (h : t = s ∨ ∃ stage table, t = s.setResources stage table) :
    KeepsLayouts s t := by
  rcases h with rfl | ⟨stage, table, rfl⟩
  · exact .refl t
  · exact keepsLayouts_of_eq rfl rfl

theorem keepsLayouts_setPipelineState (state : PipelineCmdState) :
    KeepsLayouts s (s.setPipelineState state) :=
  (((keepsLayouts_setDynamicStates _).trans (keepsLayouts_setDynamicStates _)).trans
    (keepsLayouts_setDynamicStates _)).trans (keepsLayouts_setDynamicStates _)

/-- The calls that record no barrier of an image. -/
def Call.LayoutFree : Call → Prop
  | .setTextureStateTransition .. | .clearColorTarget .. | .clearDepthStencilTarget .. => False
  | _ => True

theorem keepsLayouts_call {c : Call} (h : s.call c = .ok t) (hc : Call.LayoutFree c) :
    KeepsLayouts s t := by
  refine (keepsLayouts_enter c).trans ?_
  have returns {u : Recording} (hu : .ok u = (.ok t : Except Fault Recording))
      (hkeeps : KeepsLayouts (s.enter c) u) : KeepsLayouts (s.enter c) t :=
    Except.ok.inj hu ▸ hkeeps
  cases c with
  | clearColorTarget => exact hc.elim
  | clearDepthStencilTarget => exact hc.elim
  | setTextureStateTransition => exact hc.elim
  | registerFastClearColor => exact returns h (keepsLayouts_of_eq rfl rfl)
  | registerFastClearDepthStencil => exact returns h (keepsLayouts_of_eq rfl rfl)
  | draw => exact keepsLayouts_drawVertices h
  | drawIndexed => exact keepsLayouts_drawIndices h
  | drawInstanced => exact keepsLayouts_drawVertices h
  | drawInstancedIndexed => exact keepsLayouts_drawIndices h
  | setShader => exact returns h (keepsLayouts_emit trivial)
  | setPipelineState => exact returns h (keepsLayouts_setPipelineState _)
  | setColorBlendState => exact returns h (keepsLayouts_setDynamicStates _)
  | setDepthStencilState => exact returns h (keepsLayouts_setDynamicStates _)
  | setRasterizerState => exact returns h (keepsLayouts_setDynamicStates _)
  | setVertexState => exact returns h (keepsLayouts_setDynamicStates _)
  | setViewports => exact returns h (keepsLayouts_setDynamicStates _)
  | setScissors => exact returns h (keepsLayouts_setDynamicStates _)
  | setViewportScissors => exact returns h (keepsLayouts_setDynamicStates _)
  | setRenderTargets =>
      obtain ⟨-, -, targets, -, rfl⟩ := setRenderTargets_eq_ok h
      exact keepsLayouts_of_eq rfl rfl
  | setVertexBuffer =>
      exact returns h ((keepsLayouts_relocateIfRequired _).emit trivial)
  | setBufferStateTransition =>
      exact returns h ((keepsLayouts_relocateIfRequired _).emit trivial)
  | setDescriptorPool =>
      obtain ⟨set, rfl⟩ := setDescriptorPool_eq_ok h
      exact keepsLayouts_emit trivial
  | setUniformBuffer => exact keepsLayouts_setResources (setResources_eq_ok h)
  | setStorageBuffer => exact keepsLayouts_setResources (setResources_eq_ok h)
  | setTextureAndSampler => exact keepsLayouts_setResources (setResources_eq_ok h)
  | setRenderDimensions => exact returns h (keepsLayouts_of_eq rfl rfl)

/-! ### Barriers and clears -/

theorem KeepsLayouts.layoutsAgree (h : KeepsLayouts s t)
    (hagree : LayoutsAgree existing layouts current s) :
    LayoutsAgree existing layouts current t where
  executed := by
    obtain ⟨cs, hcs, hfree⟩ := h.recorded
    rw [hcs, Machine.run_append, hagree.executed]
    exact run_takeLayouts_of_layoutFree hfree current
  tracked := by
    intro texture hexists
    rw [images, h.textures]
    exact hagree.tracked texture hexists

/-- The end of `SetTextureStateTransition`. -/
def transition (s : Recording) (texture : ℕ) (barrierState : TextureBarrierCmdState)
    (aspectMask : Word) : Recording :=
  { s.emit (.imageBarrier barrierState.barrier barrierState.srcLayout barrierState.dstLayout
      (s.textures texture).image aspectMask) with
    textures := Function.update s.textures texture
      { s.textures texture with imageLayout := barrierState.dstLayout } }

@[simp] theorem images_transition (texture : ℕ) (barrierState : TextureBarrierCmdState)
    (aspectMask : Word) : (s.transition texture barrierState aspectMask).images = s.images := by
  funext other
  change (Function.update s.textures texture _ other).image = _
  rw [Function.update_apply]
  split
  next heq => rw [heq]; rfl
  next => rfl

theorem commands_transition (texture : ℕ) (barrierState : TextureBarrierCmdState)
    (aspectMask : Word) : commands (s.transition texture barrierState aspectMask).history =
      commands s.history ++ [.imageBarrier barrierState.barrier barrierState.srcLayout
        barrierState.dstLayout (s.images texture) aspectMask] :=
  commands_append _ _

theorem run_transition (hagree : LayoutsAgree existing layouts current s) {texture : ℕ}
    (hexists : texture ∈ existing) (barrierState : TextureBarrierCmdState) (aspectMask : Word) :
    Machine.run takeLayouts layouts
      (commands (s.transition texture barrierState aspectMask).history) =
        if (barrierState.srcLayout = (s.textures texture).imageLayout ∨
            barrierState.srcLayout = imageLayoutUndefined) ∧
            barrierState.dstLayout ≠ imageLayoutUndefined then
          some (Function.update current (s.images texture) barrierState.dstLayout)
        else none := by
  rw [commands_transition, Machine.run_append, hagree.executed, Option.bind_some, Machine.run_cons,
    takeLayouts, hagree.tracked texture hexists]
  split
  · rfl
  · rfl

theorem layoutsAgree_transition (hdistinct : Set.InjOn s.images existing)
    (hagree : LayoutsAgree existing layouts current s) {texture : ℕ} (hexists : texture ∈ existing)
    (barrierState : TextureBarrierCmdState) (aspectMask : Word) :
    (∃ after, LayoutsAgree existing layouts after (s.transition texture barrierState aspectMask)) ↔
      (barrierState.srcLayout = (s.textures texture).imageLayout ∨
        barrierState.srcLayout = imageLayoutUndefined) ∧
        barrierState.dstLayout ≠ imageLayoutUndefined := by
  have hrun := run_transition hagree hexists barrierState aspectMask
  constructor
  · intro hafter
    obtain ⟨after, hafter⟩ := hafter
    rw [hafter.executed] at hrun
    by_contra hnamed
    rw [if_neg hnamed] at hrun
    cases hrun
  · intro hnamed
    rw [if_pos hnamed] at hrun
    refine ⟨_, hrun, ?_⟩
    intro other hother
    rw [images_transition]
    change _ = (Function.update s.textures texture _ other).imageLayout
    by_cases heq : other = texture
    · rw [heq, Function.update_self, Function.update_self]
    · have himage : s.images other ≠ s.images texture := fun himage =>
        heq (hdistinct hother hexists himage)
      rw [Function.update_of_ne himage, hagree.tracked other hother, Function.update_of_ne heq]

theorem setTextureStateTransition_eq (texture : ℕ) (barrierState : TextureBarrierCmdState)
    (aspectMask : Word) : ∃ u, KeepsLayouts s u ∧
      s.setTextureStateTransition texture barrierState aspectMask =
        u.transition texture barrierState aspectMask := by
  unfold setTextureStateTransition
  split
  · exact ⟨s.endRenderingIfRendering, keepsLayouts_endRenderingIfRendering, rfl⟩
  · exact ⟨s, .refl s, rfl⟩

theorem KeepsLayouts.images (h : KeepsLayouts s t) : t.images = s.images := by
  funext texture
  rw [Recording.images, h.textures, Recording.images]

theorem layoutsAgree_setTextureStateTransition (hdistinct : Set.InjOn s.images existing)
    (hagree : LayoutsAgree existing layouts current s) {texture : ℕ} (hexists : texture ∈ existing)
    (barrierState : TextureBarrierCmdState) (aspectMask : Word) :
    (∃ after, LayoutsAgree existing layouts after
      (s.setTextureStateTransition texture barrierState aspectMask)) ↔
      (barrierState.srcLayout = (s.textures texture).imageLayout ∨
        barrierState.srcLayout = imageLayoutUndefined) ∧
        barrierState.dstLayout ≠ imageLayoutUndefined := by
  obtain ⟨u, hkeeps, heq⟩ := setTextureStateTransition_eq (s := s) texture barrierState aspectMask
  rw [heq, layoutsAgree_transition (hkeeps.images ▸ hdistinct) (hkeeps.layoutsAgree hagree)
    hexists, hkeeps.textures]

/-- A clear command, and the barrier from the general layout to itself. -/
theorem layoutsAgree_clear {c : Command} (hdistinct : Set.InjOn s.images existing)
    (hagree : LayoutsAgree existing layouts current s) {texture : ℕ} (hexists : texture ∈ existing)
    (hc : ∀ layouts, takeLayouts layouts c =
      if imageLayoutGeneral = layouts (s.images texture) then some layouts else none)
    (dstStageMask dstAccessMask : BitVec 64) (aspectMask : Word) :
    (∃ after, LayoutsAgree existing layouts after ((s.emit c).setTextureStateTransition texture
      (clearBarrierState dstStageMask dstAccessMask) aspectMask)) ↔
      (s.textures texture).imageLayout = imageLayoutGeneral := by
  have hhistory : commands (s.emit c).history = commands s.history ++ [c] := commands_append _ _
  have hrun : Machine.run takeLayouts layouts (commands (s.emit c).history) =
      if imageLayoutGeneral = (s.textures texture).imageLayout then some current else none := by
    rw [hhistory, Machine.run_append, hagree.executed, Option.bind_some, Machine.run_cons, hc,
      hagree.tracked texture hexists]
    split
    · rfl
    · rfl
  constructor
  · intro hafter
    obtain ⟨after, hafter⟩ := hafter
    by_contra hlayout
    rw [if_neg (fun heq => hlayout heq.symm)] at hrun
    -- The barrier comes after the clear, so nothing gets past the clear.
    obtain ⟨u, hkeeps, heq⟩ := setTextureStateTransition_eq (s := s.emit c) texture
      (clearBarrierState dstStageMask dstAccessMask) aspectMask
    obtain ⟨cs, hcs, -⟩ := hkeeps.recorded
    have hexecuted := hafter.executed
    rw [heq] at hexecuted
    rw [commands_transition, hcs, List.append_assoc, Machine.run_append, hrun] at hexecuted
    cases hexecuted
  · intro hlayout
    rw [if_pos hlayout.symm] at hrun
    have hcleared : LayoutsAgree existing layouts current (s.emit c) := ⟨hrun, hagree.tracked⟩
    have himages : Set.InjOn (s.emit c).images existing := hdistinct
    rw [layoutsAgree_setTextureStateTransition himages hcleared hexists]
    have hdefined : imageLayoutGeneral ≠ imageLayoutUndefined := by decide
    exact ⟨.inl hlayout.symm, hdefined⟩

/-! ### Runs -/

theorem images_setTextureStateTransition (texture : ℕ) (barrierState : TextureBarrierCmdState)
    (aspectMask : Word) :
    (s.setTextureStateTransition texture barrierState aspectMask).images = s.images := by
  obtain ⟨u, hkeeps, heq⟩ := setTextureStateTransition_eq (s := s) texture barrierState aspectMask
  rw [heq, images_transition, hkeeps.images]

theorem images_call {c : Call} (h : s.call c = .ok t) : t.images = s.images := by
  have hended : (s.enter c).endRenderingIfRendering.images = s.images :=
    ((keepsLayouts_enter c).trans keepsLayouts_endRenderingIfRendering).images
  cases c with
  | setTextureStateTransition =>
      rw [← Except.ok.inj h]
      exact images_setTextureStateTransition ..
  | clearColorTarget =>
      rw [← Except.ok.inj h]
      exact (images_setTextureStateTransition ..).trans hended
  | clearDepthStencilTarget =>
      rw [← Except.ok.inj h]
      exact (images_setTextureStateTransition ..).trans hended
  | _ => exact (keepsLayouts_call h trivial).images

theorem images_next {step : Step} (h : s.next step = some t) : t.images = s.images := by
  cases step with
  | beginCommandBuffer => rw [← Option.some.inj h]; rfl
  | endCommandBuffer =>
      rw [← Option.some.inj h]
      exact keepsLayouts_endRenderingIfRendering.images
  | call c => exact images_call (toOption_eq_some.mp h)

theorem layoutsAgree_call_iff {c : Call} (hdistinct : Set.InjOn s.images existing)
    (hagree : LayoutsAgree existing layouts current s)
    (hexisting : UsesExisting existing s (.call c)) (h : s.call c = .ok t) :
    (∃ after, LayoutsAgree existing layouts after t) ↔ NamesLayout s (.call c) := by
  have hentered := (keepsLayouts_enter c).layoutsAgree hagree
  have hkeeps : KeepsLayouts s (s.enter c).endRenderingIfRendering :=
    (keepsLayouts_enter c).trans keepsLayouts_endRenderingIfRendering
  have hended := hkeeps.layoutsAgree hagree
  have himages : Set.InjOn (s.enter c).endRenderingIfRendering.images existing := by
    rw [hkeeps.images]
    exact hdistinct
  cases c with
  | setTextureStateTransition texture barrierState aspectMask =>
      have hentereds : Set.InjOn (s.enter
        (.setTextureStateTransition texture barrierState aspectMask)).images existing := hdistinct
      rw [← Except.ok.inj h]
      exact layoutsAgree_setTextureStateTransition hentereds hentered (hexisting _ rfl) barrierState
        aspectMask
  | clearColorTarget target color subRange =>
      rw [← Except.ok.inj h]
      refine (layoutsAgree_clear himages hended (hexisting _ rfl) (fun _ => rfl) _ _ _).trans ?_
      rw [hkeeps.textures]
      rfl
  | clearDepthStencilTarget target clearValue subRange =>
      rw [← Except.ok.inj h]
      refine (layoutsAgree_clear himages hended (hexisting _ rfl) (fun _ => rfl) _ _ _).trans ?_
      rw [hkeeps.textures]
      rfl
  | _ =>
      refine iff_of_true ⟨current, ?_⟩ trivial
      exact (keepsLayouts_call h trivial).layoutsAgree hagree

/-- As long as the textures have images of their own and remember where these are, every barrier
and every clear of a run is one that the device takes, and the textures remember the layouts that
it leaves behind, exactly if every step of the run names the remembered layout, or the undefined
one as the old layout of a barrier. -/
theorem always_layoutsAgree_iff (hdistinct : Set.InjOn s.images existing)
    (htracked : ∀ texture ∈ existing, layouts (s.images texture) = (s.textures texture).imageLayout)
    {steps : List Step}
    (hexisting : Machine.EveryStep next (UsesExisting existing) { s with history := [] } steps) :
    Machine.Always next (fun t => ∃ current, LayoutsAgree existing layouts current t)
        { s with history := [] } steps ↔
      Machine.EveryStep next NamesLayout { s with history := [] } steps := by
  refine Machine.always_iff_everyStep_of ⟨layouts, rfl, htracked⟩ ?_ steps hexisting
  intro t u step hreach hagree huses hstep
  have himages : t.images = s.images :=
    hreach.invariant (P := fun t => t.images = s.images) rfl fun h _ hstep =>
      (images_next hstep).trans h
  obtain ⟨current, hagree⟩ := hagree
  cases step with
  | beginCommandBuffer =>
      refine iff_of_true ⟨current, ?_⟩ trivial
      rw [← Option.some.inj hstep]
      have hbegun : KeepsLayouts t (t.emit .beginCommandBuffer) := keepsLayouts_emit trivial
      have hreset : KeepsLayouts t t.beginCommandBuffer := hbegun.trans (keepsLayouts_of_eq rfl rfl)
      exact hreset.layoutsAgree hagree
  | endCommandBuffer =>
      refine iff_of_true ⟨current, ?_⟩ trivial
      rw [← Option.some.inj hstep]
      have hended : KeepsLayouts t t.endCommandBuffer :=
        keepsLayouts_endRenderingIfRendering.emit trivial
      exact hended.layoutsAgree hagree
  | call c =>
      exact layoutsAgree_call_iff (himages ▸ hdistinct) hagree huses (toOption_eq_some.mp hstep)

/-- A texture taken from the undefined layout to the general one, and cleared. -/
def clearedTexture : List Step :=
  [.beginCommandBuffer, .call (.setTextureStateTransition 0 ⟨⟨0, 0, 0, 0⟩, 0, 1⟩ 1),
   .call (.clearColorTarget ⟨0, 1⟩ ⟨0, 0, 0, 0⟩ ⟨1, 0, 1, 0, 1⟩), .endCommandBuffer]

theorem always_layoutsAgree_clearedTexture :
    Machine.Always next (fun t => ∃ current, LayoutsAgree {0} (fun _ => 0) current t) blank
      clearedTexture ↔ Machine.EveryStep next NamesLayout blank clearedTexture := by
  refine always_layoutsAgree_iff (s := blank) (Set.injOn_singleton ..) (fun _ _ => rfl) ?_
  intro before step t u hprefix _ _
  have hmem : step ∈ clearedTexture := hprefix.subset List.mem_concat_self
  simp only [clearedTexture, List.mem_cons, List.not_mem_nil, or_false] at hmem
  rcases hmem with rfl | rfl | rfl | rfl
  · trivial
  · exact fun texture h => (Option.some.inj h).symm
  · exact fun texture h => (Option.some.inj h).symm
  · trivial

end Recording

end DDFramework
