import DDFramework.Verification.CommandBuffer.Immediate
import DDFramework.Verification.CommandBuffer.Relocation

/-! # A device beside a recording

The relation between a recording, a device that has executed its commands, and the meaning of the
calls so far. Every primitive of a recording keeps it. -/

namespace DDFramework

open Vulkan RecordingEvent

namespace RecordingEvent

def command? : RecordingEvent → Option Command
  | .command c _ => some c
  | _ => none

/-- The recorded commands of a history. -/
def commands (t : List RecordingEvent) : List Command := t.filterMap command?

@[simp] theorem commands_append (t u : List RecordingEvent) :
    commands (t ++ u) = commands t ++ commands u :=
  List.filterMap_append

theorem commands_map_command (cs : List Command) (isRendering : Bool) :
    commands (cs.map fun c => .command c isRendering) = cs := by
  induction cs with
  | nil => rfl
  | cons c cs ih => exact congrArg (c :: ·) ih

end RecordingEvent

namespace Recording

variable {memory : BitVec 64 → ResourceBuffer} {s t : Recording} {p q : Immediate}
  {d e : Device ResourceBuffer}

/-! ### The relation -/

/-- The pushed addresses and the resources of the calls, given the tables of the stages and which
of them wait for an update. -/
structure ResourcesMatch (memory : BitVec 64 → ResourceBuffer) (pushed : Word → Option (BitVec 64))
    (resources : Word → Option ResourceBuffer) (tables : Fin 6 → ResourceBuffer)
    (need : Fin 6 → Bool) : Prop where
  table : ∀ stage, (resources (stageBit stage)).getD .defaults = tables stage
  changed : ∀ stage, need stage = true → resources (stageBit stage) ≠ none
  current : ∀ stage, need stage = false →
    (pushed (stageBit stage)).map memory = resources (stageBit stage)
  other : ∀ flags, (∀ stage, flags ≠ stageBit stage) →
    (pushed flags).map memory = resources flags

/-- The device has executed the recorded commands and agrees with the calls. -/
structure Matches (memory : BitVec 64 → ResourceBuffer) (d : Device ResourceBuffer) (s : Recording)
    (p : Immediate) : Prop where
  executed : Machine.run (Device.next memory) .idle (commands s.history) = some d
  isExecuting : d.isExecuting = true
  isRendering : d.isRendering = s.isRendering
  outputs : d.outputs = p.outputs
  frame : p.toFrame = s.frame
  bindings : d.toBindings = p.bindings
  resources : ResourcesMatch memory d.pushed p.resources s.resourceBufferPerStageArray
    s.needResourceUpdate

/-- Some device has. -/
def Shows (memory : BitVec 64 → ResourceBuffer) (s : Recording) (p : Immediate) : Prop :=
  ∃ d, Matches memory d s p

/-- The memory holds what was copied into the slots. -/
def Covers (memory : BitVec 64 → ResourceBuffer) (s : Recording) : Prop :=
  ∀ slot table, .write slot table ∈ s.history →
    memory (slotAddress s.resourceBufferAddress slot) = table

theorem Covers.of_isPrefix (h : Covers memory t) (hhistory : s.history <+: t.history)
    (haddress : t.resourceBufferAddress = s.resourceBufferAddress) : Covers memory s := by
  intro slot table hmem
  rw [← haddress]
  exact h slot table (hhistory.subset hmem)

/-- Two calls that leave behind the same are shown by the same device. -/
theorem Matches.congr (h : Matches memory d s p) (houtputs : q.outputs = p.outputs)
    (hframe : q.toFrame = t.frame) (hbindings : q.bindings = p.bindings)
    (hresources : q.resources = p.resources) (hhistory : commands t.history = commands s.history)
    (hrendering : t.isRendering = s.isRendering)
    (htables : t.resourceBufferPerStageArray = s.resourceBufferPerStageArray)
    (hneed : t.needResourceUpdate = s.needResourceUpdate) : Matches memory d t q where
  executed := by rw [hhistory]; exact h.executed
  isExecuting := h.isExecuting
  isRendering := h.isRendering.trans hrendering.symm
  outputs := h.outputs.trans houtputs.symm
  frame := hframe
  bindings := h.bindings.trans hbindings.symm
  resources := by rw [hresources, htables, hneed]; exact h.resources

/-! ### Recorded commands -/

/-- Commands that the device executes after those before them. -/
theorem Matches.record (h : Matches memory d s p) (cs : List Command)
    (hrun : Machine.run (Device.next memory) d cs = some e)
    (hhistory : commands t.history = commands s.history ++ cs) (hexecuting : e.isExecuting = true)
    (hrendering : e.isRendering = t.isRendering) (houtputs : e.outputs = q.outputs)
    (hframe : q.toFrame = t.frame) (hbindings : e.toBindings = q.bindings)
    (hpushed : e.pushed = d.pushed) (hresources : q.resources = p.resources)
    (htables : t.resourceBufferPerStageArray = s.resourceBufferPerStageArray)
    (hneed : t.needResourceUpdate = s.needResourceUpdate) : Matches memory e t q where
  executed := by
    rw [hhistory, Machine.run_append, h.executed]
    exact hrun
  isExecuting := hexecuting
  isRendering := hrendering
  outputs := houtputs
  frame := hframe
  bindings := hbindings
  resources := by rw [hpushed, hresources, htables, hneed]; exact h.resources

theorem Matches.run_singleton {c : Command} (h : Matches memory d s p) :
    Machine.run (Device.next memory) d [c] = d.execute memory c := by
  rw [Machine.run_cons, Device.next_of_isExecuting h.isExecuting]
  simp

theorem run_setDynamicStates (memory : BitVec 64 → ResourceBuffer) {d : Device ResourceBuffer}
    (h : d.isExecuting = true) (states : List DynamicState) :
    Machine.run (Device.next memory) d (states.map .setDynamicState) =
      some { d with dynamicStates := states.foldl DynamicStates.set d.dynamicStates } := by
  induction states generalizing d with
  | nil => rfl
  | cons state states ih =>
      rw [List.map_cons, Machine.run_cons, Device.next_of_isExecuting h]
      exact ih h

theorem setDynamicStates_eq (s : Recording) (states : List DynamicState) :
    s.setDynamicStates states =
      { s with history := s.history ++
          (states.map .setDynamicState).map fun c => .command c s.isRendering } := by
  induction states generalizing s with
  | nil => simp [setDynamicStates]
  | cons state states ih =>
      have hrest := ih (s.emit (.setDynamicState state))
      rw [setDynamicStates, List.foldl_cons]
      refine hrest.trans ?_
      simp [emit]

/-- The dynamic states of the calls are set one after another. -/
theorem Shows.setDynamicStates (h : Shows memory s p) (states : List DynamicState)
    (houtputs : q.outputs = p.outputs) (hframe : q.toFrame = p.toFrame)
    (hbindings : q.bindings =
      { p.bindings with dynamicStates := states.foldl DynamicStates.set p.dynamicStates })
    (hresources : q.resources = p.resources) : Shows memory (s.setDynamicStates states) q := by
  obtain ⟨d, h⟩ := h
  have hrun := run_setDynamicStates memory h.isExecuting states
  rw [setDynamicStates_eq]
  refine ⟨_, h.record _ hrun ?_ h.isExecuting h.isRendering (h.outputs.trans houtputs.symm)
    (hframe.trans h.frame) ?_ rfl hresources rfl rfl⟩
  · rw [commands_append, commands_map_command]
  · rw [hbindings, ← h.bindings]
    have hdynamic : p.dynamicStates = d.dynamicStates :=
      (congrArg Bindings.dynamicStates h.bindings).symm
    rw [hdynamic]

/-! ### Passes -/

theorem Shows.endRenderingIfRendering (h : Shows memory s p) :
    Shows memory s.endRenderingIfRendering p.endPass := by
  obtain ⟨d, h⟩ := h
  have hframe : p.endPass.toFrame = s.endRenderingIfRendering.frame := by
    unfold Recording.endRenderingIfRendering
    split
    · change { p.toFrame with inPass := false } = _
      rw [h.frame]
      rfl
    · next hclosed =>
      change { p.toFrame with inPass := false } = _
      rw [h.frame]
      simp [Recording.frame, hclosed]
  unfold Recording.endRenderingIfRendering at hframe ⊢
  split at hframe
  next hopen =>
    rw [if_pos hopen]
    have hdevice : d.isRendering = true := h.isRendering.trans hopen
    refine ⟨{ d with isRendering := false }, h.record [.endRendering] ?_ ?_ h.isExecuting rfl
      h.outputs hframe h.bindings rfl rfl rfl rfl⟩
    · rw [h.run_singleton, Device.execute, if_pos hdevice]
    · exact commands_append _ _
  next hclosed =>
    rw [if_neg hclosed]
    exact ⟨d, h.congr rfl hframe rfl rfl rfl rfl rfl rfl⟩

theorem attachment_loadOp (imageView : Handle) (layout : Word) (fastClear : Bool)
    (value : ClearValue) :
    RenderingAttachmentInfo.attachment ⟨imageView, layout, loadOp fastClear, value⟩ =
      ⟨imageView, if fastClear then some value else none⟩ := by
  cases fastClear with
  | false => rfl
  | true => rfl

/-- A scope that begins is the pass that the calls ask for. -/
theorem renderingInfo_pass (s : Recording) : s.renderingInfo.pass = s.frame.pass := by
  have hcolor : s.renderingInfo.pass.color = s.frame.pass.color := by
    change (s.colorAttachments (List.ofFn s.colorTargets)).map (·.attachment) = _
    rw [colorAttachments_eq, List.map_map]
    refine List.map_congr_left fun target _ => (attachment_loadOp ..).trans ?_
    congr 1
    simp only [Recording.frame]
    split <;> rfl
  have hdepth : s.renderingInfo.pass.depthStencil = s.frame.pass.depthStencil := by
    change (s.depthStencilTarget.map s.depthStencilAttachment).map (·.attachment) = _
    rw [Option.map_map]
    refine Option.map_congr fun target _ => (attachment_loadOp ..).trans ?_
    congr 1
    simp only [Recording.frame]
    split <;> rfl
  calc s.renderingInfo.pass
      = ⟨_, _, s.renderingInfo.pass.color, s.renderingInfo.pass.depthStencil⟩ := rfl
    _ = s.frame.pass := by rw [hcolor, hdepth]; rfl

theorem Matches.inPass_eq (h : Matches memory d s p) :
    p.inPass = (s.isRendering && !s.areNewTargets) :=
  congrArg Frame.inPass h.frame

theorem endPass_of_not_inPass (h : p.inPass = false) : p.endPass = p := by
  rw [Immediate.endPass, ← h]

theorem enterPass_of_not_inPass (h : p.inPass = false) :
    p.enterPass = ({ p with inPass := true }).put (.pass p.toFrame.pass) := by
  rw [Immediate.enterPass, if_neg (by simp [h])]

theorem Shows.beginRendering (h : Shows memory s p) (hclosed : s.isRendering = false) :
    Shows memory ({ s with areNewTargets := false } : Recording).beginRendering p.enterPass := by
  obtain ⟨d, h⟩ := h
  have hinPass : p.inPass = false := by rw [h.inPass_eq, hclosed, Bool.false_and]
  have hdevice : d.isRendering = false := h.isRendering.trans hclosed
  rw [enterPass_of_not_inPass hinPass]
  let info := ({ s with areNewTargets := false } : Recording).renderingInfo
  refine ⟨({ d with isRendering := true } : Device ResourceBuffer).put (.pass info.pass),
    h.record [.beginRendering info] ?_ ?_ h.isExecuting rfl ?_ ?_ h.bindings rfl rfl rfl
      rfl⟩
  · rw [h.run_singleton, Device.execute, if_neg (by simp [hdevice])]
  · exact commands_append _ _
  · have hpass : info.pass = p.toFrame.pass := by
      rw [renderingInfo_pass, h.frame]
      rfl
    rw [hpass]
    exact congrArg (· ++ [Output.pass p.toFrame.pass]) h.outputs
  · change { p.toFrame with inPass := true } = _
    rw [h.frame]
    rfl

/-- A draw begins a pass unless it belongs to the one before it. -/
theorem Shows.beginRenderingIfNotRendering (h : Shows memory s p) :
    Shows memory s.beginRenderingIfNotRendering p.enterPass := by
  obtain ⟨d, hmatches⟩ := id h
  have hinPass := hmatches.inPass_eq
  unfold Recording.beginRenderingIfNotRendering
  split
  next hnew =>
    rw [hnew, Bool.not_true, Bool.and_false] at hinPass
    have hend : ({ s with areNewTargets := false } : Recording).endRenderingIfRendering =
        { s.endRenderingIfRendering with areNewTargets := false } := by
      unfold Recording.endRenderingIfRendering
      split <;> rfl
    have hclosed := h.endRenderingIfRendering
    rw [endPass_of_not_inPass hinPass] at hclosed
    rw [hend]
    exact hclosed.beginRendering endRenderingIfRendering_isRendering
  next hold =>
    rw [Bool.eq_false_iff.mpr hold, Bool.not_false, Bool.and_true] at hinPass
    split
    next hopen =>
      rw [Immediate.enterPass, if_pos (hinPass.trans hopen)]
      exact h
    next hclosed =>
      have hsame : ({ s with areNewTargets := false } : Recording) = s := by
        rw [← Bool.eq_false_iff.mpr hold]
      have hbegun := h.beginRendering (Bool.eq_false_iff.mpr hclosed)
      rw [hsame] at hbegun
      exact hbegun

/-! ### Single commands -/

/-- A command that leaves the scope and the frame as they are. -/
theorem Matches.emit {c : Command} (h : Matches memory d s p)
    (hexecute : d.execute memory c = some e) (hexecuting : e.isExecuting = d.isExecuting)
    (hrendering : e.isRendering = d.isRendering) (houtputs : e.outputs = q.outputs)
    (hframe : q.toFrame = p.toFrame) (hbindings : e.toBindings = q.bindings)
    (hpushed : e.pushed = d.pushed) (hresources : q.resources = p.resources) :
    Matches memory e (s.emit c) q :=
  h.record [c] (h.run_singleton.trans hexecute) (commands_append _ _)
    (hexecuting.trans h.isExecuting) (hrendering.trans h.isRendering) houtputs
    (hframe.trans h.frame) hbindings hpushed hresources rfl rfl

/-- A command that the device takes without a trace. -/
theorem Shows.emit_silent {c : Command} (h : Shows memory s p)
    (hexecute : ∀ d : Device ResourceBuffer, d.isRendering = s.isRendering →
      d.execute memory c = some d) : Shows memory (s.emit c) p := by
  obtain ⟨d, h⟩ := h
  exact ⟨d, h.emit (hexecute d h.isRendering) rfl rfl h.outputs rfl h.bindings rfl rfl⟩

theorem Shows.bind {c : Command} (h : Shows memory s p) (bindings : Bindings → Bindings)
    (hexecute : ∀ d : Device ResourceBuffer,
      d.execute memory c = some { d with toBindings := bindings d.toBindings })
    (houtputs : q.outputs = p.outputs) (hframe : q.toFrame = p.toFrame)
    (hbindings : q.bindings = bindings p.bindings) (hresources : q.resources = p.resources) :
    Shows memory (s.emit c) q := by
  obtain ⟨d, h⟩ := h
  refine ⟨_, h.emit (hexecute d) rfl rfl (h.outputs.trans houtputs.symm) hframe ?_ rfl hresources⟩
  rw [hbindings, ← h.bindings]

/-- A clear, which the device shows. -/
theorem Shows.emit_put {c : Command} (h : Shows memory s p) (output : Output ResourceBuffer)
    (hclosed : s.isRendering = false)
    (hexecute : ∀ d : Device ResourceBuffer, d.isRendering = false →
      d.execute memory c = some (d.put output)) : Shows memory (s.emit c) (p.put output) := by
  obtain ⟨d, h⟩ := h
  exact ⟨_, h.emit (hexecute d (h.isRendering.trans hclosed)) rfl rfl
    (congrArg (· ++ [output]) h.outputs) rfl h.bindings rfl rfl⟩

theorem Shows.congr (h : Shows memory s p) (houtputs : q.outputs = p.outputs)
    (hframe : q.toFrame = t.frame) (hbindings : q.bindings = p.bindings)
    (hresources : q.resources = p.resources) (hhistory : commands t.history = commands s.history)
    (hrendering : t.isRendering = s.isRendering)
    (htables : t.resourceBufferPerStageArray = s.resourceBufferPerStageArray)
    (hneed : t.needResourceUpdate = s.needResourceUpdate) : Shows memory t q := by
  obtain ⟨d, h⟩ := h
  exact ⟨d, h.congr houtputs hframe hbindings hresources hhistory hrendering htables hneed⟩

theorem Shows.frame (h : Shows memory s p) : p.toFrame = s.frame := by
  obtain ⟨d, h⟩ := h
  exact h.frame

theorem Shows.enter (h : Shows memory s p) (c : Call) : Shows memory (s.enter c) p :=
  h.congr rfl h.frame rfl rfl ((commands_append _ _).trans (List.append_nil _)) rfl rfl rfl

/-! ### Relocation and transitions -/

theorem Shows.relocateHostMemoryToDevice (h : Shows memory s p) (hclosed : s.isRendering = false)
    (pool : ℕ) : Shows memory (s.relocateHostMemoryToDevice pool) p := by
  unfold Recording.relocateHostMemoryToDevice
  split
  next =>
    have hcopied := h.emit_silent (c := .copyBuffer (.stagingHostBuffer pool)
      (.stagingDeviceBuffer pool) (s.memoryPools pool).size) fun d hd => by
        rw [Device.execute, if_neg (by simp [hd, hclosed])]
    have hbarrier := hcopied.emit_silent (c := .bufferBarrier
      ⟨0, 0, pipelineStageAllCommandsBit, accessShaderReadBit⟩ (.stagingDeviceBuffer pool))
        fun d hd => by rw [Device.execute, if_neg (by simp [hd, hclosed])]
    exact hbarrier.congr rfl hbarrier.frame rfl rfl rfl rfl rfl rfl
  next => exact h

theorem Shows.relocateIfRequired (h : Shows memory s p) (buffer : ℕ) :
    Shows memory (s.relocateIfRequired buffer) (p.useBuffer buffer) := by
  have hflag : p.objects.requiresRelocation buffer = (s.buffers buffer).requiresRelocation :=
    congrArg (fun f : Frame => f.objects.requiresRelocation buffer) h.frame
  rw [Immediate.useBuffer, hflag]
  split
  next hrequired =>
    rw [relocateIfRequired_of_set hrequired]
    exact h.endRenderingIfRendering.relocateHostMemoryToDevice
      endRenderingIfRendering_isRendering _
  next hclear =>
    rw [relocateIfRequired_of_clear (Bool.eq_false_iff.mpr hclear)]
    exact h

theorem Shows.setTextureStateTransition (h : Shows memory s p) (texture : ℕ)
    (barrierState : TextureBarrierCmdState) (aspectMask : Word)
    (houtside : s.isRendering = true →
      barrierState.barrier.dstStageMask = pipelineStageBottomOfPipeBit) :
    Shows memory (s.setTextureStateTransition texture barrierState aspectMask)
      (if barrierState.barrier.dstStageMask = pipelineStageBottomOfPipeBit then p.endPass
        else p) := by
  have htransition {s : Recording} {p : Immediate} (h : Shows memory s p)
      (hclosed : s.isRendering = false) :
      Shows memory { s.emit (.imageBarrier barrierState.barrier barrierState.srcLayout
          barrierState.dstLayout (s.textures texture).image aspectMask) with
        textures := Function.update s.textures texture
          { s.textures texture with imageLayout := barrierState.dstLayout } } p := by
    have hemitted := h.emit_silent (c := .imageBarrier barrierState.barrier barrierState.srcLayout
      barrierState.dstLayout (s.textures texture).image aspectMask) fun d hd => by
        rw [Device.execute, if_neg (by simp [hd, hclosed])]
    refine hemitted.congr rfl ?_ rfl rfl rfl rfl rfl rfl
    have himage : (fun n => (Function.update s.textures texture
        { s.textures texture with imageLayout := barrierState.dstLayout } n).image) =
        fun n => (s.textures n).image := by
      funext n
      rw [Function.update_apply]
      split
      next heq => rw [heq]
      next => rfl
    rw [hemitted.frame]
    unfold Recording.frame
    rw [himage]
    rfl
  unfold Recording.setTextureStateTransition
  split
  next => exact htransition h.endRenderingIfRendering endRenderingIfRendering_isRendering
  next hmask => exact htransition h (Bool.eq_false_iff.mpr fun hopen => hmask (houtside hopen))

/-! ### Resources -/

section Resources

variable {pushed : Word → Option (BitVec 64)} {resources : Word → Option ResourceBuffer}
  {tables : Fin 6 → ResourceBuffer} {need : Fin 6 → Bool}

theorem stageBit_ne {stage other : Fin 6} (h : other ≠ stage) : stageBit other ≠ stageBit stage :=
  fun heq => h (stageBit_injective heq)

/-- The address of a copy of the table is pushed for a stage that waits. -/
theorem ResourcesMatch.push (h : ResourcesMatch memory pushed resources tables need)
    {stage : Fin 6} {address : BitVec 64} (hneed : need stage = true)
    (hheld : memory address = tables stage) :
    ResourcesMatch memory (Function.update pushed (stageBit stage) (some address)) resources tables
      (Function.update need stage false) where
  table := h.table
  changed := by
    intro other hother
    rw [Function.update_apply] at hother
    split at hother
    · cases hother
    · exact h.changed other hother
  current := by
    intro other hother
    by_cases heq : other = stage
    · obtain ⟨table, hsome⟩ := Option.ne_none_iff_exists'.mp (h.changed stage hneed)
      have htable := h.table stage
      rw [hsome] at htable
      rw [heq, Function.update_self, Option.map_some, hheld, hsome, ← htable]
      rfl
    · rw [Function.update_of_ne heq] at hother
      rw [Function.update_of_ne (stageBit_ne heq)]
      exact h.current other hother
  other := by
    intro flags hflags
    rw [Function.update_of_ne (hflags stage)]
    exact h.other flags hflags

/-- The table of a stage is replaced, and the stage waits. -/
theorem ResourcesMatch.change (h : ResourcesMatch memory pushed resources tables need)
    (stage : Fin 6) (table : ResourceBuffer) :
    ResourcesMatch memory pushed (Function.update resources (stageBit stage) (some table))
      (Function.update tables stage table) (Function.update need stage true) where
  table := by
    intro other
    by_cases heq : other = stage
    · rw [heq, Function.update_self, Function.update_self, Option.getD_some]
    · rw [Function.update_of_ne (stageBit_ne heq), Function.update_of_ne heq]
      exact h.table other
  changed := by
    intro other hother
    by_cases heq : other = stage
    · rw [heq, Function.update_self]
      exact Option.some_ne_none table
    · rw [Function.update_of_ne heq] at hother
      rw [Function.update_of_ne (stageBit_ne heq)]
      exact h.changed other hother
  current := by
    intro other hother
    by_cases heq : other = stage
    · rw [heq, Function.update_self] at hother
      cases hother
    · rw [Function.update_of_ne heq] at hother
      rw [Function.update_of_ne (stageBit_ne heq)]
      exact h.current other hother
  other := by
    intro flags hflags
    rw [Function.update_of_ne (hflags stage)]
    exact h.other flags hflags

end Resources

theorem Matches.flush {block : UpdateBlock} (hblock : UpdateBlock.Matches block)
    (h : Matches memory d s p) (hneed : s.needResourceUpdate block.flag = true)
    (hcovers : Covers memory (s.flush block)) :
    Matches memory ({ d with
      pushed := Function.update d.pushed block.stageFlags
        (some (slotAddress s.resourceBufferAddress s.resourceUpdateCount)) } :
        Device ResourceBuffer) (s.flush block) p where
  executed := by
    have hhistory : commands (s.flush block).history = commands s.history ++
        [.pushConstants block.stageFlags block.offset
          (slotAddress s.resourceBufferAddress s.resourceUpdateCount)] := by
      change commands (s.history ++ [_] ++ [_]) = _
      rw [commands_append, commands_append]
      exact congrArg (· ++ _) (List.append_nil _)
    rw [hhistory, Machine.run_append, h.executed]
    exact h.run_singleton
  isExecuting := h.isExecuting
  isRendering := h.isRendering
  outputs := h.outputs
  frame := h.frame
  bindings := h.bindings
  resources := by
    have hwritten : .write s.resourceUpdateCount (s.resourceBufferPerStageArray block.stage) ∈
        (s.flush block).history :=
      List.mem_append_left _ (List.mem_append_right _ List.mem_cons_self)
    have hheld := hcovers _ _ hwritten
    rw [hblock.flag] at hneed
    change ResourcesMatch memory (Function.update d.pushed block.stageFlags _) p.resources
      s.resourceBufferPerStageArray (Function.update s.needResourceUpdate block.flag false)
    rw [hblock.stageFlags, hblock.flag]
    exact h.resources.push hneed hheld

theorem Shows.foldl_flushIfNeeded {blocks : List UpdateBlock}
    (hblocks : ∀ block ∈ blocks, UpdateBlock.Matches block) (h : Shows memory s p)
    (hcovers : Covers memory (blocks.foldl flushIfNeeded s)) :
    Shows memory (blocks.foldl flushIfNeeded s) p := by
  induction blocks generalizing s with
  | nil => exact h
  | cons block blocks ih =>
      rw [List.forall_mem_cons] at hblocks
      have hrest := updated_foldl hblocks.2 (s.flushIfNeeded block)
      have hblock : Covers memory (s.flushIfNeeded block) :=
        Covers.of_isPrefix hcovers hrest.history hrest.memory.resourceBufferAddress
      refine ih hblocks.2 ?_ hcovers
      rw [flushIfNeeded] at hblock ⊢
      split at hblock
      next hneed =>
        obtain ⟨d, h⟩ := h
        rw [if_pos hneed]
        exact ⟨_, h.flush hblocks.1 hneed hblock⟩
      next hneed =>
        rw [if_neg hneed]
        exact h

/-- After the update the device has the resources that the calls asked for. -/
structure UpToDate (memory : BitVec 64 → ResourceBuffer) (s : Recording) (p : Immediate) : Prop
    where
  shows : Shows memory s p
  needResourceUpdate : ∀ stage, s.needResourceUpdate stage = false

theorem Shows.updateResourceBufferIfNecessary (h : Shows memory s p)
    (hupdate : s.updateResourceBufferIfNecessary = .ok t) (hcovers : Covers memory t) :
    UpToDate memory t p := by
  refine ⟨?_, (updated_of_eq_ok hupdate).2⟩
  rw [updateResourceBufferIfNecessary_eq_ok hupdate] at hcovers ⊢
  exact h.foldl_flushIfNeeded updateBlocks_matches hcovers

theorem Matches.drawState_eq (h : Matches memory d s p)
    (hneed : ∀ stage, s.needResourceUpdate stage = false) : d.drawState memory = p.drawState := by
  have hresources : (fun flags => (d.pushed flags).map memory) = p.resources := by
    funext flags
    by_cases hflags : ∃ stage, flags = stageBit stage
    · obtain ⟨stage, rfl⟩ := hflags
      exact h.resources.current stage (hneed stage)
    · exact h.resources.other flags fun stage heq => hflags ⟨stage, heq⟩
  rw [Device.drawState, Immediate.drawState, h.bindings, hresources]

theorem Shows.changeTable (h : Shows memory s p) (stage : Fin 6) {table : ResourceBuffer}
    (hne : table ≠ s.resourceBufferPerStageArray stage) :
    Shows memory (s.setResources stage table) (p.changeTable stage table) := by
  obtain ⟨d, h⟩ := h
  have htable : p.table stage = s.resourceBufferPerStageArray stage := h.resources.table stage
  rw [Immediate.changeTable, if_neg (htable.symm ▸ hne)]
  exact ⟨d, h.executed, h.isExecuting, h.isRendering, h.outputs, h.frame, h.bindings,
    h.resources.change stage table⟩

/-- What the three setters share. -/
theorem Shows.setResource {n : ℕ} {location : Word} {shaderStage : ShaderStage}
    {same : Fin 6 → Fin n → Prop} [∀ stage i, Decidable (same stage i)] (h : Shows memory s p)
    (change : Fin n → ResourceBuffer → ResourceBuffer)
    (hsame : ∀ stage i, same stage i ↔
      change i (s.resourceBufferPerStageArray stage) = s.resourceBufferPerStageArray stage)
    (hset : (do
      let stage ← stageIndex shaderStage
      let i ← locationIndex n location
      if same stage i then .ok s
      else .ok (s.setResources stage (change i (s.resourceBufferPerStageArray stage)))) = .ok t) :
    Shows memory t (p.setResource n location shaderStage change) := by
  obtain ⟨stage, hstage, hset⟩ := bind_eq_ok_iff.mp hset
  obtain ⟨i, hi, hset⟩ := bind_eq_ok_iff.mp hset
  unfold stageIndex at hstage
  unfold locationIndex at hi
  split at hstage
  case isFalse => cases hstage
  case isTrue hstageBound =>
    split at hi
    case isFalse => cases hi
    case isTrue hlocation =>
      have htable : p.table stage = s.resourceBufferPerStageArray stage := by
        obtain ⟨d, h⟩ := id h
        exact h.resources.table stage
      rw [Immediate.setResource, dif_pos hstageBound, dif_pos hlocation, Except.ok.inj hstage,
        Except.ok.inj hi, htable]
      split at hset
      next heq =>
        rw [Immediate.changeTable, if_pos (((hsame stage i).mp heq).trans htable.symm)]
        exact Except.ok.inj hset ▸ h
      next hne =>
        rw [← Except.ok.inj hset]
        exact h.changeTable stage fun heq => hne ((hsame stage i).mpr heq)

end Recording

end DDFramework
