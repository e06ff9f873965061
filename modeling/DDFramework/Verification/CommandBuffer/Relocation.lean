import DDFramework.Library.Machine
import DDFramework.Library.Trace
import DDFramework.Verification.CommandBuffer.Calls

/-! # Relocation of memory pools

A pool is copied once, before its buffers are used. `Relocate` leaves the flag of the buffer set,
so every use of the buffer relocates again. -/

namespace DDFramework

open Vulkan Trace

/-- The buffer that a call uses. -/
def Call.usedBuffer : Call → Option ℕ
  | .drawIndexed _ _ indexBuffer _ _ => some indexBuffer
  | .drawInstancedIndexed _ _ indexBuffer _ _ _ _ => some indexBuffer
  | .setVertexBuffer _ vertexBuffer _ _ => some vertexBuffer
  | .setBufferStateTransition buffer _ => some buffer
  | _ => none

namespace RecordingEvent

def IsCall : RecordingEvent → Prop
  | .call _ => True
  | _ => False

/-- A command with the buffer that the latest call uses. -/
def UsesBuffer : RecordingEvent → Prop
  | .command (.bindVertexBuffers ..) _ => True
  | .command (.bindIndexBuffer ..) _ => True
  | .command (.bufferBarrier _ (.buffer _)) _ => True
  | _ => False

/-- The host memory of `pool` is copied to the device. -/
def copies (pool : ℕ) : RecordingEvent → Bool
  | .command (.copyBuffer source destination _) _ =>
      source = .stagingHostBuffer pool && destination = .stagingDeviceBuffer pool
  | _ => false

/-- An event that has no part in relocation. -/
structure Plain (e : RecordingEvent) : Prop where
  not_call : ¬ e.IsCall
  not_use : ¬ e.UsesBuffer
  not_copy : ∀ pool, e.copies pool = false

end RecordingEvent

open RecordingEvent

namespace Recording

/-- The flag of a pool. -/
def requires (s : Recording) (pool : ℕ) : Bool := (s.memoryPools pool).requiresRelocation

/-- The pool of a buffer. -/
def poolOf (s : Recording) (buffer : ℕ) : ℕ := (s.buffers buffer).boundMemoryPool

/-- A buffer has the flag of its pool from `Initialize`, and the flag of a pool only falls. -/
def BuffersBound (s : Recording) : Prop :=
  ∀ buffer, s.requires (s.poolOf buffer) = true → (s.buffers buffer).requiresRelocation = true

/-- A buffer of a pool that required relocation in `s` is used after the copy of the pool. -/
def UseRule (s : Recording) (before : List RecordingEvent) (e : RecordingEvent) : Prop :=
  e.UsesBuffer → ∀ c buffer, Since IsCall (· = .call c) before → c.usedBuffer = some buffer →
    s.requires (s.poolOf buffer) = true → ∃ x ∈ before, x.copies (s.poolOf buffer) = true

/-- The step calls `Relocate` on the buffer. -/
def Relocates (s : Recording) (step : Step) (buffer : ℕ) : Prop :=
  ∃ c, step = .call c ∧ c.usedBuffer = some buffer ∧
    (s.buffers buffer).requiresRelocation = true

/-- After a step that relocates a buffer its flag is clear, and a use of the buffer leaves the
state as it is before the command that it records. -/
def StaysRelocated (s : Recording) (steps : List Step) : Prop :=
  ∀ before step after t u buffer, before ++ step :: after <+: steps →
    Machine.run next s before = some t → t.Relocates step buffer →
    Machine.run next s (before ++ step :: after) = some u →
    (u.buffers buffer).requiresRelocation = false ∧
      ∀ c : Call, c.usedBuffer = some buffer →
        (u.enter c).relocateIfRequired buffer = u.enter c

/-- Relocation happens once. -/
structure RelocatesOnce (s : Recording) (steps : List Step) : Prop where
  copiedOnce : Machine.Always next
    (fun t => ∀ pool, t.history.countP (RecordingEvent.copies pool) ≤ 1) s steps
  copiedBefore : Machine.Always next (fun t => Everywhere (UseRule s) t.history) s steps
  staysRelocated : StaysRelocated s steps

theorem buffersBound_of_initialize {s : Recording}
    (h : ∀ buffer, ∃ handle pool,
      s.buffers buffer = Buffer.initialize handle pool (s.memoryPools pool)) :
    BuffersBound s := by
  intro buffer hpool
  obtain ⟨handle, pool, hbuffer⟩ := h buffer
  rw [poolOf, hbuffer] at hpool
  rw [hbuffer]
  exact hpool

variable {s₀ s t : Recording}

/-! ### Plain steps -/

/-- A step with no part in relocation. -/
inductive PlainStep (s t : Recording) : Prop
  | event {e : RecordingEvent} (memoryPools : t.memoryPools = s.memoryPools)
      (buffers : t.buffers = s.buffers) (history : t.history = s.history ++ [e]) (plain : e.Plain)
  | adjust (memoryPools : t.memoryPools = s.memoryPools) (buffers : t.buffers = s.buffers)
      (history : t.history = s.history)

abbrev PlainSteps : Recording → Recording → Prop := Relation.ReflTransGen PlainStep

theorem PlainSteps.memoryPools (h : PlainSteps s t) : t.memoryPools = s.memoryPools := by
  induction h with
  | refl => rfl
  | tail _ hstep ih =>
      cases hstep with
      | event hpools => exact hpools.trans ih
      | adjust hpools => exact hpools.trans ih

theorem PlainSteps.emit {c : Command} (h : PlainSteps s t)
    (hc : Plain (.command c t.isRendering)) : PlainSteps s (t.emit c) :=
  h.tail (.event rfl rfl rfl hc)

theorem plainSteps_setDynamicStates (states : List DynamicState) :
    PlainSteps s (s.setDynamicStates states) := by
  induction states generalizing s with
  | nil => exact .refl
  | cons state states ih =>
      have hstate : PlainSteps s (s.emit (.setDynamicState state)) :=
        PlainSteps.emit .refl ⟨id, id, fun _ => rfl⟩
      exact hstate.trans ih

theorem plainSteps_endRenderingIfRendering : PlainSteps s s.endRenderingIfRendering := by
  unfold endRenderingIfRendering
  split
  · exact .single (.event rfl rfl rfl ⟨id, id, fun _ => rfl⟩)
  · exact .refl

theorem plainSteps_beginRendering : PlainSteps s s.beginRendering :=
  .single (.event rfl rfl rfl ⟨id, id, fun _ => rfl⟩)

theorem plainSteps_beginRenderingIfNotRendering :
    PlainSteps s s.beginRenderingIfNotRendering := by
  unfold beginRenderingIfNotRendering
  split
  · have hflag : PlainSteps s { s with areNewTargets := false } := .single (.adjust rfl rfl rfl)
    exact (hflag.trans plainSteps_endRenderingIfRendering).trans plainSteps_beginRendering
  · split
    · exact .refl
    · exact plainSteps_beginRendering

theorem plainSteps_setTextureStateTransition (texture : ℕ) (barrierState : TextureBarrierCmdState)
    (aspectMask : Word) :
    PlainSteps s (s.setTextureStateTransition texture barrierState aspectMask) := by
  have hend : PlainSteps s
      (if barrierState.barrier.dstStageMask = pipelineStageBottomOfPipeBit then
        s.endRenderingIfRendering else s) := by
    split
    · exact plainSteps_endRenderingIfRendering
    · exact .refl
  exact (hend.emit ⟨id, id, fun _ => rfl⟩).tail (.adjust rfl rfl rfl)

theorem plainSteps_flush (block : UpdateBlock) : PlainSteps s (s.flush block) := by
  have hcopy : PlainSteps s (s.copyResources block.stage) :=
    .single (.event rfl rfl rfl ⟨id, id, fun _ => rfl⟩)
  exact (hcopy.emit ⟨id, id, fun _ => rfl⟩).tail (.adjust rfl rfl rfl)

theorem plainSteps_updateResourceBufferIfNecessary
    (h : s.updateResourceBufferIfNecessary = .ok t) : PlainSteps s t :=
  updateResourceBufferIfNecessary_keeps
    (fun block hsteps => hsteps.trans (plainSteps_flush block)) .refl h

/-! ### Calls -/

/-- What a call does with a buffer. -/
inductive Usage (c : Call) (s t : Recording) : Prop
  | none (used : c.usedBuffer = none) (steps : PlainSteps (s.enter c) t)
  | use (buffer : ℕ) (before : Recording) (command : Command) (used : c.usedBuffer = some buffer)
      (steps : PlainSteps ((s.enter c).relocateIfRequired buffer) before)
      (uses : UsesBuffer (.command command before.isRendering))
      (rest : PlainSteps (before.emit command) t)

theorem plainSteps_drawVertices
    {topology vertexCount instanceCount baseVertex baseInstance : Word}
    (h : s.drawVertices topology vertexCount instanceCount baseVertex baseInstance = .ok t) :
    PlainSteps s t := by
  obtain ⟨u, hu, h⟩ := bind_eq_ok_iff.mp h
  rw [← Except.ok.inj h]
  have hbegun : PlainSteps s u.beginRenderingIfNotRendering :=
    (plainSteps_updateResourceBufferIfNecessary hu).trans plainSteps_beginRenderingIfNotRendering
  exact (hbegun.emit ⟨id, id, fun _ => rfl⟩).emit ⟨id, id, fun _ => rfl⟩

theorem usage_drawIndices {c : Call} {topology indexFormat : Word} {indexBuffer : ℕ}
    {indexCount instanceCount baseIndex baseInstance : Word}
    (hc : c.usedBuffer = some indexBuffer)
    (h : (s.enter c).drawIndices topology indexFormat indexBuffer indexCount instanceCount baseIndex
      baseInstance = .ok t) :
    Usage c s t := by
  obtain ⟨u, hu, h⟩ := bind_eq_ok_iff.mp h
  rw [← Except.ok.inj h]
  have hbegun := (plainSteps_updateResourceBufferIfNecessary hu).trans
    plainSteps_beginRenderingIfNotRendering
  refine .use indexBuffer _
    (.bindIndexBuffer (u.beginRenderingIfNotRendering.buffers indexBuffer).buffer 0 indexFormat)
    hc hbegun trivial ?_
  exact (PlainSteps.emit .refl ⟨id, id, fun _ => rfl⟩).emit ⟨id, id, fun _ => rfl⟩

theorem plainSteps_setResources (h : t = s ∨ ∃ stage table, t = s.setResources stage table) :
    PlainSteps s t := by
  rcases h with rfl | ⟨stage, table, rfl⟩
  · exact .refl
  · exact .single (.adjust rfl rfl rfl)

/-- A clear ends the scope and puts a barrier behind its command. -/
theorem plainSteps_clear {c : Command} (hc : ∀ isRendering, Plain (.command c isRendering))
    (texture : ℕ) (barrierState : TextureBarrierCmdState) (aspectMask : Word) :
    PlainSteps s ((s.endRenderingIfRendering.emit c).setTextureStateTransition texture
      barrierState aspectMask) :=
  (plainSteps_endRenderingIfRendering.emit (hc _)).trans (plainSteps_setTextureStateTransition ..)

theorem call_usage {c : Call} (h : s.call c = .ok t) : Usage c s t := by
  have plain {u : Recording} (hu : .ok u = (.ok t : Except Fault Recording))
      (hsteps : PlainSteps (s.enter c) u) (hc : c.usedBuffer = none) : Usage c s t :=
    Except.ok.inj hu ▸ .none hc hsteps
  cases c with
  | clearColorTarget => exact plain h (plainSteps_clear (fun _ => ⟨id, id, fun _ => rfl⟩) ..) rfl
  | clearDepthStencilTarget =>
      exact plain h (plainSteps_clear (fun _ => ⟨id, id, fun _ => rfl⟩) ..) rfl
  | registerFastClearColor => exact plain h (.single (.adjust rfl rfl rfl)) rfl
  | registerFastClearDepthStencil => exact plain h (.single (.adjust rfl rfl rfl)) rfl
  | draw => exact .none rfl (plainSteps_drawVertices h)
  | drawIndexed => exact usage_drawIndices rfl h
  | drawInstanced => exact .none rfl (plainSteps_drawVertices h)
  | drawInstancedIndexed => exact usage_drawIndices rfl h
  | setShader => exact plain h (PlainSteps.emit .refl ⟨id, id, fun _ => rfl⟩) rfl
  | setPipelineState =>
      refine plain h ?_ rfl
      exact (((plainSteps_setDynamicStates _).trans (plainSteps_setDynamicStates _)).trans
        (plainSteps_setDynamicStates _)).trans (plainSteps_setDynamicStates _)
  | setColorBlendState => exact plain h (plainSteps_setDynamicStates _) rfl
  | setDepthStencilState => exact plain h (plainSteps_setDynamicStates _) rfl
  | setRasterizerState => exact plain h (plainSteps_setDynamicStates _) rfl
  | setVertexState => exact plain h (plainSteps_setDynamicStates _) rfl
  | setViewports => exact plain h (plainSteps_setDynamicStates _) rfl
  | setScissors => exact plain h (plainSteps_setDynamicStates _) rfl
  | setViewportScissors => exact plain h (plainSteps_setDynamicStates _) rfl
  | setRenderTargets =>
      obtain ⟨-, -, targets, -, rfl⟩ := setRenderTargets_eq_ok h
      exact .none rfl (.single (.adjust rfl rfl rfl))
  | setVertexBuffer =>
      rw [← Except.ok.inj h]
      exact .use _ _ (.bindVertexBuffers ..) rfl .refl trivial .refl
  | setBufferStateTransition =>
      rw [← Except.ok.inj h]
      exact .use _ _ (.bufferBarrier _ (.buffer _)) rfl .refl trivial .refl
  | setTextureStateTransition => exact plain h (plainSteps_setTextureStateTransition ..) rfl
  | setDescriptorPool =>
      obtain ⟨set, rfl⟩ := setDescriptorPool_eq_ok h
      exact .none rfl (PlainSteps.emit .refl ⟨id, id, fun _ => rfl⟩)
  | setUniformBuffer => exact .none rfl (plainSteps_setResources (setResources_eq_ok h))
  | setStorageBuffer => exact .none rfl (plainSteps_setResources (setResources_eq_ok h))
  | setTextureAndSampler => exact .none rfl (plainSteps_setResources (setResources_eq_ok h))
  | setRenderDimensions => exact plain h (.single (.adjust rfl rfl rfl)) rfl

/-! ### One copy for each pool -/

/-- The pools of `s₀` that require relocation are copied once or still require it. -/
structure Accounted (s₀ s : Recording) : Prop where
  buffers : s.buffers = s₀.buffers
  copies : ∀ pool, s.history.countP (RecordingEvent.copies pool) + (s.requires pool).toNat =
    (s₀.requires pool).toNat
  uses : Everywhere (UseRule s₀) s.history

/-- The latest call is `c`. -/
def LatestCall (c : Call) (s : Recording) : Prop :=
  ∀ c', Since IsCall (· = .call c') s.history → c' = c

theorem Accounted.copies_le_one (h : Accounted s₀ s) (pool : ℕ) :
    s.history.countP (RecordingEvent.copies pool) ≤ 1 := by
  have hcopies := h.copies pool
  have hone := Bool.toNat_le (s₀.requires pool)
  omega

theorem Accounted.exists_copy (h : Accounted s₀ s) {pool : ℕ} (hrequired : s₀.requires pool = true)
    (hcopied : s.requires pool = false) : ∃ x ∈ s.history, x.copies pool = true := by
  have hcopies := h.copies pool
  rw [hrequired, hcopied] at hcopies
  have hpos : 0 < s.history.countP (RecordingEvent.copies pool) := by
    rw [← Nat.add_zero (List.countP _ _)]
    exact hcopies ▸ Nat.one_pos
  exact List.countP_pos_iff.mp hpos

/-- An event that is no copy and meets the rule. -/
theorem Accounted.append {e : RecordingEvent} (h : Accounted s₀ s)
    (hpools : t.memoryPools = s.memoryPools) (hbuffers : t.buffers = s.buffers)
    (hhistory : t.history = s.history ++ [e]) (hcopy : ∀ pool, e.copies pool = false)
    (huse : UseRule s₀ s.history e) : Accounted s₀ t where
  buffers := hbuffers.trans h.buffers
  copies := by
    intro pool
    rw [hhistory, List.countP_append, List.countP_singleton, hcopy, requires, hpools]
    exact h.copies pool
  uses := by
    rw [hhistory, everywhere_concat]
    exact ⟨h.uses, huse⟩

theorem Accounted.plainSteps (h : Accounted s₀ s) (hsteps : PlainSteps s t) : Accounted s₀ t := by
  induction hsteps with
  | refl => exact h
  | tail _ hstep ih =>
      cases hstep with
      | event hpools hbuffers hhistory hplain =>
          exact ih.append hpools hbuffers hhistory hplain.not_copy
            fun huse => absurd huse hplain.not_use
      | adjust hpools hbuffers hhistory =>
          refine ⟨hbuffers.trans ih.buffers, fun pool => ?_, hhistory ▸ ih.uses⟩
          rw [hhistory, requires, hpools]
          exact ih.copies pool

theorem Accounted.enter {c : Call} (h : Accounted s₀ s) : Accounted s₀ (s.enter c) :=
  h.append rfl rfl rfl (fun _ => rfl) fun huse => huse.elim

theorem LatestCall.enter {c : Call} : LatestCall c (s.enter c) := by
  intro c' hsince
  rcases since_concat.mp hsince with heq | ⟨-, hno⟩
  · cases heq
    rfl
  · exact absurd trivial hno

theorem LatestCall.append {c : Call} {e : RecordingEvent} (h : LatestCall c s)
    (hhistory : t.history = s.history ++ [e]) (he : ¬ e.IsCall) : LatestCall c t := by
  intro c' hsince
  rw [hhistory, since_concat] at hsince
  refine h c' (hsince.resolve_left fun heq => he ?_).1
  rw [heq]
  trivial

theorem LatestCall.plainSteps {c : Call} (h : LatestCall c s) (hsteps : PlainSteps s t) :
    LatestCall c t := by
  induction hsteps with
  | refl => exact h
  | tail _ hstep ih =>
      cases hstep with
      | event _ _ hhistory hplain => exact ih.append hhistory hplain.not_call
      | adjust _ _ hhistory =>
          intro c' hsince
          exact ih c' (hhistory ▸ hsince)

/-! ### Relocation -/

/-- The flag of the pool falls when its copy is recorded. -/
theorem Accounted.relocateHostMemoryToDevice (h : Accounted s₀ s) (pool : ℕ) :
    Accounted s₀ (s.relocateHostMemoryToDevice pool) := by
  unfold Recording.relocateHostMemoryToDevice
  split
  next hrequired =>
    refine ⟨h.buffers, fun q => ?_, ?_⟩
    · have hcopies := h.copies q
      by_cases hq : q = pool
      · subst hq
        rw [requires, hrequired] at hcopies
        simpa [requires, RecordingEvent.copies, Recording.emit] using hcopies
      · simpa [requires, RecordingEvent.copies, Recording.emit, hq, Ne.symm hq] using hcopies
    · refine everywhere_concat.mpr ⟨everywhere_concat.mpr ⟨h.uses, ?_⟩, ?_⟩
      · exact fun huse => huse.elim
      · exact fun huse => huse.elim
  next => exact h

@[simp] theorem requires_relocateHostMemoryToDevice (s : Recording) (pool : ℕ) :
    (s.relocateHostMemoryToDevice pool).requires pool = false := by
  unfold Recording.relocateHostMemoryToDevice
  split
  next => simp [requires, Recording.emit]
  next h => simpa [requires] using h

theorem LatestCall.relocateHostMemoryToDevice {c : Call} (h : LatestCall c s) (pool : ℕ) :
    LatestCall c (s.relocateHostMemoryToDevice pool) := by
  unfold Recording.relocateHostMemoryToDevice
  split
  · intro c' hsince
    have hcopy : LatestCall c (s.emit (.copyBuffer (.stagingHostBuffer pool)
        (.stagingDeviceBuffer pool) (s.memoryPools pool).size)) := h.append rfl id
    exact (hcopy.append rfl id : LatestCall c (Recording.emit (.bufferBarrier
      ⟨0, 0, pipelineStageAllCommandsBit, accessShaderReadBit⟩ (.stagingDeviceBuffer pool)) _))
        c' hsince
  · exact h

@[simp] theorem buffers_relocateHostMemoryToDevice (s : Recording) (pool : ℕ) :
    (s.relocateHostMemoryToDevice pool).buffers = s.buffers := by
  unfold Recording.relocateHostMemoryToDevice
  split
  · rfl
  · rfl

/-- `Relocate` copies the pool of the buffer and leaves the buffer with its flag. -/
theorem relocate_eq {buffer : ℕ} (h : (s.buffers buffer).requiresRelocation = true) :
    s.relocate buffer = s.relocateHostMemoryToDevice (s.poolOf buffer) := by
  have hpool : (if (s.memoryPools (s.buffers buffer).boundMemoryPool).requiresRelocation then
      s.relocateHostMemoryToDevice (s.buffers buffer).boundMemoryPool else s) =
        s.relocateHostMemoryToDevice (s.poolOf buffer) := by
    split
    · rfl
    next hclear => exact (if_neg hclear).symm
  have hflag : { s.buffers buffer with requiresRelocation := true } = s.buffers buffer := by
    rw [← h]
  unfold relocate
  simp only [hpool, buffers_relocateHostMemoryToDevice, hflag, Function.update_eq_self]
  rw [← buffers_relocateHostMemoryToDevice s (s.poolOf buffer)]

@[simp] theorem isRendering_relocateHostMemoryToDevice (s : Recording) (pool : ℕ) :
    (s.relocateHostMemoryToDevice pool).isRendering = s.isRendering := by
  unfold relocateHostMemoryToDevice
  split
  · rfl
  · rfl

theorem relocateIfRequired_of_clear {buffer : ℕ}
    (h : (s.buffers buffer).requiresRelocation = false) : s.relocateIfRequired buffer = s :=
  if_neg (Bool.eq_false_iff.mp h)

@[simp] theorem buffers_endRenderingIfRendering (s : Recording) :
    s.endRenderingIfRendering.buffers = s.buffers := by
  unfold endRenderingIfRendering
  split
  · rfl
  · rfl

theorem relocateIfRequired_of_set {buffer : ℕ}
    (h : (s.buffers buffer).requiresRelocation = true) : s.relocateIfRequired buffer =
      s.endRenderingIfRendering.relocateHostMemoryToDevice (s.poolOf buffer) := by
  unfold relocateIfRequired
  rw [if_pos h, relocate_eq (by simpa using h), poolOf, buffers_endRenderingIfRendering]
  rfl

theorem Accounted.relocateIfRequired (h : Accounted s₀ s) (buffer : ℕ) :
    Accounted s₀ (s.relocateIfRequired buffer) := by
  cases hflag : (s.buffers buffer).requiresRelocation with
  | false =>
      rw [relocateIfRequired_of_clear hflag]
      exact h
  | true =>
      rw [relocateIfRequired_of_set hflag]
      exact (h.plainSteps plainSteps_endRenderingIfRendering).relocateHostMemoryToDevice _

theorem LatestCall.relocateIfRequired {c : Call} (h : LatestCall c s) (buffer : ℕ) :
    LatestCall c (s.relocateIfRequired buffer) := by
  cases hflag : (s.buffers buffer).requiresRelocation with
  | false =>
      rw [relocateIfRequired_of_clear hflag]
      exact h
  | true =>
      rw [relocateIfRequired_of_set hflag]
      exact (h.plainSteps plainSteps_endRenderingIfRendering).relocateHostMemoryToDevice _

/-- The pool of a used buffer is on the device. -/
theorem requires_relocateIfRequired (h : Accounted s₀ s) (hbound : BuffersBound s₀) {buffer : ℕ}
    (hrequired : s₀.requires (s₀.poolOf buffer) = true) :
    (s.relocateIfRequired buffer).requires (s₀.poolOf buffer) = false := by
  have hflag : (s.buffers buffer).requiresRelocation = true := by
    rw [h.buffers]
    exact hbound buffer hrequired
  have hpool : s₀.poolOf buffer = s.poolOf buffer := by
    rw [poolOf, poolOf, h.buffers]
  rw [relocateIfRequired_of_set hflag, hpool]
  exact requires_relocateHostMemoryToDevice _ _

theorem Accounted.call {c : Call} (h : Accounted s₀ s) (hbound : BuffersBound s₀)
    (hcall : s.call c = .ok t) : Accounted s₀ t := by
  cases call_usage hcall with
  | none _ hsteps => exact h.enter.plainSteps hsteps
  | use buffer before command hused hsteps huses hrest =>
      have hbefore := (h.enter.relocateIfRequired buffer).plainSteps hsteps
      have hlatest := (LatestCall.enter.relocateIfRequired buffer).plainSteps hsteps
      have hcopy : ∀ pool, RecordingEvent.copies pool (.command command before.isRendering) =
          false := by
        intro pool
        cases command with
        | copyBuffer => exact huses.elim
        | _ => rfl
      have hrule : UseRule s₀ before.history (.command command before.isRendering) := by
        intro _ c' buffer' hsince hused' hrequired
        cases hlatest c' hsince
        cases hused.symm.trans hused'
        refine hbefore.exists_copy hrequired ?_
        rw [requires, PlainSteps.memoryPools hsteps]
        exact requires_relocateIfRequired h.enter hbound hrequired
      have hafter : Accounted s₀ (before.emit command) :=
        hbefore.append rfl rfl rfl hcopy hrule
      exact hafter.plainSteps hrest

theorem Accounted.next {step : Step} (h : Accounted s₀ s) (hbound : BuffersBound s₀)
    (hnext : s.next step = some t) : Accounted s₀ t := by
  cases step with
  | beginCommandBuffer =>
      rw [← Option.some.inj hnext]
      have hsteps : PlainSteps s (s.emit .beginCommandBuffer) :=
        PlainSteps.emit .refl ⟨id, id, fun _ => rfl⟩
      exact h.plainSteps (hsteps.tail (.adjust rfl rfl rfl))
  | call c => exact h.call hbound (toOption_eq_some.mp hnext)
  | endCommandBuffer =>
      rw [← Option.some.inj hnext]
      exact h.plainSteps (PlainSteps.emit plainSteps_endRenderingIfRendering
        ⟨id, id, fun _ => rfl⟩)

theorem Accounted.run {steps : List Step} (hhistory : s₀.history = [])
    (hbound : BuffersBound s₀) (hrun : Machine.run Recording.next s₀ steps = some t) :
    Accounted s₀ t := by
  have hstart : Accounted s₀ s₀ := by
    refine ⟨rfl, fun pool => ?_, hhistory ▸ everywhere_nil⟩
    rw [hhistory, List.countP_nil, Nat.zero_add]
  exact (Machine.Reaches.of_run hrun).invariant hstart fun h _ hnext => h.next hbound hnext

/-- Relocation happens once in a run exactly if no step of it relocates a buffer. -/
theorem relocatesOnce_iff (hbound : BuffersBound s) (steps : List Step) :
    RelocatesOnce { s with history := [] } steps ↔
      Machine.EveryStep next (fun t step => ∀ buffer, ¬ t.Relocates step buffer)
        { s with history := [] } steps := by
  have haccounted : ∀ {before : List Step} {t : Recording},
      Machine.run next { s with history := [] } before = some t →
        Accounted { s with history := [] } t :=
    Accounted.run rfl hbound
  constructor
  · intro h before step t u hsteps hbefore hstep buffer hrelocates
    have hrun : Machine.run next { s with history := [] } (before ++ [step]) = some u :=
      Machine.run_concat_eq_some.mpr ⟨t, hbefore, hstep⟩
    have hclear := (h.staysRelocated before step [] t u buffer hsteps hbefore hrelocates hrun).1
    obtain ⟨_, -, -, hset⟩ := hrelocates
    rw [(haccounted hbefore).buffers] at hset
    rw [(haccounted hrun).buffers, hset] at hclear
    cases hclear
  · intro h
    refine ⟨fun before t _ hrun pool => ?_, fun before t _ hrun => ?_, ?_⟩
    · exact (haccounted hrun).copies_le_one pool
    · exact (haccounted hrun).uses
    · intro before step after t u buffer hsteps hbefore hrelocates hrun
      have hinitial : before ++ [step] <+: before ++ step :: after :=
        ⟨after, (List.append_cons before step after).symm⟩
      obtain ⟨v, hv⟩ := Machine.run_prefix_eq_some hinitial hrun
      obtain ⟨t', ht', hstep⟩ := Machine.run_concat_eq_some.mp hv
      cases hbefore.symm.trans ht'
      exact absurd hrelocates (h before step t v (hinitial.trans hsteps) hbefore hstep buffer)

/-- Buffers 0 and 1 are bound to pools 0 and 1, and only pool 1 requires relocation. -/
def twoPools : Recording :=
  let pool := fun number : ℕ => MemoryPool.mk (number = 1) 256
  { blank with
    memoryPools := pool
    buffers := fun buffer => Buffer.initialize 0 buffer (pool buffer) }

/-- Each of the four calls that use a buffer, on the buffer of the other pool. -/
def usesOfBufferZero : List Step :=
  [.call (.setVertexBuffer 0 0 16 256), .call (.drawIndexed 3 1 0 6 0),
    .call (.setBufferStateTransition 0 ⟨4, 2, 8, 1⟩), .call (.drawInstancedIndexed 3 1 0 6 0 2 0)]

theorem relocatesOnce_usesOfBufferZero :
    (Machine.run next twoPools usesOfBufferZero).isSome ∧
      RelocatesOnce twoPools usesOfBufferZero := by
  have hbound : BuffersBound twoPools := buffersBound_of_initialize fun _ => ⟨_, _, rfl⟩
  refine ⟨rfl, (relocatesOnce_iff hbound _).mpr ?_⟩
  rintro before step t u hsteps hbefore - buffer ⟨c, rfl, hused, hset⟩
  have hmem := hsteps.subset (List.mem_append_right before (List.mem_singleton_self _))
  rw [(Accounted.run rfl hbound hbefore).buffers] at hset
  simp only [usesOfBufferZero, List.mem_cons, Step.call.injEq, List.not_mem_nil, or_false] at hmem
  obtain rfl : buffer = 0 := by
    rcases hmem with rfl | rfl | rfl | rfl <;> simpa [Call.usedBuffer, eq_comm] using hused
  cases hset

/-- The same index buffer twice. -/
def twoIndexedDraws : List Step :=
  [.call (.drawIndexed 3 1 0 6 0), .call (.drawIndexed 3 1 0 6 0)]

/-- The second draw ends the scope of the first one, because the buffer still requires
relocation. -/
theorem twoIndexedDraws_ends_scope :
    (∃ t, Machine.run next blank twoIndexedDraws = some t ∧
      .command .endRendering false ∈ t.history) ∧
    ¬ RelocatesOnce blank twoIndexedDraws := by
  constructor
  · refine ⟨_, rfl, ?_⟩
    decide
  · intro h
    have hclear := (h.staysRelocated [] _ _ _ _ 0 (List.prefix_refl _) rfl
      ⟨_, rfl, rfl, rfl⟩ rfl).1
    cases hclear

end Recording

end DDFramework
