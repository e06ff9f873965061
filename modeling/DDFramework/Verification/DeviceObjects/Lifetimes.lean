import DDFramework.Verification.DeviceObjects.Triples

/-! # One call of one object

What an object holds after a call, and what the call has left without an owner. -/

namespace DDFramework.DeviceObjects

open ObjectTable

/-! ### What an object holds -/

/-- The objects of a class that has been initialised. -/
def Object.handles : Object → Objects
  | .wrapper cls w => cls.held w
  | .texture t => t.held
  | .memoryPool pool => pool.memory
  | .shader s => s.held
  | .commandBuffer c => c.held
  | .displayBuffer d => d.held

def Object.staging : Object → Objects
  | .memoryPool pool => pool.stagingBuffers
  | _ => 0

def Object.isPool : Object → Bool
  | .memoryPool _ => true
  | _ => false

def Object.isDisplayBuffer : Object → Bool
  | .displayBuffer _ => true
  | _ => false

def Object.held (life : Life) (object : Object) : Objects :=
  (if life.phase = .initialized then object.handles else 0) +
    if life.relocated = true then object.staging else 0

/-- What a call leaves without an owner: a swapchain, and all that an object holds whose flag says
that it is imported. -/
def Object.loss (life : Life) (object : Object) : Call → Objects
  | .finalize =>
    match object with
    | .displayBuffer d => owned .swapchain d.vkSwapchain
    | _ => if life.everImported = true then object.held life else 0
  | _ => 0

/-- The host buffer of an earlier life, which a memory pool does not forget. -/
def Object.stale (life : Life) : Object → Objects
  | .memoryPool pool =>
    if life.everImported = false ∧ life.relocatedBefore = true ∧ life.relocated = false then
      {(.buffer, pool.vkStagingHostBuffer)}
    else 0
  | _ => 0

/-! ### What the calls rely on -/

structure MemoryPool.Consistent (life : Life) (pool : MemoryPool) : Prop where
  isImport : pool.isImport = life.everImported
  requiresRelocation : life.relocated = true → pool.requiresRelocation = false
  vkMemory : life.everImported = false → life.phase ≠ .initialized → pool.vkMemory = 0
  vkMemory_ne : life.phase = .initialized → pool.vkMemory ≠ 0
  vkStagingMemory : life.everImported = false →
    ¬(life.phase = .initialized ∧ pool.isDeviceMemory = true) → pool.vkStagingMemory = 0
  vkStagingDeviceBuffer : life.everImported = false → life.relocated = false →
    pool.vkStagingDeviceBuffer = 0
  vkStagingHostBuffer : life.relocated = false → life.relocatedBefore = false →
    pool.vkStagingHostBuffer = 0
  vkStagingHostBuffer_ne : life.relocated = true ∨ life.relocatedBefore = true →
    pool.vkStagingHostBuffer ≠ 0

/-- What a class other than `MemoryPool` relies on. -/
def Object.Flags (life : Life) : Object → Prop
  | .texture t => t.isImport = life.everImported ∧ (life.phase = .initialized → t.vkImage ≠ 0)
  | .displayBuffer d => life.everImported = false ∧ d.depthStencilTexture.isImport = false ∧
    (life.phase = .initialized → d.Ready)
  | _ => life.everImported = false

structure Object.Consistent (life : Life) (object : Object) : Prop where
  imported : life.phase = .imported → life.everImported = true
  down : life.phase = .down → life.relocated = false
  pool : ∀ pool, object = .memoryPool pool → pool.Consistent life
  others : object.isPool = false →
    life.relocated = false ∧ life.relocatedBefore = false ∧ object.Flags life

/-- The host buffer is not that of an earlier life. -/
def Life.FinalizesSafely (life : Life) (call : Call) : Prop :=
  call = .finalize → life.relocatedBefore = true →
    life.relocated = true ∨ life.everImported = true

/-- What a call makes of an object that owns the objects `q` after it. -/
structure Object.After (life : Life) (object : Object) (call : Call) (object' : Object)
    (q : Objects) : Prop where
  consistent : object'.Consistent (life.after object call)
  accounts : q = object'.held (life.after object call) + object.loss life call
  stale : ∀ x ∈ object'.stale (life.after object call),
    x ∈ object.stale life ∨ (x ∈ object.held life ∧ x ∉ q)

variable {life : Life} {object object' : Object} {call : Call} {m : DeviceM Object}
  {pool pool' : MemoryPool}

theorem Object.Consistent.zeroed (h : object.Zeroed) : object.Consistent Life.start := by
  refine ⟨nofun, fun _ => rfl, ?_, fun hpool => ⟨rfl, rfl, ?_⟩⟩
  · rintro pool rfl
    cases h
    exact ⟨rfl, nofun, fun _ _ => rfl, nofun, fun _ _ => rfl, fun _ _ => rfl, fun _ _ => rfl,
      by simp [Life.start]⟩
  · cases h with
    | texture => exact ⟨rfl, nofun⟩
    | displayBuffer => exact ⟨rfl, rfl, nofun⟩
    | memoryPool => cases hpool
    | wrapper cls => rfl
    | shader => rfl
    | commandBuffer => rfl

theorem Object.loss_finalize (h : object.isDisplayBuffer = false) :
    object.loss life .finalize = if life.everImported = true then object.held life else 0 := by
  cases object with
  | displayBuffer d => cases h
  | _ => rfl

/-! ### Classes without a relocation -/

theorem Object.stale_of_not_pool (h : object.isPool = false) (life : Life) :
    object.stale life = 0 := by
  cases object with
  | memoryPool pool => cases h
  | _ => rfl

theorem Object.held_of_not_pool (h : object.isPool = false) (life : Life) :
    object.held life = if life.phase = .initialized then object.handles else 0 := by
  cases object with
  | memoryPool pool => cases h
  | _ => simp [Object.held, Object.staging]

theorem Object.After.of_not_pool {q : Objects} (hpool : object'.isPool = false)
    (hlife : (life.after object call).relocated = false ∧
      (life.after object call).relocatedBefore = false)
    (himported : (life.after object call).phase = .imported →
      (life.after object call).everImported = true)
    (hflags : object'.Flags (life.after object call))
    (haccounts : q = object'.held (life.after object call) + object.loss life call) :
    object.After life call object' q where
  consistent := by
    refine ⟨himported, fun _ => hlife.1, ?_, fun _ => ⟨hlife.1, hlife.2, hflags⟩⟩
    rintro pool rfl
    cases hpool
  accounts := haccounts
  stale x hx := by
    rw [Object.stale_of_not_pool hpool] at hx
    exact absurd hx (Multiset.notMem_zero x)

/-- What an initialisation makes is held from then on. -/
theorem Object.Consistent.initialized (h : object.Consistent life) (hpool : object.isPool = false)
    (hdown : life.phase = .down)
    (hafter : life.after object call = { life with phase := .initialized })
    (hloss : object.loss life call = 0)
    (hm : Triple 0 m (fun object' q => object'.isPool = false ∧ q = object'.handles ∧
      object'.Flags { life with phase := .initialized })) :
    Triple (object.held life) m (object.After life call) := by
  have hothers := h.others hpool
  rw [Object.held_of_not_pool hpool, if_neg (by simp [hdown])]
  refine hm.weaken fun object' q hq => ?_
  apply Object.After.of_not_pool hq.1
  · rw [hafter]
    exact ⟨hothers.1, hothers.2.1⟩
  · rw [hafter]
    exact nofun
  · rw [hafter]
    exact hq.2.2
  · rw [hafter, hloss, Object.held_of_not_pool hq.1, if_pos rfl, add_zero]
    exact hq.2.1

/-- What a finalisation of what is held leaves is lost. -/
theorem Object.Consistent.finalized (h : object.Consistent life) (hpool : object.isPool = false)
    (hm : Triple (object.held life) m (fun object' q => object'.isPool = false ∧
      q = object.loss life .finalize ∧ object'.Flags (life.after object .finalize))) :
    Triple (object.held life) m (object.After life .finalize) := by
  have hothers := h.others hpool
  refine hm.weaken fun object' q hq => ?_
  apply Object.After.of_not_pool hq.1
  · exact ⟨rfl, by simp [Life.after, hothers.1, hothers.2.1]⟩
  · exact nofun
  · exact hq.2.2
  · rw [Object.held_of_not_pool hq.1, if_neg (by simp [Life.after]), zero_add]
    exact hq.2.1

/-- An object that is not down and that is never imported has been initialised. -/
theorem Object.Consistent.phase_eq (h : object.Consistent life) (hup : life.phase ≠ .down)
    (hever : life.everImported = false) : life.phase = .initialized := by
  cases hphase : life.phase with
  | down => exact absurd hphase hup
  | initialized => rfl
  | imported => exact absurd (h.imported hphase) (by simp [hever])

theorem Object.Consistent.held_eq_handles (h : object.Consistent life)
    (hpool : object.isPool = false) (hup : life.phase ≠ .down)
    (himport : life.everImported = false) : object.held life = object.handles := by
  rw [Object.held_of_not_pool hpool, if_pos (h.phase_eq hup himport)]

theorem Object.perform_wrapper {cls : WrapperClass} {w : Wrapper}
    (h : Consistent life (.wrapper cls w)) (hperform : perform (.wrapper cls w) call = some m)
    (hallowed : call.allowedIn life.phase = true) :
    Triple (held life (.wrapper cls w)) m (After life (.wrapper cls w) call) := by
  have himport : life.everImported = false := (h.others rfl).2.2
  cases call with
  | initializeObject =>
      cases hperform
      refine h.initialized rfl (by simpa [Call.allowedIn] using hallowed) rfl rfl ?_
      exact cls.initialize_triple.map fun w' q hq => ⟨rfl, hq, himport⟩
  | finalize =>
      cases hperform
      refine h.finalized rfl ?_
      rw [h.held_eq_handles rfl (by simpa [Call.allowedIn] using hallowed) himport]
      refine (cls.finalize_triple w).map fun w' q hq => ⟨rfl, ?_, himport⟩
      rw [hq, loss_finalize rfl, if_neg (by simp [himport])]
  | _ => cases hperform

theorem Object.perform_shader {s : Shader} (h : Consistent life (.shader s))
    (hperform : perform (.shader s) call = some m)
    (hallowed : call.allowedIn life.phase = true) :
    Triple (held life (.shader s)) m (After life (.shader s) call) := by
  have himport : life.everImported = false := (h.others rfl).2.2
  have hmade : ∀ codes pipelineType, Triple 0
      (Object.shader <$> Shader.initialize codes pipelineType)
      (fun object' q => object'.isPool = false ∧ q = object'.handles ∧
        object'.Flags { life with phase := .initialized }) := fun codes pipelineType =>
    (Shader.initialize_triple codes pipelineType).map fun s' q hq => ⟨rfl, hq, himport⟩
  cases call with
  | initializePrimitive info =>
      cases hperform
      exact h.initialized rfl (by simpa [Call.allowedIn] using hallowed) rfl rfl (hmade _ _)
  | initializeCompute info =>
      cases hperform
      exact h.initialized rfl (by simpa [Call.allowedIn] using hallowed) rfl rfl (hmade _ _)
  | initializeMesh info =>
      cases hperform
      exact h.initialized rfl (by simpa [Call.allowedIn] using hallowed) rfl rfl (hmade _ _)
  | finalize =>
      cases hperform
      refine h.finalized rfl ?_
      rw [h.held_eq_handles rfl (by simpa [Call.allowedIn] using hallowed) himport]
      refine s.finalize_triple.map fun s' q hq => ⟨rfl, ?_, himport⟩
      rw [hq, loss_finalize rfl, if_neg (by simp [himport])]
  | _ => cases hperform

theorem Object.perform_commandBuffer {c : CommandBuffer} (h : Consistent life (.commandBuffer c))
    (hperform : perform (.commandBuffer c) call = some m)
    (hallowed : call.allowedIn life.phase = true) :
    Triple (held life (.commandBuffer c)) m (After life (.commandBuffer c) call) := by
  have himport : life.everImported = false := (h.others rfl).2.2
  cases call with
  | initializeObject =>
      cases hperform
      refine h.initialized rfl (by simpa [Call.allowedIn] using hallowed) rfl rfl ?_
      exact CommandBuffer.initialize_triple.map fun c' q hq => ⟨rfl, hq, himport⟩
  | finalize =>
      cases hperform
      refine h.finalized rfl ?_
      rw [h.held_eq_handles rfl (by simpa [Call.allowedIn] using hallowed) himport]
      refine c.finalize_triple.map fun c' q hq => ⟨rfl, ?_, himport⟩
      rw [hq, loss_finalize rfl, if_neg (by simp [himport])]
  | _ => cases hperform

theorem Object.perform_texture {t : Texture} (h : Consistent life (.texture t))
    (hperform : perform (.texture t) call = some m)
    (hallowed : call.allowedIn life.phase = true) :
    Triple (held life (.texture t)) m (After life (.texture t) call) := by
  obtain ⟨hrelocated, hbefore, himport, hne⟩ := h.others rfl
  cases call with
  | initializeObject =>
      cases hperform
      refine h.initialized rfl (by simpa [Call.allowedIn] using hallowed) rfl rfl ?_
      exact t.initialize_triple.map fun t' q hq =>
        ⟨rfl, hq.2.2, hq.1.trans himport, fun _ => hq.2.1⟩
  | importImage image =>
      cases hperform
      have hdown : life.phase = .down := by simpa [Call.allowedIn] using hallowed
      rw [held_of_not_pool rfl, if_neg (by simp [hdown])]
      refine Triple.pure ?_
      refine After.of_not_pool rfl ⟨hrelocated, hbefore⟩ (fun _ => rfl) ⟨rfl, nofun⟩ ?_
      rw [held_of_not_pool rfl]
      rfl
  | finalize =>
      cases hperform
      refine h.finalized rfl ?_
      have hfinalize := t.finalize_triple
      cases hever : life.everImported with
      | true =>
          rw [himport, hever, if_pos rfl] at hfinalize
          rw [← zero_add (held life _)]
          refine hfinalize.frame.map fun t' q hq => ?_
          obtain ⟨own, ⟨rfl, rfl⟩, rfl⟩ := hq
          refine ⟨rfl, ?_, himport, nofun⟩
          rw [loss_finalize rfl, if_pos hever, zero_add]
      | false =>
          rw [himport, hever, if_neg (by simp)] at hfinalize
          rw [h.held_eq_handles rfl (by simpa [Call.allowedIn] using hallowed) hever]
          refine hfinalize.map fun t' q hq => ?_
          obtain ⟨rfl, rfl⟩ := hq
          refine ⟨rfl, ?_, himport, nofun⟩
          rw [loss_finalize rfl, if_neg (by simp [hever])]
  | _ => cases hperform

theorem Object.perform_displayBuffer {d : DisplayBuffer} (h : Consistent life (.displayBuffer d))
    (hperform : perform (.displayBuffer d) call = some m)
    (hallowed : call.allowedIn life.phase = true) :
    Triple (held life (.displayBuffer d)) m (After life (.displayBuffer d) call) := by
  obtain ⟨hrelocated, hbefore, himport, htexture, hready⟩ := h.others rfl
  cases call with
  | initializeDisplayBuffer surface given =>
      cases hperform
      refine h.initialized rfl (by simpa [Call.allowedIn] using hallowed) rfl rfl ?_
      exact (d.initialize_triple surface given).map fun d' q hq =>
        ⟨rfl, hq.1, himport, hq.2.2.trans htexture, fun _ => hq.2.1⟩
  | recreate given =>
      cases hperform
      have hphase : life.phase = .initialized := by simpa [Call.allowedIn] using hallowed
      rw [held_of_not_pool rfl, if_pos hphase]
      refine (d.recreate_triple given (hready hphase) htexture).map fun d' q hq => ?_
      refine After.of_not_pool rfl ⟨hrelocated, hbefore⟩ h.imported
        ⟨himport, hq.2.2, fun _ => hq.2.1⟩ ?_
      rw [held_of_not_pool rfl, if_pos (by exact hphase)]
      exact hq.1.trans (add_zero _).symm
  | finalize =>
      cases hperform
      have hup : life.phase ≠ .down := by simpa [Call.allowedIn] using hallowed
      have hphase := h.phase_eq hup himport
      refine h.finalized rfl ?_
      rw [h.held_eq_handles rfl hup himport]
      exact (d.finalize_triple (hready hphase) htexture).map fun d' q hq =>
        ⟨rfl, hq.1, himport, hq.2, nofun⟩
  | _ => cases hperform

/-! ### Memory pools -/

theorem Object.After.of_pool {q : Objects} (hpool : pool'.Consistent (life.after object call))
    (himported : (life.after object call).phase = .imported →
      (life.after object call).everImported = true)
    (hdown : (life.after object call).phase = .down →
      (life.after object call).relocated = false)
    (haccounts : q = Object.held (life.after object call) (.memoryPool pool') +
      object.loss life call)
    (hstale : ∀ x ∈ Object.stale (life.after object call) (.memoryPool pool'),
      x ∈ object.stale life ∨ (x ∈ object.held life ∧ x ∉ q)) :
    object.After life call (.memoryPool pool') q where
  consistent := by
    refine ⟨himported, hdown, ?_, nofun⟩
    intro pool heq
    cases heq
    exact hpool
  accounts := haccounts
  stale := hstale

theorem Object.Consistent.pool_initialize (h : Consistent life (.memoryPool pool))
    (hdown : life.phase = .down) (info : MemoryPoolInfo) (memoryTypeBits : BitVec 32) :
    Triple (held life (.memoryPool pool))
      (Object.memoryPool <$> pool.initialize info memoryTypeBits)
      (After life (.memoryPool pool) (.initializeMemoryPool info memoryTypeBits)) := by
  have hpool := h.pool pool rfl
  have hrelocated := h.down hdown
  rw [held, if_neg (by simp [hdown]), if_neg (by simp [hrelocated]), add_zero]
  refine (pool.initialize_triple info memoryTypeBits).map fun pool' q hq => ?_
  obtain ⟨hq, hne, himport, hmemory, hhost, hdevice⟩ := hq
  apply After.of_pool
  · constructor
    · exact himport.trans hpool.isImport
    · exact fun hr => absurd hr (by simp [Life.after, hrelocated])
    · exact fun _ hphase => absurd rfl hphase
    · exact fun _ => hne
    · intro hever hhostMemory
      rw [hmemory (by simpa [Life.after] using hhostMemory)]
      exact hpool.vkStagingMemory hever (by simp [hdown])
    · exact fun hever hr => hdevice.trans (hpool.vkStagingDeviceBuffer hever hr)
    · exact fun hr hbefore => hhost.trans (hpool.vkStagingHostBuffer hr hbefore)
    · exact fun hr => hhost ▸ hpool.vkStagingHostBuffer_ne hr
  · exact nofun
  · exact nofun
  · change q = (if Phase.initialized = .initialized then pool'.memory else 0) +
      (if life.relocated = true then pool'.stagingBuffers else 0) + 0
    rw [if_pos rfl, if_neg (by simp [hrelocated]), add_zero, add_zero]
    exact hq
  · intro x hx
    rw [stale, hhost] at hx
    exact Or.inl hx

theorem Object.Consistent.pool_import (h : Consistent life (.memoryPool pool))
    (hdown : life.phase = .down) (memory : Handle) (isDeviceLocal : Bool) :
    After life (.memoryPool pool) (.importMemory memory isDeviceLocal)
      (.memoryPool (pool.importExisting memory isDeviceLocal)) 0 := by
  have hpool := h.pool pool rfl
  have hrelocated := h.down hdown
  apply After.of_pool
  · constructor
    · rfl
    · exact fun hr => absurd hr (by simp [Life.after, hrelocated])
    · exact nofun
    · exact nofun
    · exact nofun
    · exact nofun
    · exact hpool.vkStagingHostBuffer
    · exact hpool.vkStagingHostBuffer_ne
  · exact fun _ => rfl
  · exact nofun
  · rw [held, if_neg (by simp [Life.after]), if_neg (by simp [Life.after, hrelocated])]
    rfl
  · intro x hx
    rw [stale, if_neg (by simp [Life.after])] at hx
    exact absurd hx (Multiset.notMem_zero x)

theorem Object.Consistent.pool_relocate (h : Consistent life (.memoryPool pool))
    (hup : life.phase ≠ .down) :
    Triple (held life (.memoryPool pool)) (Object.memoryPool <$> pool.relocateHostMemoryToDevice)
      (After life (.memoryPool pool) .relocate) := by
  have hpool := h.pool pool rfl
  cases hrequires : pool.requiresRelocation with
  | false =>
      have hlife : life.after (.memoryPool pool) .relocate = life := by
        simp [Life.after, relocates, hrequires]
      rw [MemoryPool.relocateHostMemoryToDevice, if_pos hrequires]
      refine Triple.pure ⟨hlife.symm ▸ h, ?_, fun x hx => Or.inl (hlife ▸ hx)⟩
      rw [hlife]
      exact (add_zero _).symm
  | true =>
      have hrelocated : life.relocated = false := by
        cases hr : life.relocated with
        | false => rfl
        | true => exact absurd (hpool.requiresRelocation hr) (by simp [hrequires])
      have hlife : (life.after (.memoryPool pool) .relocate).relocated = true := by
        simp [Life.after, relocates, hrequires]
      have hnot : ¬ life.relocated = true := by simp [hrelocated]
      rw [held, if_neg hnot, add_comm]
      refine (pool.relocate_triple hrequires).frame.map fun pool' q hq => ?_
      obtain ⟨own, ⟨rfl, hne, hpool'⟩, rfl⟩ := hq
      apply After.of_pool
      · constructor
        · rw [hpool']
          exact hpool.isImport
        · exact fun _ => hpool' ▸ rfl
        · rw [hpool']
          exact hpool.vkMemory
        · rw [hpool']
          exact hpool.vkMemory_ne
        · rw [hpool']
          exact hpool.vkStagingMemory
        · exact fun _ hr => absurd hlife (by simp [hr])
        · exact fun hr => absurd hlife (by simp [hr])
        · exact fun _ => hne
      · exact h.imported
      · exact fun hdown => absurd hdown hup
      · rw [held, if_pos hlife, add_comm]
        have hmemory : pool'.memory = pool.memory := by rw [hpool']; rfl
        rw [handles, handles, hmemory]
        exact (add_zero _).symm
      · intro x hx
        rw [stale, if_neg (by simp [hlife])] at hx
        exact absurd hx (Multiset.notMem_zero x)

/-- What a pool that is never imported holds is what `Finalize` destroys. -/
theorem MemoryPool.Consistent.held_eq (h : pool.Consistent life)
    (hphase : life.phase = .initialized) (hever : life.everImported = false)
    (hsafe : life.FinalizesSafely .finalize) :
    Object.held life (.memoryPool pool) =
      owned .deviceMemory pool.vkMemory + owned .deviceMemory pool.vkStagingMemory +
        pool.stagingBuffers := by
  have hmemory : pool.memory =
      owned .deviceMemory pool.vkMemory + owned .deviceMemory pool.vkStagingMemory := by
    rw [MemoryPool.memory]
    split
    next hdevice => rfl
    next hhost => rw [h.vkStagingMemory hever fun hd => hhost hd.2, owned_zero]
  rw [Object.held, if_pos hphase, Object.handles, hmemory]
  cases hrelocated : life.relocated with
  | true => rw [if_pos rfl, Object.staging]
  | false =>
      have hbefore : life.relocatedBefore = false := by
        cases hb : life.relocatedBefore with
        | false => rfl
        | true => simpa [hrelocated, hever] using hsafe rfl hb
      rw [if_neg (by simp), MemoryPool.stagingBuffers, h.vkStagingHostBuffer hrelocated hbefore,
        h.vkStagingDeviceBuffer hever hrelocated]
      rfl

theorem Object.Consistent.pool_finalize (h : Consistent life (.memoryPool pool))
    (hup : life.phase ≠ .down) (hsafe : life.FinalizesSafely .finalize) :
    Triple (held life (.memoryPool pool)) (Object.memoryPool <$> pool.finalize)
      (After life (.memoryPool pool) .finalize) := by
  have hpool := h.pool pool rfl
  have hhost : (life.after (.memoryPool pool) .finalize).relocatedBefore = false →
      pool.vkStagingHostBuffer = 0 := by
    intro hbefore
    obtain ⟨hb, hr⟩ := Bool.or_eq_false_iff.mp hbefore
    exact hpool.vkStagingHostBuffer hr hb
  have hhost_ne : (life.after (.memoryPool pool) .finalize).relocatedBefore = true →
      pool.vkStagingHostBuffer ≠ 0 := by
    intro hbefore
    exact hpool.vkStagingHostBuffer_ne ((Bool.or_eq_true_iff.mp hbefore).symm)
  have hdown : (life.after (.memoryPool pool) .finalize).phase = .down := rfl
  have hrelocated : (life.after (.memoryPool pool) .finalize).relocated = false := rfl
  cases hever : life.everImported with
  | true =>
      rw [MemoryPool.finalize, if_pos (hpool.isImport.trans hever)]
      refine Triple.pure (After.of_pool ⟨hpool.isImport, ?_, ?_, ?_, ?_, ?_, ?_, ?_⟩ ?_
        (fun _ => hrelocated) ?_ ?_)
      · exact fun hr => absurd hr (by simp [hrelocated])
      · exact fun hnever => absurd hever (by simpa [Life.after] using hnever)
      · exact fun hphase => absurd hphase (by simp [hdown])
      · exact fun hnever => absurd hever (by simpa [Life.after] using hnever)
      · exact fun hnever => absurd hever (by simpa [Life.after] using hnever)
      · exact fun _ => hhost
      · exact fun hr => hhost_ne (hr.resolve_left (by simp [hrelocated]))
      · exact fun hphase => absurd hphase (by simp [hdown])
      · rw [loss_finalize rfl, if_pos hever]
        exact (zero_add _).symm
      · intro x hx
        rw [stale, if_neg (by simp [Life.after, hever])] at hx
        exact absurd hx (Multiset.notMem_zero x)
  | false =>
      have hphase := h.phase_eq hup hever
      rw [hpool.held_eq hphase hever hsafe]
      refine (pool.finalize_triple (hpool.isImport.trans hever)).map fun pool' q hq => ?_
      obtain ⟨rfl, hpool'⟩ := hq
      apply After.of_pool
      · rw [hpool']
        constructor
        · exact hpool.isImport
        · exact fun hr => absurd hr (by simp [hrelocated])
        · exact fun _ _ => rfl
        · exact fun hphase => absurd hphase (by simp [hdown])
        · exact fun _ _ => rfl
        · exact fun _ _ => rfl
        · exact fun _ => hhost
        · exact fun hr => hhost_ne (hr.resolve_left (by simp [hrelocated]))
      · exact fun hphase => absurd hphase (by simp [hdown])
      · exact fun _ => hrelocated
      · rw [loss_finalize rfl, if_neg (by simp [hever])]
        rfl
      · -- the host buffer is destroyed here and stays in its variable
        intro x hx
        refine Or.inr ⟨?_, Multiset.notMem_zero x⟩
        rw [stale] at hx
        split at hx
        next hbefore =>
          have hne := hhost_ne hbefore.2.1
          rw [hpool', Multiset.mem_singleton] at hx
          rw [hpool.held_eq hphase hever hsafe, hx, MemoryPool.stagingBuffers, owned_of_ne hne]
          simp
        next => exact absurd hx (Multiset.notMem_zero x)

theorem Object.perform_memoryPool (h : Consistent life (.memoryPool pool))
    (hperform : perform (.memoryPool pool) call = some m)
    (hallowed : call.allowedIn life.phase = true) (hsafe : life.FinalizesSafely call) :
    Triple (held life (.memoryPool pool)) m (After life (.memoryPool pool) call) := by
  cases call with
  | initializeMemoryPool info memoryTypeBits =>
      cases hperform
      exact h.pool_initialize (by simpa [Call.allowedIn] using hallowed) info memoryTypeBits
  | importMemory memory isDeviceLocal =>
      cases hperform
      have hdown : life.phase = .down := by simpa [Call.allowedIn] using hallowed
      rw [held, if_neg (by simp [hdown]), if_neg (by simp [h.down hdown]), add_zero]
      exact Triple.pure (h.pool_import hdown memory isDeviceLocal)
  | relocate =>
      cases hperform
      exact h.pool_relocate (by simpa [Call.allowedIn] using hallowed)
  | finalize =>
      cases hperform
      exact h.pool_finalize (by simpa [Call.allowedIn] using hallowed) hsafe
  | _ => cases hperform

/-- One lemma for all classes and calls. -/
theorem Object.perform_triple (h : object.Consistent life) (hperform : object.perform call = some m)
    (hallowed : call.allowedIn life.phase = true) (hsafe : life.FinalizesSafely call) :
    Triple (object.held life) m (object.After life call) := by
  cases object with
  | wrapper cls w => exact perform_wrapper h hperform hallowed
  | texture t => exact perform_texture h hperform hallowed
  | memoryPool pool => exact perform_memoryPool h hperform hallowed hsafe
  | shader s => exact perform_shader h hperform hallowed
  | commandBuffer c => exact perform_commandBuffer h hperform hallowed
  | displayBuffer d => exact perform_displayBuffer h hperform hallowed

end DDFramework.DeviceObjects
