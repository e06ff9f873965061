import DDFramework.Verification.CommandBuffer.Slots

/-! The resources of the shader stages in a recording: which slot a draw reads for a stage, and
that nothing overwrites it. -/

namespace DDFramework

open Vulkan RecordingEvent

namespace Recording

variable {s t u : Recording}

/-- One of the calls has changed the resources of the stage. -/
def Changed (s : Recording) (calls : List Call) (stage : Fin 6) : Prop :=
  ∃ before c t u, before ++ [c] <+: calls ∧ s.record before = .ok t ∧ t.call c = .ok u ∧
    u.resourceBufferPerStageArray stage ≠ t.resourceBufferPerStageArray stage

/-- Every draw returns, and each stage whose resources were changed reads them from a slot that is
not written again. -/
def ResourcesCurrent (s : Recording) (calls : List Call) : Prop :=
  ∀ before draw after t stage, calls = before ++ draw :: after → draw.kind = .draw →
    s.record before = .ok t → s.Changed before stage →
    ∃ u slot, t.call draw = .ok u ∧
      lastPushed stage u.history = some (slotAddress s.resourceBufferAddress slot) ∧
      u.slots slot = u.resourceBufferPerStageArray stage ∧
      ∀ rest v, rest <+: after → rest.foldlM call u = .ok v →
        ∃ later, v.history = u.history ++ later ∧ slot ∉ writes later

/-- At every draw the mapped memory has slots left for the stages that wait for an update. -/
structure DrawsFit (s : Recording) (calls : List Call) : Prop where
  mapped : s.resourceBufferMappedAddress ≠ none
  draws : ∀ before draw after t, calls = before ++ draw :: after → draw.kind = .draw →
    s.record before = .ok t →
    CommandBuffer.resourceBufferSize * ((writes t.history).length + waiting updateBlocks t) ≤
      s.drawMemorySize.toNat

/-- The counter of the slots does not come back to zero. -/
def SlotsCounted (s : Recording) (calls : List Call) : Prop :=
  ∀ before t, before <+: calls → s.record before = .ok t → (writes t.history).length ≤ 2 ^ 32

/-! ### Recordings -/

theorem foldlM_history_isPrefix {calls : List Call} (h : calls.foldlM call s = .ok t) :
    s.history <+: t.history :=
  foldlM_invariant (P := fun u => s.history <+: u.history)
    (fun hgrows hcall => hgrows.trans (call_resources hcall).history) (List.prefix_refl _) h

theorem sameMemory_foldlM {calls : List Call} (h : calls.foldlM call s = .ok t) :
    SameMemory s t :=
  foldlM_invariant (P := SameMemory s)
    (fun hsame hcall => hsame.trans (call_resources hcall).memory) (.refl s) h

theorem sameMemory_of_record {calls : List Call} (h : s.record calls = .ok t) :
    SameMemory s t := by
  have hbegun : SameMemory s ({ s with history := [] } : Recording).beginCommandBuffer :=
    ⟨rfl, rfl, rfl⟩
  exact hbegun.trans (sameMemory_foldlM h)

theorem InOrder.foldlM {calls : List Call} (hinOrder : InOrder s)
    (h : calls.foldlM call s = .ok t) : InOrder t :=
  foldlM_invariant (fun h hcall => (call_resources hcall).inOrder h) hinOrder h

theorem length_writes_le_of_isPrefix (h : s.history <+: t.history) :
    (writes s.history).length ≤ (writes t.history).length :=
  (h.filterMap writtenSlot).length_le

theorem Tracked.foldlM {calls : List Call} {stage : Fin 6} (htracked : Tracked s stage)
    (hinOrder : InOrder s) (h : calls.foldlM call s = .ok t)
    (hbound : (writes t.history).length ≤ 2 ^ 32) : Tracked t stage := by
  induction calls generalizing s with
  | nil => exact Except.ok.inj h ▸ htracked
  | cons c calls ih =>
      obtain ⟨u, hu, h⟩ := bind_eq_ok_iff.mp h
      have hcall := call_resources hu
      have hboundu := (length_writes_le_of_isPrefix (foldlM_history_isPrefix h)).trans hbound
      exact ih (hcall.tracked hinOrder hboundu stage htracked) (hcall.inOrder hinOrder) h

/-- A draw waits for six stages at most. -/
theorem waiting_updateBlocks_le (s : Recording) : waiting updateBlocks s ≤ 6 :=
  List.countP_le_length

theorem length_writes_foldlM_le {calls : List Call} (h : calls.foldlM call s = .ok t) :
    (writes t.history).length ≤
      (writes s.history).length + 6 * calls.countP (fun c => c.kind = .draw) := by
  induction calls generalizing s with
  | nil => rw [← Except.ok.inj h]; exact Nat.le_add_right _ _
  | cons c calls ih =>
      obtain ⟨u, hu, h⟩ := bind_eq_ok_iff.mp h
      have hcall := (call_resources hu).length_writes
      have hwaiting := waiting_updateBlocks_le s
      have hrest := ih h
      rw [List.countP_cons]
      by_cases hc : c.kind = .draw
      · simp only [hc, if_true, decide_true] at hcall ⊢
        omega
      · simp only [hc, if_false, decide_false, Bool.false_eq_true] at hcall ⊢
        omega

theorem record_append (s : Recording) (calls calls' : List Call) :
    s.record (calls ++ calls') = s.record calls >>= fun t => calls'.foldlM call t :=
  List.foldlM_append

theorem record_concat_eq_ok {calls : List Call} {c : Call} :
    s.record (calls ++ [c]) = .ok u ↔ ∃ t, s.record calls = .ok t ∧ t.call c = .ok u := by
  rw [record_append, bind_eq_ok_iff]
  refine exists_congr fun t => and_congr_right fun _ => ?_
  rw [List.foldlM_cons, bind_eq_ok_iff]
  constructor
  · rintro ⟨v, hv, hnil⟩
    exact Except.ok.inj hnil ▸ hv
  · exact fun h => ⟨u, h, rfl⟩

theorem inOrder_begin (s : Recording) :
    InOrder ({ s with history := [] } : Recording).beginCommandBuffer :=
  ⟨0, rfl, rfl⟩

theorem inOrder_of_record {calls : List Call} (h : s.record calls = .ok t) : InOrder t :=
  (inOrder_begin s).foldlM h

/-- A changed stage is tracked from the change on. -/
theorem Changed.tracked {calls : List Call} {stage : Fin 6} (h : s.Changed calls stage)
    (hrecord : s.record calls = .ok t) (hbound : (writes t.history).length ≤ 2 ^ 32) :
    Tracked t stage := by
  obtain ⟨before, c, u, v, ⟨rest, rfl⟩, hu, hv, hne⟩ := h
  rw [record_append, record_concat_eq_ok.mpr ⟨u, hu, hv⟩, ok_bind] at hrecord
  have hcall := call_resources hv
  exact (hcall.changed stage hne).foldlM (hcall.inOrder (inOrder_of_record hu)) hrecord hbound

/-! ### Draws -/

theorem drawVertices_returns {topology vertexCount instanceCount baseVertex baseInstance : Word}
    (h : ∃ t, s.updateResourceBufferIfNecessary = .ok t) :
    ∃ t, s.drawVertices topology vertexCount instanceCount baseVertex baseInstance = .ok t := by
  obtain ⟨t, ht⟩ := h
  exact ⟨_, bind_eq_ok_iff.mpr ⟨t, ht, rfl⟩⟩

theorem drawIndices_returns {topology indexFormat : Word} {indexBuffer : ℕ}
    {indexCount instanceCount baseIndex baseInstance : Word}
    (h : ∃ t, (s.relocateIfRequired indexBuffer).updateResourceBufferIfNecessary = .ok t) :
    ∃ t, s.drawIndices topology indexFormat indexBuffer indexCount instanceCount baseIndex
      baseInstance = .ok t := by
  obtain ⟨t, ht⟩ := h
  exact ⟨_, bind_eq_ok_iff.mpr ⟨t, ht, rfl⟩⟩

/-- A draw fails only when its copies leave the mapped memory. -/
theorem call_draw_returns {c : Call} (hc : c.kind = .draw) (hinOrder : InOrder s)
    (hmapped : s.resourceBufferMappedAddress ≠ none)
    (hfits : CommandBuffer.resourceBufferSize *
      ((writes s.history).length + waiting updateBlocks s) ≤ s.drawMemorySize.toNat) :
    ∃ t, s.call c = .ok t := by
  have hupdate {before : Recording} (hsteps : Quiets (s.enter c) before) :
      ∃ t, before.updateResourceBufferIfNecessary = .ok t := by
    have hslots : SameSlots s before := (sameSlots_enter c).trans hsteps.sameSlots
    have hmemory : SameMemory s before := (sameMemory_enter c).trans hsteps.sameMemory
    refine updateResourceBufferIfNecessary_returns (hinOrder.sameSlots hslots) ?_ ?_
    · rw [hmemory.resourceBufferMappedAddress]
      exact hmapped
    · rw [hslots.writes, hmemory.drawMemorySize, waiting, hsteps.sameTables.needResourceUpdate]
      exact hfits
  cases c with
  | draw => exact drawVertices_returns (hupdate .refl)
  | drawInstanced => exact drawVertices_returns (hupdate .refl)
  | drawIndexed => exact drawIndices_returns (hupdate (quiets_relocateIfRequired _))
  | drawInstancedIndexed => exact drawIndices_returns (hupdate (quiets_relocateIfRequired _))
  | _ => cases hc

theorem DrawsFit.resourcesCurrent {calls : List Call} (hfits : DrawsFit s calls)
    (hcounted : SlotsCounted s calls) : ResourcesCurrent s calls := by
  intro before draw after t stage hcalls hdraw ht hchanged
  have hmemory := sameMemory_of_record ht
  have hinOrder := inOrder_of_record ht
  obtain ⟨u, hu⟩ : ∃ u, t.call draw = .ok u := by
    refine call_draw_returns hdraw hinOrder ?_ ?_
    · rw [hmemory.resourceBufferMappedAddress]
      exact hfits.mapped
    · rw [hmemory.drawMemorySize]
      exact hfits.draws before draw after t hcalls hdraw ht
  have hrecord : s.record (before ++ [draw]) = .ok u := record_concat_eq_ok.mpr ⟨t, ht, hu⟩
  have hcalls' : calls = (before ++ [draw]) ++ after := by simp [hcalls]
  have hboundt := hcounted before t ⟨_, hcalls.symm⟩ ht
  have hboundu := hcounted _ u ⟨_, hcalls'.symm⟩ hrecord
  have hresources := call_resources hu
  obtain ⟨slot, hpushed, hslot, hmem⟩ := hresources.current hinOrder hboundu hdraw stage
    (hchanged.tracked ht hboundt)
  refine ⟨u, slot, hu, ?_, hslot, ?_⟩
  · rw [hpushed, hresources.memory.resourceBufferAddress, hmemory.resourceBufferAddress]
  · intro rest v hrest hv
    obtain ⟨later, hlater⟩ := foldlM_history_isPrefix hv
    refine ⟨later, hlater.symm, ?_⟩
    have hrecordv : s.record (before ++ [draw] ++ rest) = .ok v := by
      rw [record_append, hrecord, ok_bind]
      exact hv
    have hinitial : before ++ [draw] ++ rest <+: calls := by
      rw [hcalls']
      exact (List.prefix_append_right_inj _).mpr hrest
    have hnodup := (inOrder_of_record hrecordv).nodup (hcounted _ v hinitial hrecordv)
    rw [← hlater, writes_append] at hnodup
    exact List.disjoint_of_nodup_append hnodup hmem

/-! ### The size of the memory -/

/-- What is written lies inside the mapped memory. -/
theorem DrawsFit.length_writes_le {calls before : List Call} (h : DrawsFit s calls)
    (hinitial : before <+: calls) (hrecord : s.record before = .ok t) :
    CommandBuffer.resourceBufferSize * (writes t.history).length ≤ s.drawMemorySize.toNat := by
  induction before using List.reverseRecOn generalizing t with
  | nil =>
      rw [← Except.ok.inj hrecord]
      exact Nat.zero_le _
  | append_singleton before c ih =>
      obtain ⟨u, hu, hcall⟩ := record_concat_eq_ok.mp hrecord
      have hlength := (call_resources hcall).length_writes
      split at hlength
      next hdraw =>
        obtain ⟨after, hafter⟩ := hinitial
        have hcalls : calls = before ++ c :: after := by simp [← hafter]
        exact (Nat.mul_le_mul_left _ hlength).trans (h.draws before c after u hcalls hdraw hu)
      next =>
        have hbefore := ih ((List.prefix_append before [c]).trans hinitial) hu
        exact (Nat.mul_le_mul_left _ hlength).trans hbefore

/-- A memory of at most `2 ^ 32` slots is full before the counter comes back to zero. -/
theorem DrawsFit.slotsCounted {calls : List Call} (h : DrawsFit s calls)
    (hsize : s.drawMemorySize.toNat ≤ CommandBuffer.resourceBufferSize * 2 ^ 32) :
    SlotsCounted s calls := by
  intro before t hinitial hrecord
  have hlength := (h.length_writes_le hinitial hrecord).trans hsize
  exact Nat.le_of_mul_le_mul_left hlength (by decide)

theorem toNat_getDrawMemorySize {maxShaderStages maxDraws : BitVec 32}
    (h : maxShaderStages.toNat * maxDraws.toNat < 2 ^ 32) :
    (CommandBuffer.getDrawMemorySize maxShaderStages maxDraws).toNat =
      maxShaderStages.toNat * maxDraws.toNat * 0xf000 := by
  have hsize : CommandBuffer.targetResourceBufferPerStageSize = 0xf000#64 := by decide
  rw [CommandBuffer.getDrawMemorySize, hsize, BitVec.toNat_mul, BitVec.toNat_setWidth,
    BitVec.toNat_mul, Nat.mod_eq_of_lt h, Nat.mod_eq_of_lt (h.trans (by decide))]
  refine Nat.mod_eq_of_lt ?_
  change _ * 61440 < _
  omega

/-- Each draw finds a hundred and twenty slots. -/
theorem slots_le_getDrawMemorySize {maxShaderStages maxDraws : BitVec 32}
    (hstages : 1 ≤ maxShaderStages.toNat)
    (hproduct : maxShaderStages.toNat * maxDraws.toNat < 2 ^ 32) :
    CommandBuffer.resourceBufferSize * (6 * maxDraws.toNat) ≤
      (CommandBuffer.getDrawMemorySize maxShaderStages maxDraws).toNat := by
  have hdraw : maxDraws.toNat ≤ maxShaderStages.toNat * maxDraws.toNat :=
    Nat.le_mul_of_pos_left _ hstages
  rw [toNat_getDrawMemorySize hproduct]
  change 512 * _ ≤ _
  omega

theorem length_writes_of_record_le {calls : List Call} (h : s.record calls = .ok t) :
    (writes t.history).length ≤ 6 * calls.countP (fun c => c.kind = .draw) :=
  (length_writes_foldlM_le h).trans_eq (Nat.zero_add _)

theorem drawsFit_of_getDrawMemorySize {calls : List Call} {maxShaderStages maxDraws : BitVec 32}
    (hstages : 1 ≤ maxShaderStages.toNat)
    (hproduct : maxShaderStages.toNat * maxDraws.toNat < 2 ^ 32)
    (hdraws : calls.countP (fun c => c.kind = .draw) ≤ maxDraws.toNat)
    (hmapped : s.resourceBufferMappedAddress ≠ none)
    (hsize : CommandBuffer.getDrawMemorySize maxShaderStages maxDraws ≤ s.drawMemorySize) :
    DrawsFit s calls := by
  refine ⟨hmapped, fun before draw after t hcalls hdraw ht => ?_⟩
  refine (Nat.mul_le_mul_left _ ?_).trans
    ((slots_le_getDrawMemorySize hstages hproduct).trans (BitVec.le_def.mp hsize))
  have hwrites := length_writes_of_record_le ht
  have hwaiting := waiting_updateBlocks_le t
  rw [hcalls, List.countP_append, List.countP_cons_of_pos (by simp [hdraw])] at hdraws
  omega

theorem slot_end_le_getDrawMemorySize {calls : List Call} (h : s.record calls = .ok t)
    {maxShaderStages maxDraws : BitVec 32} (hstages : 1 ≤ maxShaderStages.toNat)
    (hproduct : maxShaderStages.toNat * maxDraws.toNat < 2 ^ 32)
    (hdraws : calls.countP (fun c => c.kind = .draw) ≤ maxDraws.toNat) {slot : BitVec 32}
    (hslot : slot ∈ writes t.history) :
    CommandBuffer.resourceBufferSize * slot.toNat + CommandBuffer.resourceBufferSize ≤
      (CommandBuffer.getDrawMemorySize maxShaderStages maxDraws).toNat := by
  have hlength := length_writes_of_record_le h
  obtain ⟨n, hn, -⟩ := inOrder_of_record h
  rw [hn] at hslot hlength
  obtain ⟨i, hi, rfl⟩ := List.mem_map.mp hslot
  rw [List.mem_range] at hi
  rw [List.length_map, List.length_range] at hlength
  have hle : (BitVec.ofNat 32 i).toNat ≤ i := Nat.mod_le _ _
  rw [← Nat.mul_succ]
  exact (Nat.mul_le_mul_left _ (by omega)).trans (slots_le_getDrawMemorySize hstages hproduct)

/-- A draw reads the resources of every changed stage as long as the slots end inside the mapped
memory and their counter has not come back to zero, which a memory of at most `2 ^ 32` slots
excludes; and memory for that many draws is large enough. -/
theorem record_shaderResources (s : Recording) (calls : List Call) :
    (DrawsFit s calls → SlotsCounted s calls → ResourcesCurrent s calls) ∧
      (s.drawMemorySize.toNat ≤ CommandBuffer.resourceBufferSize * 2 ^ 32 → DrawsFit s calls →
        SlotsCounted s calls) ∧
      ∀ maxShaderStages maxDraws : BitVec 32, 1 ≤ maxShaderStages.toNat →
        maxShaderStages.toNat * maxDraws.toNat < 2 ^ 32 →
        calls.countP (fun c => c.kind = .draw) ≤ maxDraws.toNat →
        (s.resourceBufferMappedAddress ≠ none →
          CommandBuffer.getDrawMemorySize maxShaderStages maxDraws ≤ s.drawMemorySize →
          DrawsFit s calls) ∧
        ∀ t, s.record calls = .ok t → ∀ slot ∈ writes t.history,
          CommandBuffer.resourceBufferSize * slot.toNat + CommandBuffer.resourceBufferSize ≤
            (CommandBuffer.getDrawMemorySize maxShaderStages maxDraws).toNat :=
  ⟨DrawsFit.resourcesCurrent, fun hsize hfits => hfits.slotsCounted hsize,
    fun _ _ hstages hproduct hdraws =>
      ⟨drawsFit_of_getDrawMemorySize hstages hproduct hdraws, fun _ h _ hslot =>
        slot_end_le_getDrawMemorySize h hstages hproduct hdraws hslot⟩⟩

/-- Two stages are set, drawn with, and one of them is set again. -/
def twoDraws : List Call :=
  [.setUniformBuffer 0 .vertex 5, .setTextureAndSampler 3 .fragment 7 8, .draw 3 3 0,
   .setStorageBuffer 1 .vertex 9, .draw 3 3 0]

theorem record_shaderResources_twoDraws :
    ∃ t, blank.record twoDraws = .ok t ∧ DrawsFit blank twoDraws ∧
      ResourcesCurrent blank twoDraws ∧ ∀ slot ∈ writes t.history,
        0x200 * slot.toNat + 0x200 ≤ (CommandBuffer.getDrawMemorySize 2 2).toNat := by
  obtain ⟨t, ht⟩ : ∃ t, blank.record twoDraws = .ok t := ⟨_, rfl⟩
  obtain ⟨hcurrent, hcounted, hsize⟩ := record_shaderResources blank twoDraws
  obtain ⟨hfits, hslots⟩ := hsize 2 2 (by decide) (by decide) (by decide)
  have hdraws := hfits nofun (BitVec.le_refl _)
  exact ⟨t, ht, hdraws, hcurrent hdraws (hcounted (by decide) hdraws), hslots t ht⟩

/-! ### Recordings that outgrow the memory or the counter -/

/-- `n` draws, each with a new uniform buffer of the vertex stage. -/
def uniformDraws : ℕ → List Call
  | 0 => []
  | n + 1 =>
    uniformDraws n ++ [.setUniformBuffer 0 .vertex (BitVec.ofNat 64 (n + 1)), .draw 0 0 0]

theorem uniformDraws_one_isPrefix (n : ℕ) : uniformDraws 1 <+: uniformDraws (n + 1) := by
  induction n with
  | zero => exact List.prefix_refl _
  | succ n ih => exact ih.trans (List.prefix_append _ _)

/-- A command buffer with mapped memory of this size. -/
def ofSize (size : BitVec 64) : Recording := { blank with drawMemorySize := size }

variable {size : BitVec 64}

/-- The state after such draws. -/
structure AfterUniformDraws (size : BitVec 64) (n : ℕ) (s : Recording) : Prop where
  uniformBuffer : (s.resourceBufferPerStageArray 0).uniformBuffers 0 = BitVec.ofNat 64 n
  mapped : s.resourceBufferMappedAddress = some 0
  memorySize : s.drawMemorySize = size
  needResourceUpdate : ∀ stage, s.needResourceUpdate stage = false
  writes : writes s.history = (List.range n).map (BitVec.ofNat 32)
  count : s.resourceUpdateCount = BitVec.ofNat 32 n

theorem foldlM_updateBlock_of_not_needed {blocks : List UpdateBlock}
    (h : ∀ block ∈ blocks, s.needResourceUpdate block.flag = false) :
    blocks.foldlM updateBlock s = .ok s := by
  induction blocks with
  | nil => rfl
  | cons block blocks ih =>
      rw [List.forall_mem_cons] at h
      rw [List.foldlM_cons, updateBlock, if_neg (by simp [h.1])]
      exact ih h.2

/-- Only the vertex stage waits for an update. -/
theorem foldlM_updateBlock_vertex (hvertex : s.needResourceUpdate 0 = true)
    (hother : ∀ stage, stage ≠ 0 → s.needResourceUpdate stage = false) :
    updateBlocks.foldlM updateBlock s =
      if s.NextSlotFits then .ok (s.flush ⟨0, 0, shaderStageVertexBit, 8 * 0⟩)
      else .error .outOfBounds := by
  rw [updateBlocks, List.foldlM_cons, updateBlock, if_pos hvertex]
  split
  next =>
    refine foldlM_updateBlock_of_not_needed fun block _ => ?_
    change Function.update s.needResourceUpdate 0 false block.flag = false
    rw [Function.update_apply]
    split
    next => rfl
    next hne => exact hother _ hne
  next => rfl

theorem call_setUniformBuffer_vertex {address : BitVec 64}
    (h : (s.resourceBufferPerStageArray 0).uniformBuffers 0 ≠ address) :
    ∃ t, s.call (.setUniformBuffer 0 .vertex address) = .ok t ∧
      (t.resourceBufferPerStageArray 0).uniformBuffers 0 = address ∧ SameMemory s t ∧
      t.needResourceUpdate = Function.update s.needResourceUpdate 0 true ∧ SameSlots s t := by
  refine ⟨(s.enter (.setUniformBuffer 0 .vertex address)).setResources 0
    { s.resourceBufferPerStageArray 0 with
      uniformBuffers :=
        Function.update (s.resourceBufferPerStageArray 0).uniformBuffers 0 address },
    if_neg h, ?_, ⟨rfl, rfl, rfl⟩, rfl, sameSlots_append rfl rfl rfl rfl rfl fun _ => rfl⟩
  simp [setResources]

/-- The memory is mapped, and only the vertex stage waits for an update. -/
structure VertexWaits (s : Recording) : Prop where
  mapped : s.resourceBufferMappedAddress = some 0
  vertex : s.needResourceUpdate 0 = true
  other : ∀ stage, stage ≠ 0 → s.needResourceUpdate stage = false

theorem VertexWaits.updateResourceBufferIfNecessary_eq (h : VertexWaits s) (c : Call) :
    (s.enter c).updateResourceBufferIfNecessary =
      if s.NextSlotFits then .ok ((s.enter c).flush ⟨0, 0, shaderStageVertexBit, 8 * 0⟩)
      else .error .outOfBounds := by
  have hmapped : (s.enter c).resourceBufferMappedAddress = some 0 := h.mapped
  have hvertex : (s.enter c).needResourceUpdate 0 = true := h.vertex
  rw [updateResourceBufferIfNecessary, hmapped]
  exact foldlM_updateBlock_vertex hvertex h.other

/-- A draw that only updates the vertex stage. -/
theorem VertexWaits.call_draw (h : VertexWaits s) (hfits : s.NextSlotFits) :
    ∃ t, s.call (.draw 0 0 0) = .ok t ∧
      t.resourceBufferPerStageArray = s.resourceBufferPerStageArray ∧ SameMemory s t ∧
      (∀ stage, t.needResourceUpdate stage = false) ∧
      writes t.history = writes s.history ++ [s.resourceUpdateCount] ∧
      t.resourceUpdateCount = s.resourceUpdateCount + 1 := by
  have hupdate := h.updateResourceBufferIfNecessary_eq (.draw 0 0 0)
  rw [if_pos hfits] at hupdate
  set updated := (s.enter (.draw 0 0 0)).flush ⟨0, 0, shaderStageVertexBit, 8 * 0⟩ with hupdated
  have hsteps := quiets_beginRenderingIfNotRendering (s := updated)
  have hcall : s.call (.draw 0 0 0) =
      .ok ((updated.beginRenderingIfNotRendering.emit
        (.setDynamicState (.primitiveTopology 0))).emit (.draw 0 1 0 0)) := by
    change (s.enter (.draw 0 0 0)).updateResourceBufferIfNecessary >>= _ = _
    rw [hupdate]
    rfl
  have hsame := (hsteps.sameSlots.trans
    (sameSlots_emit (c := .setDynamicState (.primitiveTopology 0)) nofun)).trans
    (sameSlots_emit (c := .draw 0 1 0 0) nofun)
  refine ⟨_, hcall, ?_, (call_resources hcall).memory, ?_, ?_, hsame.resourceUpdateCount⟩
  · exact hsteps.sameTables.resourceBufferPerStageArray
  · intro stage
    exact (congrFun hsteps.sameTables.needResourceUpdate stage).trans
      ((updated_of_eq_ok hupdate).2 stage)
  · rw [hsame.writes, writes_flush, (sameSlots_enter _).writes]
    rfl

theorem VertexWaits.call_draw_fails (h : VertexWaits s) (hfull : ¬ s.NextSlotFits) :
    s.call (.draw 0 0 0) = .error .outOfBounds := by
  have hupdate := h.updateResourceBufferIfNecessary_eq (.draw 0 0 0)
  rw [if_neg hfull] at hupdate
  change (s.enter (.draw 0 0 0)).updateResourceBufferIfNecessary >>= _ = _
  rw [hupdate]
  rfl

/-- The setter of the next round, after which only the vertex stage waits for an update. -/
theorem AfterUniformDraws.set {n : ℕ} (h : AfterUniformDraws size n s) :
    ∃ t, s.call (.setUniformBuffer 0 .vertex (BitVec.ofNat 64 (n + 1))) = .ok t ∧
      (t.resourceBufferPerStageArray 0).uniformBuffers 0 = BitVec.ofNat 64 (n + 1) ∧
      SameMemory s t ∧ VertexWaits t ∧ SameSlots s t := by
  have hne : (s.resourceBufferPerStageArray 0).uniformBuffers 0 ≠ BitVec.ofNat 64 (n + 1) := by
    rw [h.uniformBuffer, BitVec.ofNat_add]
    exact fun heq => absurd (BitVec.self_eq_add_right.mp heq) (by decide)
  obtain ⟨t, ht, huniform, hmemory, hneed, hsame⟩ := call_setUniformBuffer_vertex hne
  refine ⟨t, ht, huniform, hmemory, ⟨?_, ?_, fun stage hstage => ?_⟩, hsame⟩
  · exact hmemory.resourceBufferMappedAddress.trans h.mapped
  · rw [hneed, Function.update_self]
  · rw [hneed, Function.update_of_ne hstage, h.needResourceUpdate]

theorem AfterUniformDraws.nextSlotFits_iff {n : ℕ} (h : AfterUniformDraws size n s)
    (hmemory : SameMemory s t) (hsame : SameSlots s t) :
    t.NextSlotFits ↔ 0x200 * (n % 2 ^ 32) + 0x200 ≤ size.toNat := by
  rw [NextSlotFits, hmemory.drawMemorySize, hsame.resourceUpdateCount, h.memorySize, h.count,
    BitVec.toNat_ofNat]
  rfl

theorem AfterUniformDraws.next {n : ℕ} (h : AfterUniformDraws size n s)
    (hfits : 0x200 * (n % 2 ^ 32) + 0x200 ≤ size.toNat) :
    ∃ t, [.setUniformBuffer 0 .vertex (BitVec.ofNat 64 (n + 1)), .draw 0 0 0].foldlM call s =
      .ok t ∧ AfterUniformDraws size (n + 1) t := by
  obtain ⟨u, hu, huniform, hmemory, hwaits, hsame⟩ := h.set
  obtain ⟨t, ht, htables, hmemory', hneed, hwrites, hcount⟩ :=
    hwaits.call_draw ((h.nextSlotFits_iff hmemory hsame).mpr hfits)
  have hmemory := hmemory.trans hmemory'
  refine ⟨t, ?_, ?_⟩
  · rw [List.foldlM_cons, hu, ok_bind, List.foldlM_cons, ht]
    rfl
  · constructor
    · rw [htables, huniform]
    · exact hmemory.resourceBufferMappedAddress.trans h.mapped
    · exact hmemory.drawMemorySize.trans h.memorySize
    · exact hneed
    · rw [hwrites, hsame.writes, hsame.resourceUpdateCount, h.writes, h.count, List.range_succ,
        List.map_append]
      rfl
    · rw [hcount, hsame.resourceUpdateCount, h.count, BitVec.ofNat_add]
      rfl

theorem record_uniformDraws (n : ℕ)
    (hfits : ∀ i < n, 0x200 * (i % 2 ^ 32) + 0x200 ≤ size.toNat) :
    ∃ t, (ofSize size).record (uniformDraws n) = .ok t ∧ AfterUniformDraws size n t := by
  induction n with
  | zero => exact ⟨_, rfl, ⟨rfl, rfl, rfl, fun _ => rfl, rfl, rfl⟩⟩
  | succ n ih =>
      obtain ⟨u, hu, hafter⟩ := ih fun i hi => hfits i (hi.trans (Nat.lt_succ_self n))
      obtain ⟨t, ht, hnext⟩ := hafter.next (hfits n (Nat.lt_succ_self n))
      refine ⟨t, ?_, hnext⟩
      rw [uniformDraws, record_append, hu, ok_bind]
      exact ht

/-- The draw for which there is no slot left leaves the mapped memory. -/
theorem not_resourcesCurrent_full {n : ℕ} (hn : n < 2 ^ 32)
    (hfits : 0x200 * n ≤ size.toNat) (hfull : size.toNat < 0x200 * n + 0x200) :
    ¬ ResourcesCurrent (ofSize size) (uniformDraws (n + 1)) := by
  intro hcurrent
  have hroom : ∀ i < n, 0x200 * (i % 2 ^ 32) + 0x200 ≤ size.toNat := fun i hi => by omega
  obtain ⟨t, ht, hafter⟩ := record_uniformDraws n hroom
  obtain ⟨u, hu, huniform, hmemory, hwaits, hsame⟩ := hafter.set
  have hchanged : Changed (ofSize size)
      (uniformDraws n ++ [.setUniformBuffer 0 .vertex (BitVec.ofNat 64 (n + 1))]) 0 := by
    refine ⟨_, _, t, u, List.prefix_refl _, ht, hu, fun heq => ?_⟩
    rw [heq, hafter.uniformBuffer, BitVec.ofNat_add] at huniform
    exact absurd (BitVec.self_eq_add_right.mp huniform) (by decide)
  obtain ⟨v, slot, hdraw, -⟩ := hcurrent _ (.draw 0 0 0) [] u 0 (by simp [uniformDraws]) rfl
    (record_concat_eq_ok.mpr ⟨t, ht, hu⟩) hchanged
  have hnotFits : ¬ u.NextSlotFits := by
    rw [hafter.nextSlotFits_iff hmemory hsame]
    omega
  rw [hwaits.call_draw_fails hnotFits] at hdraw
  cases hdraw

theorem slotAddress_injective (address : BitVec 64) : Function.Injective (slotAddress address) := by
  intro slot slot' h
  have hmul := BitVec.add_right_inj address |>.mp h
  have hnat := congrArg BitVec.toNat hmul
  have hlt := slot.isLt
  have hlt' := slot'.isLt
  rw [BitVec.toNat_mul, BitVec.toNat_mul, BitVec.toNat_setWidth, BitVec.toNat_setWidth] at hnat
  change 512 * _ % _ = 512 * _ % _ at hnat
  apply BitVec.eq_of_toNat_eq
  omega

/-- The first draw reads the slot 0, which is written again after `2 ^ 32` copies. -/
theorem not_resourcesCurrent_wrapped {n : ℕ} (hn : 2 ^ 32 ≤ n)
    (hsize : 0x200 * 2 ^ 32 ≤ size.toNat) :
    ¬ ResourcesCurrent (ofSize size) (uniformDraws (n + 1)) := by
  intro hcurrent
  have hfits (i : ℕ) : 0x200 * (i % 2 ^ 32) + 0x200 ≤ size.toNat := by omega
  obtain ⟨after, hcalls⟩ := uniformDraws_one_isPrefix n
  obtain ⟨v, hv, hafter⟩ := record_uniformDraws (n + 1) fun i _ => hfits i
  obtain ⟨u, hone, hfirst⟩ := record_uniformDraws 1 fun i _ => hfits i
  obtain ⟨t, ht, hdraw⟩ := record_concat_eq_ok.mp
    (show (ofSize size).record ([.setUniformBuffer 0 .vertex 1] ++ [.draw 0 0 0]) = .ok u from hone)
  have hchanged : Changed (ofSize size) [.setUniformBuffer 0 .vertex 1] 0 := by
    refine ⟨[], _, _, _, List.prefix_refl _, rfl, rfl, fun heq => ?_⟩
    have hset := congrFun (congrArg ResourceBuffer.uniformBuffers heq) 0
    change (1 : BitVec 64) = 0 at hset
    exact absurd hset (by decide)
  obtain ⟨u', slot, hu, hpushed, -, hkept⟩ :=
    hcurrent [.setUniformBuffer 0 .vertex 1] (.draw 0 0 0) after t 0 hcalls.symm rfl ht hchanged
  obtain rfl : u' = u := Except.ok.inj (hu.symm.trans hdraw)
  -- The slot of the first draw is the only one written so far.
  have hwrites : writes u'.history = [0] := hfirst.writes
  have hresources := call_resources hu
  have hbound : (writes u'.history).length ≤ 2 ^ 32 := by simp [hwrites]
  have hboundt := (length_writes_le_of_isPrefix hresources.history).trans hbound
  obtain ⟨slot', hpushed', -, hmem⟩ := hresources.current (inOrder_of_record ht) hbound rfl 0
    (hchanged.tracked ht hboundt)
  obtain rfl : slot' = 0 := by simpa [hwrites] using hmem
  obtain rfl : slot = 0 := by
    rw [hpushed, hresources.memory.resourceBufferAddress,
      (sameMemory_of_record ht).resourceBufferAddress] at hpushed'
    exact slotAddress_injective _ (Option.some.inj hpushed')
  -- It is written again by the copy for which the counter is zero.
  have hrest : after.foldlM call u' = .ok v := by
    rw [← hcalls, record_append, hone, ok_bind] at hv
    exact hv
  obtain ⟨later, hlater, hnot⟩ := hkept after v (List.prefix_refl _) hrest
  refine hnot ?_
  have hall := hafter.writes
  rw [hlater, writes_append, hwrites] at hall
  have hget : (writes later)[2 ^ 32 - 1]? = some 0 := by
    have hindex := congrArg (fun slots => slots[2 ^ 32]?) hall
    simp only [List.getElem?_map, List.getElem?_range (Nat.lt_succ_of_le hn),
      Option.map_some] at hindex
    rw [List.getElem?_append_right (by decide)] at hindex
    exact hindex
  exact List.mem_of_getElem? hget

/-- Memory for one draw of one stage holds a hundred and twenty slots. A memory with a slot for
every value of the counter is written again from its start. -/
theorem resourcesCurrent_fails_uniformDraws :
    ¬ ResourcesCurrent (ofSize (CommandBuffer.getDrawMemorySize 1 1)) (uniformDraws 121) ∧
      ¬ ResourcesCurrent (ofSize 0x20000000000) (uniformDraws (2 ^ 32 + 1)) :=
  ⟨not_resourcesCurrent_full (n := 120) (by decide) (by decide) (by decide),
    not_resourcesCurrent_wrapped (Nat.le_refl _) (by decide)⟩

end Recording

end DDFramework
