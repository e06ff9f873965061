import DDFramework.Verification.CommandBuffer.Calls
import Mathlib.Data.List.Nodup
import Mathlib.Data.List.Range

/-! The slots of a recording: which of them are written, and which one the last pushed address of
a stage points to. -/

namespace DDFramework

open Vulkan

namespace RecordingEvent

/-- The bit of a stage, by the value of its enumerator. -/
def stageBit (stage : Fin 6) : Word :=
  [shaderStageVertexBit, shaderStageTessellationEvaluationBit, shaderStageTessellationControlBit,
    shaderStageGeometryBit, shaderStageFragmentBit, shaderStageComputeBit].get stage

/-- The address that the event pushes for the stage. -/
def pushedFor (stage : Fin 6) : RecordingEvent → Option (BitVec 64)
  | .command (.pushConstants stageFlags _ value) _ =>
    if stageFlags = stageBit stage then some value else none
  | _ => none

def writtenSlot : RecordingEvent → Option (BitVec 32)
  | .write slot _ => some slot
  | _ => none

def lastPushed (stage : Fin 6) (t : List RecordingEvent) : Option (BitVec 64) :=
  (t.filterMap (pushedFor stage)).getLast?

/-- The slots written in a history, in this order. -/
def writes (t : List RecordingEvent) : List (BitVec 32) := t.filterMap writtenSlot

theorem pushedFor_command {c : Command} (h : c.kind ≠ .push) (stage : Fin 6) (isRendering : Bool) :
    pushedFor stage (.command c isRendering) = none := by
  cases c with
  | pushConstants => exact absurd rfl h
  | _ => rfl

theorem writes_append (t u : List RecordingEvent) : writes (t ++ u) = writes t ++ writes u :=
  List.filterMap_append

theorem lastPushed_concat (stage : Fin 6) (t : List RecordingEvent) (e : RecordingEvent) :
    lastPushed stage (t ++ [e]) = (pushedFor stage e).or (lastPushed stage t) := by
  unfold lastPushed
  rw [List.filterMap_append, List.getLast?_append]
  cases h : pushedFor stage e with
  | none => simp [h]
  | some value => simp [h]

end RecordingEvent

open RecordingEvent

namespace Recording

variable {s t u : Recording}

/-! ### Quiet steps -/

/-- What the steps without a copy keep. -/
structure SameSlots (s t : Recording) : Prop where
  slots : t.slots = s.slots
  resourceUpdateCount : t.resourceUpdateCount = s.resourceUpdateCount
  resourceBufferAddress : t.resourceBufferAddress = s.resourceBufferAddress
  history : s.history <+: t.history
  writes : writes t.history = writes s.history
  lastPushed : ∀ stage, lastPushed stage t.history = lastPushed stage s.history

theorem SameSlots.refl (s : Recording) : SameSlots s s :=
  ⟨rfl, rfl, rfl, List.prefix_refl _, rfl, fun _ => rfl⟩

theorem SameSlots.trans (h : SameSlots s t) (h' : SameSlots t u) : SameSlots s u where
  slots := h'.slots.trans h.slots
  resourceUpdateCount := h'.resourceUpdateCount.trans h.resourceUpdateCount
  resourceBufferAddress := h'.resourceBufferAddress.trans h.resourceBufferAddress
  history := h.history.trans h'.history
  writes := h'.writes.trans h.writes
  lastPushed stage := (h'.lastPushed stage).trans (h.lastPushed stage)

/-- One more event that neither writes nor pushes. -/
theorem sameSlots_append {e : RecordingEvent} (hslots : t.slots = s.slots)
    (hcount : t.resourceUpdateCount = s.resourceUpdateCount)
    (haddress : t.resourceBufferAddress = s.resourceBufferAddress)
    (hh : t.history = s.history ++ [e]) (hwrite : e.writtenSlot = none)
    (hpush : ∀ stage, e.pushedFor stage = none) : SameSlots s t where
  slots := hslots
  resourceUpdateCount := hcount
  resourceBufferAddress := haddress
  history := hh ▸ List.prefix_append _ _
  writes := by simp [hh, RecordingEvent.writes, hwrite]
  lastPushed stage := by simp [hh, lastPushed_concat, hpush]

theorem sameSlots_emit {c : Command} (h : c.kind ≠ .push) : SameSlots s (s.emit c) :=
  sameSlots_append rfl rfl rfl rfl rfl fun stage => pushedFor_command h stage _

theorem sameSlots_enter (c : Call) : SameSlots s (s.enter c) :=
  sameSlots_append rfl rfl rfl rfl rfl fun _ => rfl

theorem Quiets.sameSlots (h : Quiets s t) : SameSlots s t := by
  induction h with
  | refl => exact .refl s
  | tail _ hstep ih =>
      refine ih.trans ?_
      cases hstep with
      | plain hc => exact sameSlots_emit (by simp [hc])
      | outside hc _ => exact sameSlots_emit (by rcases hc with hc | hc <;> simp [hc])
      | endRendering _ => exact sameSlots_append rfl rfl rfl rfl rfl fun _ => rfl
      | beginRendering _ => exact sameSlots_append rfl rfl rfl rfl rfl fun _ => rfl
      | adjust => exact ⟨rfl, rfl, rfl, List.prefix_refl _, rfl, fun _ => rfl⟩

/-- The resources and their flags, which only a setter or an update changes. -/
structure SameTables (s t : Recording) : Prop where
  resourceBufferPerStageArray : t.resourceBufferPerStageArray = s.resourceBufferPerStageArray
  needResourceUpdate : t.needResourceUpdate = s.needResourceUpdate

theorem Quiets.sameTables (h : Quiets s t) : SameTables s t := by
  induction h with
  | refl => exact ⟨rfl, rfl⟩
  | tail _ hstep ih =>
      cases hstep with
      | plain _ => exact ⟨ih.1, ih.2⟩
      | outside _ _ => exact ⟨ih.1, ih.2⟩
      | endRendering _ => exact ⟨ih.1, ih.2⟩
      | beginRendering _ => exact ⟨ih.1, ih.2⟩
      | adjust => exact ⟨ih.1, ih.2⟩

/-- The place and the size of the mapped memory, which no call changes. -/
structure SameMemory (s t : Recording) : Prop where
  resourceBufferMappedAddress : t.resourceBufferMappedAddress = s.resourceBufferMappedAddress
  resourceBufferAddress : t.resourceBufferAddress = s.resourceBufferAddress
  drawMemorySize : t.drawMemorySize = s.drawMemorySize

theorem SameMemory.refl (s : Recording) : SameMemory s s := ⟨rfl, rfl, rfl⟩

theorem SameMemory.trans (h : SameMemory s t) (h' : SameMemory t u) : SameMemory s u where
  resourceBufferMappedAddress :=
    h'.resourceBufferMappedAddress.trans h.resourceBufferMappedAddress
  resourceBufferAddress := h'.resourceBufferAddress.trans h.resourceBufferAddress
  drawMemorySize := h'.drawMemorySize.trans h.drawMemorySize

theorem sameMemory_enter (c : Call) : SameMemory s (s.enter c) := ⟨rfl, rfl, rfl⟩

theorem Quiets.sameMemory (h : Quiets s t) : SameMemory s t := by
  induction h with
  | refl => exact .refl s
  | tail _ hstep ih =>
      refine ih.trans ?_
      cases hstep with
      | plain _ => exact ⟨rfl, rfl, rfl⟩
      | outside _ _ => exact ⟨rfl, rfl, rfl⟩
      | endRendering _ => exact ⟨rfl, rfl, rfl⟩
      | beginRendering _ => exact ⟨rfl, rfl, rfl⟩
      | adjust => exact ⟨rfl, rfl, rfl⟩

/-! ### The slots that are written -/

/-- The slots of a recording are written one after another. -/
def InOrder (s : Recording) : Prop :=
  ∃ n, writes s.history = (List.range n).map (BitVec.ofNat 32) ∧
    s.resourceUpdateCount = BitVec.ofNat 32 n

theorem InOrder.sameSlots (h : InOrder s) (hs : SameSlots s t) : InOrder t := by
  rw [InOrder, hs.writes, hs.resourceUpdateCount]
  exact h

/-- No slot is written twice before the counter is back at zero. -/
theorem InOrder.nodup (h : InOrder s) (hbound : (writes s.history).length ≤ 2 ^ 32) :
    (writes s.history).Nodup := by
  obtain ⟨n, hn, -⟩ := h
  rw [hn, List.length_map, List.length_range] at hbound
  rw [hn]
  refine List.Nodup.map_on ?_ List.nodup_range
  intro i hi j hj heq
  rw [List.mem_range] at hi hj
  have hnat := congrArg BitVec.toNat heq
  rw [BitVec.toNat_ofNat, BitVec.toNat_ofNat, Nat.mod_eq_of_lt (by omega),
    Nat.mod_eq_of_lt (by omega)] at hnat
  exact hnat

/-! ### One block of the update -/

theorem writes_flush (block : UpdateBlock) :
    writes (s.flush block).history = writes s.history ++ [s.resourceUpdateCount] := by
  simp [flush, copyResources, writes, writtenSlot]

theorem lastPushed_flush (block : UpdateBlock) (stage : Fin 6) :
    lastPushed stage (s.flush block).history = if block.stageFlags = stageBit stage then
      some (slotAddress s.resourceBufferAddress s.resourceUpdateCount)
    else lastPushed stage s.history := by
  change lastPushed stage (s.history ++ [_] ++ [_]) = _
  rw [lastPushed_concat, lastPushed_concat, pushedFor]
  split
  · rfl
  · rfl

theorem InOrder.flushIfNeeded (h : InOrder s) (block : UpdateBlock) :
    InOrder (s.flushIfNeeded block) := by
  rw [Recording.flushIfNeeded]
  split
  · obtain ⟨n, hn, hcount⟩ := h
    refine ⟨n + 1, ?_, ?_⟩
    · rw [writes_flush, hn, hcount, List.range_succ, List.map_append]
      rfl
    · change s.resourceUpdateCount + 1 = _
      rw [hcount, BitVec.ofNat_add]
      rfl
  · exact h

theorem flushIfNeeded_history_isPrefix (s : Recording) (block : UpdateBlock) :
    s.history <+: (s.flushIfNeeded block).history := by
  rw [Recording.flushIfNeeded]
  split
  · exact (List.prefix_append _ _).trans (List.prefix_append _ _)
  · exact List.prefix_refl _

theorem length_writes_flushIfNeeded (s : Recording) (block : UpdateBlock) :
    (writes (s.flushIfNeeded block).history).length =
      (writes s.history).length + if s.needResourceUpdate block.flag then 1 else 0 := by
  rw [Recording.flushIfNeeded]
  split
  · rw [writes_flush, List.length_append, List.length_singleton]
  · rfl

theorem flushIfNeeded_resourceBufferPerStageArray (s : Recording) (block : UpdateBlock) :
    (s.flushIfNeeded block).resourceBufferPerStageArray = s.resourceBufferPerStageArray := by
  rw [Recording.flushIfNeeded]
  split <;> rfl

theorem sameMemory_flushIfNeeded (s : Recording) (block : UpdateBlock) :
    SameMemory s (s.flushIfNeeded block) := by
  rw [Recording.flushIfNeeded]
  split
  · exact ⟨rfl, rfl, rfl⟩
  · exact .refl s

theorem flushIfNeeded_needResourceUpdate (s : Recording) (block : UpdateBlock) :
    (s.flushIfNeeded block).needResourceUpdate =
      Function.update s.needResourceUpdate block.flag false := by
  rw [Recording.flushIfNeeded]
  split
  next => rfl
  next h => rw [← Bool.eq_false_iff.mpr h, Function.update_eq_self]

/-- The number of the blocks whose flags are set. -/
def waiting (blocks : List UpdateBlock) (s : Recording) : ℕ :=
  blocks.countP fun block => s.needResourceUpdate block.flag

/-- A block sets no flag. -/
theorem waiting_flushIfNeeded_le (blocks : List UpdateBlock) (s : Recording)
    (block : UpdateBlock) : waiting blocks (s.flushIfNeeded block) ≤ waiting blocks s := by
  refine List.countP_mono_left fun other _ hneed => ?_
  rw [flushIfNeeded_needResourceUpdate, Function.update_apply] at hneed
  split at hneed
  · cases hneed
  · exact hneed

theorem waiting_cons (block : UpdateBlock) (blocks : List UpdateBlock) (s : Recording) :
    waiting (block :: blocks) s =
      waiting blocks s + if s.needResourceUpdate block.flag then 1 else 0 :=
  List.countP_cons

/-- The slot of the last pushed address holds the resources of the stage. -/
def Current (s : Recording) (stage : Fin 6) : Prop :=
  ∃ slot, lastPushed stage s.history = some (slotAddress s.resourceBufferAddress slot) ∧
    s.slots slot = s.resourceBufferPerStageArray stage ∧ slot ∈ writes s.history

/-- The next draw reads the resources of the stage. -/
def Tracked (s : Recording) (stage : Fin 6) : Prop :=
  s.needResourceUpdate stage = true ∨ Current s stage

theorem Current.sameSlots {stage : Fin 6} (h : Current s stage) (hs : SameSlots s t)
    (htables : t.resourceBufferPerStageArray stage = s.resourceBufferPerStageArray stage) :
    Current t stage := by
  rw [Current, hs.lastPushed, hs.resourceBufferAddress, hs.slots, hs.writes, htables]
  exact h

/-- The block copies the resources of its own stage and pushes the address for it. -/
structure UpdateBlock.Matches (block : UpdateBlock) : Prop where
  flag : block.flag = block.stage
  stageFlags : block.stageFlags = stageBit block.stage

/-- The flags and the blocks follow the enumerators. -/
theorem updateBlocks_matches : ∀ block ∈ updateBlocks, UpdateBlock.Matches block := by
  simp only [updateBlocks, List.forall_mem_cons]
  exact ⟨⟨rfl, rfl⟩, ⟨rfl, rfl⟩, ⟨rfl, rfl⟩, ⟨rfl, rfl⟩, ⟨rfl, rfl⟩, ⟨rfl, rfl⟩, by simp⟩

theorem stageBit_injective : Function.Injective stageBit := by decide

theorem current_flush {block : UpdateBlock} (hblock : UpdateBlock.Matches block) :
    Current (s.flush block) block.stage := by
  refine ⟨s.resourceUpdateCount, ?_, Function.update_self .., ?_⟩
  · rw [lastPushed_flush, if_pos hblock.stageFlags]
    rfl
  · rw [writes_flush]
    exact List.mem_concat_self

theorem Current.flush_of_ne {block : UpdateBlock} (hblock : UpdateBlock.Matches block)
    {stage : Fin 6} (hne : stage ≠ block.stage) (hfresh : s.resourceUpdateCount ∉ writes s.history)
    (h : Current s stage) : Current (s.flush block) stage := by
  obtain ⟨slot, hpushed, hslot, hmem⟩ := h
  refine ⟨slot, ?_, ?_, ?_⟩
  · have hbit : block.stageFlags ≠ stageBit stage := fun heq =>
      hne (stageBit_injective (heq.symm.trans hblock.stageFlags))
    rw [lastPushed_flush, if_neg hbit]
    exact hpushed
  · have hslot' : slot ≠ s.resourceUpdateCount := fun heq => hfresh (heq ▸ hmem)
    exact (Function.update_of_ne hslot' ..).trans hslot
  · rw [writes_flush]
    exact List.mem_append_left _ hmem

theorem Tracked.flushIfNeeded {block : UpdateBlock} (hblock : UpdateBlock.Matches block)
    {stage : Fin 6} (hinOrder : InOrder s)
    (hbound : (writes (s.flushIfNeeded block).history).length ≤ 2 ^ 32) (h : Tracked s stage) :
    Tracked (s.flushIfNeeded block) stage := by
  have hnodup := (hinOrder.flushIfNeeded block).nodup hbound
  rw [Recording.flushIfNeeded] at hnodup ⊢
  split at hnodup
  next hflag =>
    rw [if_pos hflag]
    rw [writes_flush, ← List.concat_eq_append, List.nodup_concat] at hnodup
    by_cases hstage : stage = block.stage
    · exact .inr (hstage ▸ current_flush hblock)
    · refine h.imp (fun hneed => ?_) (Current.flush_of_ne hblock hstage hnodup.1)
      exact (Function.update_of_ne (hblock.flag ▸ hstage) ..).trans hneed
  next hflag =>
    rw [if_neg hflag]
    exact h

/-! ### The update before a draw -/

/-- What a sequence of blocks does. -/
structure Updated (blocks : List UpdateBlock) (s t : Recording) : Prop where
  inOrder : InOrder s → InOrder t
  history : s.history <+: t.history
  length_writes : (writes t.history).length ≤ (writes s.history).length + waiting blocks s
  tables : t.resourceBufferPerStageArray = s.resourceBufferPerStageArray
  memory : SameMemory s t
  needResourceUpdate : ∀ block ∈ blocks, t.needResourceUpdate block.flag = false
  needResourceUpdate_of_eq : ∀ stage, s.needResourceUpdate stage = false →
    t.needResourceUpdate stage = false
  tracked : InOrder s → (writes t.history).length ≤ 2 ^ 32 → ∀ stage, Tracked s stage →
    Tracked t stage

theorem updated_foldl {blocks : List UpdateBlock}
    (hblocks : ∀ block ∈ blocks, UpdateBlock.Matches block) (s : Recording) :
    Updated blocks s (blocks.foldl flushIfNeeded s) := by
  induction blocks generalizing s with
  | nil =>
      exact ⟨id, List.prefix_refl _, Nat.le_refl _, rfl, .refl s, nofun, fun _ => id,
        fun _ _ _ => id⟩
  | cons block blocks ih =>
      rw [List.forall_mem_cons] at hblocks
      have hrest := ih hblocks.2 (s.flushIfNeeded block)
      have hneed := flushIfNeeded_needResourceUpdate s block
      rw [List.foldl_cons]
      constructor
      case inOrder => exact fun h => hrest.inOrder (h.flushIfNeeded block)
      case history => exact (flushIfNeeded_history_isPrefix s block).trans hrest.history
      case length_writes =>
        have hlength := hrest.length_writes
        have hwaiting := waiting_flushIfNeeded_le blocks s block
        rw [length_writes_flushIfNeeded] at hlength
        rw [waiting_cons]
        omega
      case tables => exact hrest.tables.trans (flushIfNeeded_resourceBufferPerStageArray s block)
      case memory => exact (sameMemory_flushIfNeeded s block).trans hrest.memory
      case needResourceUpdate =>
        rw [List.forall_mem_cons]
        refine ⟨hrest.needResourceUpdate_of_eq _ ?_, hrest.needResourceUpdate⟩
        rw [hneed, Function.update_self]
      case needResourceUpdate_of_eq =>
        intro stage hstage
        refine hrest.needResourceUpdate_of_eq stage ?_
        rw [hneed, Function.update_apply]
        split
        · rfl
        · exact hstage
      case tracked =>
        intro hinOrder hbound stage h
        refine hrest.tracked (hinOrder.flushIfNeeded block) hbound stage ?_
        refine h.flushIfNeeded hblocks.1 hinOrder ?_
        exact (hrest.history.filterMap writtenSlot).length_le.trans hbound

/-- After the update no stage waits for one. -/
theorem updated_of_eq_ok (h : s.updateResourceBufferIfNecessary = .ok t) :
    Updated updateBlocks s t ∧ ∀ stage, t.needResourceUpdate stage = false := by
  rw [updateResourceBufferIfNecessary_eq_ok h]
  have hupdated := updated_foldl updateBlocks_matches s
  refine ⟨hupdated, fun stage => ?_⟩
  have hstage : ∃ block ∈ updateBlocks, block.flag = stage := by
    revert stage
    decide
  obtain ⟨block, hblock, rfl⟩ := hstage
  exact hupdated.needResourceUpdate block hblock

/-- The copies of the blocks end inside the mapped memory if there are slots left for them. -/
theorem foldlM_updateBlock_returns {blocks : List UpdateBlock} (hinOrder : InOrder s)
    (hfits : CommandBuffer.resourceBufferSize *
      ((writes s.history).length + waiting blocks s) ≤ s.drawMemorySize.toNat) :
    ∃ t, blocks.foldlM updateBlock s = .ok t := by
  induction blocks generalizing s with
  | nil => exact ⟨s, rfl⟩
  | cons block blocks ih =>
      rw [waiting_cons] at hfits
      have hblock : s.updateBlock block = .ok (s.flushIfNeeded block) := by
        rw [updateBlock, flushIfNeeded]
        split
        next hneed =>
          obtain ⟨n, hn, hcount⟩ := hinOrder
          have hslot : s.NextSlotFits := by
            have hle : (BitVec.ofNat 32 n).toNat ≤ n := Nat.mod_le _ _
            have hmul := Nat.mul_le_mul_left CommandBuffer.resourceBufferSize hle
            rw [hn, List.length_map, List.length_range, if_pos hneed, Nat.mul_add,
              Nat.mul_add, Nat.mul_one] at hfits
            rw [NextSlotFits, hcount]
            omega
          rw [if_pos hslot]
        next => rfl
      have hrest : CommandBuffer.resourceBufferSize *
          ((writes (s.flushIfNeeded block).history).length +
            waiting blocks (s.flushIfNeeded block)) ≤
          (s.flushIfNeeded block).drawMemorySize.toNat := by
        have hwaiting := waiting_flushIfNeeded_le blocks s block
        rw [(sameMemory_flushIfNeeded s block).drawMemorySize, length_writes_flushIfNeeded]
        refine (Nat.mul_le_mul_left _ ?_).trans hfits
        omega
      obtain ⟨t, ht⟩ := ih (hinOrder.flushIfNeeded block) hrest
      exact ⟨t, bind_eq_ok_iff.mpr ⟨_, hblock, ht⟩⟩

theorem updateResourceBufferIfNecessary_returns (hinOrder : InOrder s)
    (hmapped : s.resourceBufferMappedAddress ≠ none)
    (hfits : CommandBuffer.resourceBufferSize *
      ((writes s.history).length + waiting updateBlocks s) ≤ s.drawMemorySize.toNat) :
    ∃ t, s.updateResourceBufferIfNecessary = .ok t := by
  unfold updateResourceBufferIfNecessary
  split
  · next hnone => exact absurd hnone hmapped
  · exact foldlM_updateBlock_returns hinOrder hfits

/-! ### Calls -/

/-- What a call does to the resources. -/
structure CallResources (c : Call) (s t : Recording) : Prop where
  inOrder : InOrder s → InOrder t
  history : s.history <+: t.history
  length_writes : (writes t.history).length ≤
    (writes s.history).length + if c.kind = .draw then waiting updateBlocks s else 0
  memory : SameMemory s t
  changed : ∀ stage, t.resourceBufferPerStageArray stage ≠ s.resourceBufferPerStageArray stage →
    Tracked t stage
  tracked : InOrder s → (writes t.history).length ≤ 2 ^ 32 → ∀ stage, Tracked s stage →
    Tracked t stage
  current : InOrder s → (writes t.history).length ≤ 2 ^ 32 → c.kind = .draw →
    ∀ stage, Tracked s stage → Current t stage

theorem Tracked.quiets {stage : Fin 6} (h : Tracked s stage) (hsteps : Quiets s t) :
    Tracked t stage := by
  refine h.imp (fun hneed => ?_) (fun hcurrent => ?_)
  · rw [hsteps.sameTables.needResourceUpdate]
    exact hneed
  · exact hcurrent.sameSlots hsteps.sameSlots
      (congrFun hsteps.sameTables.resourceBufferPerStageArray stage)

theorem Tracked.enter {stage : Fin 6} (h : Tracked s stage) (c : Call) :
    Tracked (s.enter c) stage :=
  h.imp id fun hcurrent => hcurrent.sameSlots (sameSlots_enter c) rfl

theorem callResources_of_sameSlots {c : Call} (hc : c.kind ≠ .draw) (h : SameSlots s t)
    (hmemory : SameMemory s t)
    (hchanged : ∀ stage, t.resourceBufferPerStageArray stage ≠ s.resourceBufferPerStageArray stage →
      Tracked t stage)
    (htracked : ∀ stage, Tracked s stage → Tracked t stage) : CallResources c s t where
  inOrder := fun hinOrder => hinOrder.sameSlots h
  history := h.history
  length_writes := by rw [h.writes]; exact Nat.le_add_right _ _
  memory := hmemory
  changed := hchanged
  tracked := fun _ _ => htracked
  current := fun _ _ hdraw => absurd hdraw hc

theorem callResources_setResources {c : Call} (hc : c.kind ≠ .draw) (stage : Fin 6)
    (table : ResourceBuffer) : CallResources c s ((s.enter c).setResources stage table) := by
  have hneed : ((s.enter c).setResources stage table).needResourceUpdate stage = true :=
    Function.update_self ..
  have hother {other : Fin 6} (hne : other ≠ stage) :
      ((s.enter c).setResources stage table).resourceBufferPerStageArray other =
        s.resourceBufferPerStageArray other := Function.update_of_ne hne ..
  have hsame : SameSlots s ((s.enter c).setResources stage table) :=
    sameSlots_append rfl rfl rfl rfl rfl fun _ => rfl
  refine callResources_of_sameSlots hc hsame ⟨rfl, rfl, rfl⟩ (fun other hne => ?_)
    (fun other h => ?_)
  · by_cases heq : other = stage
    · exact .inl (heq ▸ hneed)
    · exact absurd (hother heq) hne
  · by_cases heq : other = stage
    · exact .inl (heq ▸ hneed)
    · refine h.imp (fun hold => ?_) (fun hcurrent => hcurrent.sameSlots hsame (hother heq))
      exact (Function.update_of_ne heq ..).trans hold

theorem callResources_draw {c : Call} {before updated ready : Recording} {command : Command}
    (hc : c.kind = .draw) (hrelocation : Quiets (s.enter c) before)
    (hupdate : before.updateResourceBufferIfNecessary = .ok updated) (hsteps : Quiets updated ready)
    (hcommand : command.kind = .draw) : CallResources c s (ready.emit command) := by
  have hbefore : SameSlots s before := (sameSlots_enter c).trans hrelocation.sameSlots
  have hafter : SameSlots updated (ready.emit command) :=
    hsteps.sameSlots.trans (sameSlots_emit (by simp [hcommand]))
  obtain ⟨hupdated, hneed⟩ := updated_of_eq_ok hupdate
  have htables : (ready.emit command).resourceBufferPerStageArray = s.resourceBufferPerStageArray :=
    (hsteps.sameTables.resourceBufferPerStageArray.trans hupdated.tables).trans
      hrelocation.sameTables.resourceBufferPerStageArray
  have hcurrent (hinOrder : InOrder s)
      (hbound : (writes (ready.emit command).history).length ≤ 2 ^ 32) (stage : Fin 6)
      (h : Tracked s stage) : Current (ready.emit command) stage := by
    rw [hafter.writes] at hbound
    have htracked := hupdated.tracked (hinOrder.sameSlots hbefore) hbound stage
      ((h.enter c).quiets hrelocation)
    refine Current.sameSlots (htracked.resolve_left ?_) hafter
      (congrFun hsteps.sameTables.resourceBufferPerStageArray stage)
    rw [hneed]
    exact Bool.false_ne_true
  constructor
  case inOrder => exact fun h => (hupdated.inOrder (h.sameSlots hbefore)).sameSlots hafter
  case history => exact (hbefore.history.trans hupdated.history).trans hafter.history
  case length_writes =>
    have hwaiting : waiting updateBlocks before = waiting updateBlocks s := by
      rw [waiting, hrelocation.sameTables.needResourceUpdate]
      rfl
    rw [hafter.writes, ← hbefore.writes, if_pos hc, ← hwaiting]
    exact hupdated.length_writes
  case memory =>
    have hstart : SameMemory s before := (sameMemory_enter c).trans hrelocation.sameMemory
    exact (hstart.trans hupdated.memory).trans (hsteps.sameMemory.trans ⟨rfl, rfl, rfl⟩)
  case changed => exact fun stage hne => absurd (congrFun htables stage) hne
  case tracked => exact fun hinOrder hbound stage h => .inr (hcurrent hinOrder hbound stage h)
  case current => exact fun hinOrder hbound _ => hcurrent hinOrder hbound

theorem call_resources {c : Call} (h : s.call c = .ok t) : CallResources c s t := by
  cases call_effect h with
  | quiet hc hsteps =>
      refine callResources_of_sameSlots (by simp [hc])
        ((sameSlots_enter c).trans hsteps.sameSlots)
        ((sameMemory_enter c).trans hsteps.sameMemory) ?_ fun stage htracked =>
          (htracked.enter c).quiets hsteps
      exact fun stage hne => absurd (congrFun hsteps.sameTables.resourceBufferPerStageArray stage) hne
  | setResources hc stage table => exact callResources_setResources (by simp [hc]) stage table
  | setRenderTargets hc colorTargets depthStencilTarget =>
      have hsame : SameSlots s { s.enter c with
          colorTargets := colorTargets
          depthStencilTarget := depthStencilTarget
          areNewTargets := true } := sameSlots_append rfl rfl rfl rfl rfl fun _ => rfl
      refine callResources_of_sameSlots (by simp [hc]) hsame ⟨rfl, rfl, rfl⟩
        (fun stage hne => absurd rfl hne) ?_
      exact fun stage htracked => htracked.imp id fun hcurrent => hcurrent.sameSlots hsame rfl
  | draw hc hrelocation hupdate hsteps _ _ hcommand =>
      exact callResources_draw hc hrelocation hupdate hsteps hcommand

end Recording

end DDFramework
