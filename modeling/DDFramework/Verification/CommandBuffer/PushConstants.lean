import DDFramework.Library.Machine
import DDFramework.Model.Context
import DDFramework.Verification.CommandBuffer.Slots

/-! # Push constants and the pipeline layout

The layout has the range of the tessellation evaluation stage before that of the control stage, and
the update of the resources pushes them the other way round. -/

namespace DDFramework

open Vulkan RecordingEvent

namespace PushConstantRange

/-- The range includes the byte. -/
def Includes (range : PushConstantRange) (byte : ℕ) : Prop :=
  range.offset.toNat ≤ byte ∧ byte < range.offset.toNat + range.size.toNat

instance (range : PushConstantRange) (byte : ℕ) : Decidable (range.Includes byte) :=
  inferInstanceAs (Decidable (_ ∧ _))

end PushConstantRange

/-- What the interface demands of a push of `size` bytes: every byte is in a range of each stage
that the push names, and the push names every stage of each range that it touches. -/
def PushAllowed (ranges : List PushConstantRange) (stageFlags : Word) (offset size : ℕ) : Prop :=
  ∀ byte ∈ List.range' offset size,
    (∀ bit : Fin 32, stageFlags.getLsb bit = true →
      ∃ range ∈ ranges, range.stageFlags.getLsb bit = true ∧ range.Includes byte) ∧
    ∀ range ∈ ranges, range.Includes byte → range.stageFlags &&& stageFlags = range.stageFlags

instance (ranges : List PushConstantRange) (stageFlags : Word) (offset size : ℕ) :
    Decidable (PushAllowed ranges stageFlags offset size) :=
  inferInstanceAs (Decidable (∀ byte ∈ List.range' offset size, _ ∧ _))

namespace RecordingEvent

/-- A push of an address is one that the layout of the context allows. -/
def InLayout : RecordingEvent → Prop
  | .command (.pushConstants stageFlags offset _) _ =>
      PushAllowed Context.resourceIndexPushConstantRanges stageFlags offset.toNat
        deviceAddressSize.toNat
  | _ => True

theorem inLayout_command {c : Command} (h : c.kind ≠ .push) (isRendering : Bool) :
    InLayout (.command c isRendering) := by
  cases c with
  | pushConstants => exact absurd rfl h
  | _ => trivial

end RecordingEvent

namespace Recording

variable {s t : Recording}

/-- Every push so far is in the layout. -/
def Conforms (s : Recording) : Prop := ∀ e ∈ s.history, e.InLayout

def UpdateBlock.InLayout (block : UpdateBlock) : Prop :=
  PushAllowed Context.resourceIndexPushConstantRanges block.stageFlags block.offset.toNat
    deviceAddressSize.toNat

instance (block : UpdateBlock) : Decidable (UpdateBlock.InLayout block) :=
  inferInstanceAs (Decidable (PushAllowed _ _ _ _))

/-- The flag of one of the two tessellation stages. -/
def IsTessellation (flag : Fin 6) : Prop :=
  flag.val = ShaderStage.tessellationEvaluation.value ∨
    flag.val = ShaderStage.tessellationControl.value

instance : DecidablePred IsTessellation := fun _ => inferInstanceAs (Decidable (_ ∨ _))

/-- A draw finds neither tessellation stage waiting for an update. -/
def NoTessellation (s : Recording) : Step → Prop
  | .call c => c.kind = .draw → ∀ flag, IsTessellation flag → s.needResourceUpdate flag = false
  | _ => True

/-! ### Quiet steps -/

theorem conforms_append_iff {e : RecordingEvent} (hhistory : t.history = s.history ++ [e])
    (he : e.InLayout) : Conforms t ↔ Conforms s := by
  unfold Conforms
  rw [hhistory, List.forall_mem_append, List.forall_mem_singleton]
  exact and_iff_left he

theorem conforms_emit_iff {c : Command} (h : c.kind ≠ .push) :
    Conforms (s.emit c) ↔ Conforms s :=
  conforms_append_iff rfl (inLayout_command h _)

theorem Quiets.conforms_iff (h : Quiets s t) : Conforms t ↔ Conforms s := by
  induction h with
  | refl => exact Iff.rfl
  | tail _ hstep ih =>
      refine Iff.trans ?_ ih
      cases hstep with
      | plain hc => exact conforms_emit_iff (by simp [hc])
      | outside hc _ => exact conforms_emit_iff (by rcases hc with hc | hc <;> simp [hc])
      | endRendering _ => exact conforms_append_iff rfl trivial
      | beginRendering _ => exact conforms_append_iff rfl trivial
      | adjust => exact Iff.rfl

/-! ### The update -/

theorem conforms_flush_iff {block : UpdateBlock} :
    Conforms (s.flush block) ↔ Conforms s ∧ UpdateBlock.InLayout block := by
  unfold Conforms
  change (∀ e ∈ s.history ++ [_] ++ [_], e.InLayout) ↔ _
  rw [List.forall_mem_append, List.forall_mem_append, List.forall_mem_singleton,
    List.forall_mem_singleton]
  exact and_congr_left fun _ => and_iff_left trivial

theorem conforms_flushIfNeeded_iff {block : UpdateBlock} :
    Conforms (s.flushIfNeeded block) ↔
      Conforms s ∧ (s.needResourceUpdate block.flag = true → UpdateBlock.InLayout block) := by
  rw [flushIfNeeded]
  split
  next hneed =>
    rw [conforms_flush_iff]
    exact and_congr_right fun _ => ⟨fun h _ => h, fun h => h hneed⟩
  next hneed => exact (and_iff_left fun h => absurd h hneed).symm

theorem conforms_foldl_flushIfNeeded_iff {blocks : List UpdateBlock}
    (hflags : (blocks.map (·.flag)).Nodup) :
    Conforms (blocks.foldl flushIfNeeded s) ↔ Conforms s ∧ ∀ block ∈ blocks,
      s.needResourceUpdate block.flag = true → UpdateBlock.InLayout block := by
  induction blocks generalizing s with
  | nil => simp
  | cons block blocks ih =>
      rw [List.map_cons, List.nodup_cons] at hflags
      -- The block leaves the flags of the other blocks as they are.
      have hothers : (∀ other ∈ blocks, (s.flushIfNeeded block).needResourceUpdate other.flag = true →
          UpdateBlock.InLayout other) ↔ ∀ other ∈ blocks, s.needResourceUpdate other.flag = true →
            UpdateBlock.InLayout other := by
        refine forall_congr' fun other => forall_congr' fun hother => ?_
        have hne : other.flag ≠ block.flag := fun heq =>
          hflags.1 (heq ▸ List.mem_map_of_mem hother)
        rw [flushIfNeeded_needResourceUpdate, Function.update_of_ne hne]
      rw [List.foldl_cons, ih hflags.2, conforms_flushIfNeeded_iff, hothers, List.forall_mem_cons,
        and_assoc]

/-- Of the six blocks, only those of the tessellation stages push outside the layout. -/
theorem updateBlocks_inLayout_iff :
    ∀ block ∈ updateBlocks, UpdateBlock.InLayout block ↔ ¬ IsTessellation block.flag := by
  decide +kernel

theorem exists_updateBlock : ∀ flag, ∃ block ∈ updateBlocks, block.flag = flag := by decide

theorem conforms_updateResourceBufferIfNecessary_iff
    (h : s.updateResourceBufferIfNecessary = .ok t) :
    Conforms t ↔ Conforms s ∧ ∀ flag, IsTessellation flag → s.needResourceUpdate flag = false := by
  rw [updateResourceBufferIfNecessary_eq_ok h, conforms_foldl_flushIfNeeded_iff (by decide)]
  refine and_congr_right fun _ => ⟨fun hblocks flag hflag => ?_, fun hflags block hblock hneed => ?_⟩
  · obtain ⟨block, hblock, rfl⟩ := exists_updateBlock flag
    refine Bool.eq_false_iff.mpr fun hneed => ?_
    exact (updateBlocks_inLayout_iff block hblock).mp (hblocks block hblock hneed) hflag
  · refine (updateBlocks_inLayout_iff block hblock).mpr fun hflag => ?_
    exact absurd hneed (by simp [hflags block.flag hflag])

/-! ### Runs -/

theorem conforms_call_iff {c : Call} (h : s.call c = .ok t) :
    Conforms t ↔ Conforms s ∧ NoTessellation s (.call c) := by
  have hentered : Conforms (s.enter c) ↔ Conforms s := conforms_append_iff rfl trivial
  have hother (hc : c.kind ≠ .draw) : Conforms s ↔ Conforms s ∧ NoTessellation s (.call c) :=
    (and_iff_left fun hdraw => absurd hdraw hc).symm
  cases call_effect h with
  | quiet hc hsteps =>
      exact (hsteps.conforms_iff.trans hentered).trans (hother (by simp [hc]))
  | setResources hc => exact hentered.trans (hother (by simp [hc]))
  | setRenderTargets hc => exact hentered.trans (hother (by simp [hc]))
  | draw hc hrelocation hupdate hsteps _ _ hcommand =>
      rw [conforms_emit_iff (by simp [hcommand]), hsteps.conforms_iff,
        conforms_updateResourceBufferIfNecessary_iff hupdate, hrelocation.conforms_iff, hentered,
        hrelocation.sameTables.needResourceUpdate]
      exact and_congr_right fun _ => ⟨fun h _ => h, fun h => h hc⟩

/-- The pushes of a run are in the layout exactly if no draw of the run finds a tessellation stage
waiting for an update. -/
theorem always_conforms_iff (s : Recording) (steps : List Step) :
    Machine.Always next Conforms { s with history := [] } steps ↔
      Machine.EveryStep next NoTessellation { s with history := [] } steps := by
  refine Machine.always_iff_everyStep (fun e he => by cases he) ?_ steps
  intro s t step _ h hstep
  cases step with
  | beginCommandBuffer =>
      refine iff_of_true ?_ trivial
      rw [← Option.some.inj hstep]
      exact (conforms_emit_iff (c := .beginCommandBuffer) nofun).mpr h
  | endCommandBuffer =>
      refine iff_of_true ?_ trivial
      rw [← Option.some.inj hstep]
      refine (conforms_emit_iff (c := .endCommandBuffer) nofun).mpr ?_
      exact quiets_endRenderingIfRendering.conforms_iff.mpr h
  | call c =>
      rw [conforms_call_iff (toOption_eq_some.mp hstep)]
      exact and_iff_right h

end Recording

end DDFramework
