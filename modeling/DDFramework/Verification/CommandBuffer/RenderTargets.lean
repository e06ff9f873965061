import DDFramework.Library.Machine
import DDFramework.Library.Trace
import DDFramework.Verification.CommandBuffer.Calls

/-! # The targets of the rendering scopes

`SetRenderTargets` overwrites the first entries of the array and leaves the others as they are.
A scope takes all entries up to the first null one. -/

namespace DDFramework

open Vulkan Trace

/-- The targets before the first null pointer. -/
def upToNull : List (Option TargetView) → List TargetView
  | some target :: targets => target :: upToNull targets
  | none :: _ => []
  | [] => []

/-- `SetRenderTargets` with up to eight targets, all of them non-null. -/
def Call.NamesTargets (views : List TargetView) (depth : Option TargetView) : Call → Prop
  | .setRenderTargets colorTargetCount colorTargets depthStencilTarget =>
      0 < colorTargetCount.toInt ∧ colorTargetCount.toInt ≤ 8 ∧
        views.length = colorTargetCount.toInt.toNat ∧
        colorTargets.take colorTargetCount.toInt.toNat = views.map some ∧
        depthStencilTarget = depth
  | _ => False

/-- The attachments are the given views, in their order. -/
structure Vulkan.RenderingInfo.Shows (info : RenderingInfo) (views : List TargetView)
    (depth : Option TargetView) : Prop where
  color : info.colorAttachments.map (·.imageView) = views.map (·.imageView)
  depthStencil : info.depthStencilAttachment.map (·.imageView) = depth.map (·.imageView)

namespace RecordingEvent

def NamesTargets (views : List TargetView) (depth : Option TargetView) : RecordingEvent → Prop
  | .call c => c.NamesTargets views depth
  | _ => False

/-- The latest call with non-null targets named these. -/
def LatestTargets (t : List RecordingEvent) (views : List TargetView)
    (depth : Option TargetView) : Prop :=
  Since (fun e => ∃ views depth, e.NamesTargets views depth)
    (fun e => e.NamesTargets views depth) t

/-- A scope begins with the targets that the latest call named. -/
def BeginRule (before : List RecordingEvent) : RecordingEvent → Prop
  | .command (.beginRendering info) _ =>
      ∀ views depth, LatestTargets before views depth → info.Shows views depth
  | _ => True

end RecordingEvent

open RecordingEvent

namespace Recording

/-- The scopes so far have the targets named last, and so would one that begins now. -/
structure TargetsFollow (s : Recording) : Prop where
  begun : Everywhere BeginRule s.history
  current : ∀ views depth, LatestTargets s.history views depth → s.renderingInfo.Shows views depth

/-- A call with non-null targets fills the array or finds the entry after its targets null. A
call with a null target changes no view. -/
def KeepsTargets (s : Recording) : Step → Prop
  | .call (.setRenderTargets colorTargetCount colorTargets depthStencilTarget) =>
      let n := colorTargetCount.toInt.toNat
      if none ∈ colorTargets.take n then
        ∀ views depth, LatestTargets s.history views depth →
          (upToNull (colorTargets.take n)).map (·.imageView) = views.map (·.imageView) ∧
            depthStencilTarget.map (·.imageView) = depth.map (·.imageView)
      else ∀ h : n < 8, s.colorTargets ⟨n, h⟩ = none
  | _ => True

/-! ### The targets before the first null pointer -/

@[simp] theorem upToNull_map_some_append (views : List TargetView)
    (rest : List (Option TargetView)) :
    upToNull (views.map some ++ rest) = views ++ upToNull rest := by
  induction views with
  | nil => rfl
  | cons view views ih => exact congrArg (view :: ·) ih

theorem upToNull_append_of_none {targets : List (Option TargetView)} (h : none ∈ targets)
    (rest : List (Option TargetView)) : upToNull (targets ++ rest) = upToNull targets := by
  induction targets with
  | nil => cases h
  | cons target targets ih =>
      cases target with
      | none => rfl
      | some view =>
          have hrest : none ∈ targets := by simpa using h
          exact congrArg (view :: ·) (ih hrest)

theorem map_some_upToNull {targets : List (Option TargetView)} (h : none ∉ targets) :
    (upToNull targets).map some = targets := by
  induction targets with
  | nil => rfl
  | cons target targets ih =>
      cases target with
      | none => exact absurd List.mem_cons_self h
      | some view =>
          have hrest : none ∉ targets := fun hnone => h (List.mem_cons_of_mem _ hnone)
          exact congrArg (some view :: ·) (ih hrest)

/-- Nothing is left from the entry `n` on exactly if it is null or behind the array. -/
theorem upToNull_drop_eq_nil_iff {m : ℕ} (targets : Fin m → Option TargetView) (n : ℕ) :
    upToNull ((List.ofFn targets).drop n) = [] ↔ ∀ h : n < m, targets ⟨n, h⟩ = none := by
  by_cases hn : n < m
  · have hlength : n < (List.ofFn targets).length := by simpa using hn
    rw [List.drop_eq_getElem_cons hlength, List.getElem_ofFn]
    cases htarget : targets ⟨n, hn⟩ with
    | none => simp [upToNull, htarget]
    | some view => simp [upToNull, htarget, hn]
  · have hempty : (List.ofFn targets).drop n = [] := by
      apply List.drop_of_length_le
      simpa using hn
    rw [hempty]
    exact iff_of_true rfl fun h => absurd h hn

theorem ofFn_update {m : ℕ} (targets : Fin m → Option TargetView) (i : Fin m)
    (target : Option TargetView) :
    List.ofFn (Function.update targets i target) = (List.ofFn targets).set i target := by
  apply List.ext_getElem
  · simp
  · intro k hk _
    rw [List.getElem_set, List.getElem_ofFn, List.getElem_ofFn, Function.update_apply]
    simp only [Fin.ext_iff, eq_comm]

variable {s t : Recording}

theorem colorAttachments_eq (s : Recording) (targets : List (Option TargetView)) :
    s.colorAttachments targets = (upToNull targets).map s.colorAttachment := by
  induction targets with
  | nil => rfl
  | cons target targets ih =>
      cases target with
      | none => rfl
      | some view => exact congrArg (s.colorAttachment view :: ·) ih

theorem renderingInfo_shows_iff {views : List TargetView} {depth : Option TargetView} :
    s.renderingInfo.Shows views depth ↔
      (upToNull (List.ofFn s.colorTargets)).map (·.imageView) = views.map (·.imageView) ∧
        s.depthStencilTarget.map (·.imageView) = depth.map (·.imageView) := by
  have hcolor : s.renderingInfo.colorAttachments.map (·.imageView) =
      (upToNull (List.ofFn s.colorTargets)).map (·.imageView) := by
    rw [renderingInfo, colorAttachments_eq, List.map_map]
    rfl
  have hdepth : s.renderingInfo.depthStencilAttachment.map (·.imageView) =
      s.depthStencilTarget.map (·.imageView) := by
    rw [renderingInfo, Option.map_map]
    rfl
  constructor
  · rintro ⟨h, h'⟩
    exact ⟨hcolor ▸ h, hdepth ▸ h'⟩
  · rintro ⟨h, h'⟩
    exact ⟨hcolor ▸ h, hdepth ▸ h'⟩

/-- The loop of `SetRenderTargets`. -/
theorem ofFn_copyColorTargets {colorTargets : List (Option TargetView)} {n : ℕ}
    (h : s.copyColorTargets colorTargets n = .ok t) :
    n ≤ 8 ∧ n ≤ colorTargets.length ∧
      List.ofFn t.colorTargets = colorTargets.take n ++ (List.ofFn s.colorTargets).drop n := by
  induction n generalizing t with
  | zero => exact ⟨Nat.zero_le _, Nat.zero_le _, by rw [Except.ok.inj h]; rfl⟩
  | succ n ih =>
      obtain ⟨u, hu, h⟩ := bind_eq_ok_iff.mp h
      obtain ⟨-, -, hlist⟩ := ih hu
      split at h
      · cases h
      · next target htarget =>
          split at h
          · next hn =>
              obtain ⟨hlength, hget⟩ := List.getElem?_eq_some_iff.mp htarget
              have htake : (colorTargets.take n).length = n := by simp; omega
              have hdrop : n < (List.ofFn s.colorTargets).length := by simpa using hn
              refine ⟨hn, hlength, ?_⟩
              rw [← Except.ok.inj h, ofFn_update, hlist, List.set_append_right _ _ htake.le, htake,
                Nat.sub_self, List.drop_eq_getElem_cons hdrop, List.set_cons_zero,
                List.take_succ_eq_append_getElem hlength, hget]
              simp
          · cases h

/-! ### Steps that name no targets -/

theorem latestTargets_concat {history : List RecordingEvent} {e : RecordingEvent}
    {views : List TargetView} {depth : Option TargetView} :
    LatestTargets (history ++ [e]) views depth ↔
      e.NamesTargets views depth ∨
        LatestTargets history views depth ∧ ¬ ∃ views depth, e.NamesTargets views depth :=
  since_concat

theorem TargetsFollow.congr (h : TargetsFollow s) (hcolor : t.colorTargets = s.colorTargets)
    (hdepth : t.depthStencilTarget = s.depthStencilTarget) (hhistory : t.history = s.history) :
    TargetsFollow t where
  begun := hhistory ▸ h.begun
  current := by
    intro views depth hlatest
    rw [renderingInfo_shows_iff, hcolor, hdepth, ← renderingInfo_shows_iff]
    exact h.current views depth (hhistory ▸ hlatest)

/-- An event that names no targets. -/
theorem TargetsFollow.append {e : RecordingEvent} (h : TargetsFollow s)
    (hcolor : t.colorTargets = s.colorTargets)
    (hdepth : t.depthStencilTarget = s.depthStencilTarget)
    (hhistory : t.history = s.history ++ [e]) (hrule : BeginRule s.history e)
    (hnames : ∀ views depth, ¬ e.NamesTargets views depth) : TargetsFollow t where
  begun := by
    rw [hhistory, everywhere_concat]
    exact ⟨h.begun, hrule⟩
  current := by
    intro views depth hlatest
    rw [hhistory, latestTargets_concat] at hlatest
    rw [renderingInfo_shows_iff, hcolor, hdepth, ← renderingInfo_shows_iff]
    exact h.current views depth (hlatest.resolve_left (hnames views depth)).1

theorem TargetsFollow.emit {c : Command} (h : TargetsFollow s) (hc : c.kind ≠ .scope) :
    TargetsFollow (s.emit c) := by
  refine h.append rfl rfl rfl ?_ fun _ _ => id
  cases c with
  | beginRendering => exact absurd rfl hc
  | _ => trivial

theorem TargetsFollow.enter {c : Call} (h : TargetsFollow s) (hc : c.kind ≠ .targets) :
    TargetsFollow (s.enter c) := by
  refine h.append rfl rfl rfl trivial fun views depth hnames => ?_
  cases c with
  | setRenderTargets => exact hc rfl
  | _ => exact hnames

theorem TargetsFollow.beginRendering (h : TargetsFollow s) :
    TargetsFollow ({ s with areNewTargets := false } : Recording).beginRendering := by
  refine h.append rfl rfl rfl ?_ fun _ _ => id
  intro views depth hlatest
  have hshows := renderingInfo_shows_iff.mp (h.current views depth hlatest)
  exact renderingInfo_shows_iff.mpr hshows

theorem TargetsFollow.quiets (h : TargetsFollow s) (hsteps : Quiets s t) : TargetsFollow t := by
  induction hsteps with
  | refl => exact h
  | tail _ hstep ih =>
      cases hstep with
      | plain hc => exact ih.emit (by simp [hc])
      | outside hc _ => exact ih.emit (by rcases hc with hc | hc <;> simp [hc])
      | endRendering _ => exact ih.append rfl rfl rfl trivial fun _ _ => id
      | beginRendering _ => exact ih.beginRendering
      | adjust => exact ih.congr rfl rfl rfl

theorem TargetsFollow.flush (h : TargetsFollow s) (block : UpdateBlock) :
    TargetsFollow (s.flush block) := by
  have hcopy : TargetsFollow (s.copyResources block.stage) :=
    h.append rfl rfl rfl trivial fun _ _ => id
  exact (hcopy.emit (c := .pushConstants block.stageFlags block.offset
    (slotAddress s.resourceBufferAddress s.resourceUpdateCount)) nofun).congr rfl rfl rfl

theorem TargetsFollow.updateResourceBufferIfNecessary (h : TargetsFollow s)
    (hupdate : s.updateResourceBufferIfNecessary = .ok t) : TargetsFollow t :=
  updateResourceBufferIfNecessary_keeps (fun block hs => hs.flush block) h hupdate

theorem TargetsFollow.call {c : Call} (h : TargetsFollow s) (hc : c.kind ≠ .targets)
    (hcall : s.call c = .ok t) : TargetsFollow t := by
  cases call_effect hcall with
  | quiet _ hsteps => exact (h.enter hc).quiets hsteps
  | setResources _ stage table => exact (h.enter hc).congr rfl rfl rfl
  | setRenderTargets hkind => exact absurd hkind hc
  | draw _ hrelocation hupdate hsteps _ _ hcommand =>
      have hupdated := ((h.enter hc).quiets hrelocation).updateResourceBufferIfNecessary hupdate
      exact (hupdated.quiets hsteps).emit (by simp [hcommand])

/-! ### `SetRenderTargets` -/

/-- A call without null targets. -/
theorem targetsFollow_iff_of_named {c : Call} {views : List TargetView}
    {rest : List (Option TargetView)} (h : TargetsFollow s)
    (hnames : ∀ views' depth, c.NamesTargets views' depth ↔
      views' = views ∧ depth = t.depthStencilTarget)
    (hhistory : t.history = s.history ++ [.call c])
    (htargets : List.ofFn t.colorTargets = views.map some ++ rest) :
    TargetsFollow t ↔ upToNull rest = [] := by
  have hshows : t.renderingInfo.Shows views t.depthStencilTarget ↔ upToNull rest = [] := by
    rw [renderingInfo_shows_iff, htargets, upToNull_map_some_append, List.map_append]
    simp
  rw [← hshows]
  constructor
  · intro hfollows
    refine hfollows.current _ _ ?_
    rw [hhistory, latestTargets_concat]
    exact .inl ((hnames _ _).mpr ⟨rfl, rfl⟩)
  · intro hshow
    refine ⟨?_, fun views' depth hlatest => ?_⟩
    · rw [hhistory, everywhere_concat]
      exact ⟨h.begun, trivial⟩
    · rw [hhistory, latestTargets_concat] at hlatest
      rcases hlatest with hnew | ⟨-, hno⟩
      · obtain ⟨rfl, rfl⟩ := (hnames _ _).mp hnew
        exact hshow
      · exact absurd ⟨_, _, (hnames _ _).mpr ⟨rfl, rfl⟩⟩ hno

/-- A call with a null target. -/
theorem targetsFollow_iff_of_null {c : Call} {targets rest : List (Option TargetView)}
    (h : TargetsFollow s) (hnames : ∀ views depth, ¬ c.NamesTargets views depth)
    (hhistory : t.history = s.history ++ [.call c])
    (hnull : none ∈ targets) (htargets : List.ofFn t.colorTargets = targets ++ rest) :
    TargetsFollow t ↔ ∀ views depth, LatestTargets s.history views depth →
      (upToNull targets).map (·.imageView) = views.map (·.imageView) ∧
        t.depthStencilTarget.map (·.imageView) = depth.map (·.imageView) := by
  have hlatest : ∀ views depth, LatestTargets t.history views depth ↔
      LatestTargets s.history views depth := by
    intro views depth
    rw [hhistory, latestTargets_concat]
    simp [RecordingEvent.NamesTargets, hnames]
  have hshows : ∀ views depth, t.renderingInfo.Shows views depth ↔
      (upToNull targets).map (·.imageView) = views.map (·.imageView) ∧
        t.depthStencilTarget.map (·.imageView) = depth.map (·.imageView) := by
    intro views depth
    rw [renderingInfo_shows_iff, htargets, upToNull_append_of_none hnull]
  constructor
  · intro hfollows views depth hbefore
    exact (hshows _ _).mp (hfollows.current _ _ ((hlatest _ _).mpr hbefore))
  · intro hkeeps
    refine ⟨?_, fun views depth hafter => ?_⟩
    · rw [hhistory, everywhere_concat]
      exact ⟨h.begun, trivial⟩
    · exact (hshows _ _).mpr (hkeeps _ _ ((hlatest _ _).mp hafter))

theorem targetsFollow_setRenderTargets_iff {colorTargetCount : Word}
    {colorTargets : List (Option TargetView)} {depthStencilTarget : Option TargetView}
    (h : TargetsFollow s)
    (hcall : s.call (.setRenderTargets colorTargetCount colorTargets depthStencilTarget) = .ok t) :
    TargetsFollow t ↔ KeepsTargets s
      (.call (.setRenderTargets colorTargetCount colorTargets depthStencilTarget)) := by
  obtain ⟨hpos, hcount, targets, hcopy, ht⟩ := setRenderTargets_eq_ok hcall
  obtain ⟨-, hlength, hlist⟩ := ofFn_copyColorTargets hcopy
  have hcolor : t.colorTargets = targets := by rw [ht]
  have hhistory : t.history = s.history ++
      [.call (.setRenderTargets colorTargetCount colorTargets depthStencilTarget)] := by
    rw [ht]
    rfl
  obtain rfl : t.depthStencilTarget = depthStencilTarget := by rw [ht]
  rw [← hcolor] at hlist
  simp only [KeepsTargets]
  split
  · next hnull =>
      refine targetsFollow_iff_of_null h (fun views depth hnew => ?_) hhistory hnull hlist
      rw [hnew.2.2.2.1] at hnull
      simp at hnull
  · next hnull =>
      have hviews := map_some_upToNull hnull
      rw [← hviews] at hlist
      rw [targetsFollow_iff_of_named h (fun views depth => ?_) hhistory hlist]
      · exact upToNull_drop_eq_nil_iff _ _
      · constructor
        · rintro ⟨-, -, -, htake, hdepth⟩
          refine ⟨?_, hdepth.symm⟩
          exact (List.map_injective_iff.mpr (Option.some_injective _)
            (hviews.trans htake)).symm
        · rintro ⟨rfl, rfl⟩
          refine ⟨hpos, hcount, ?_, hviews.symm, rfl⟩
          rw [← List.length_map some, hviews, List.length_take]
          exact Nat.min_eq_left hlength

/-- Every scope of a run has the targets named last, and so would one that begins in any of its
states, exactly if every `SetRenderTargets` of the run meets `KeepsTargets`. -/
theorem always_targetsFollow_iff (s : Recording) (steps : List Step) :
    Machine.Always next TargetsFollow { s with history := [] } steps ↔
      Machine.EveryStep next KeepsTargets { s with history := [] } steps := by
  refine Machine.always_iff_everyStep ⟨everywhere_nil, fun _ _ h => absurd h since_nil⟩ ?_ steps
  intro s t step _ h hstep
  cases step with
  | beginCommandBuffer =>
      refine iff_of_true ?_ trivial
      rw [← Option.some.inj hstep]
      exact (h.emit (c := .beginCommandBuffer) nofun).congr rfl rfl rfl
  | endCommandBuffer =>
      refine iff_of_true ?_ trivial
      rw [← Option.some.inj hstep]
      exact (h.quiets quiets_endRenderingIfRendering).emit nofun
  | call c =>
      have hcall := toOption_eq_some.mp hstep
      by_cases hc : c.kind = .targets
      · cases c with
        | setRenderTargets => exact targetsFollow_setRenderTargets_iff h hcall
        | _ => cases hc
      · refine iff_of_true (h.call hc hcall) ?_
        cases c with
        | setRenderTargets => exact absurd rfl hc
        | _ => trivial

/-- Two targets, then one, then a draw. -/
def fewerTargets : List Step :=
  [.call (.setRenderTargets 2 [some ⟨0, 1⟩, some ⟨1, 2⟩] none),
   .call (.setRenderTargets 1 [some ⟨2, 3⟩] none), .call (.draw 3 3 0)]

/-- The scope of the draw keeps the second one of the old targets. -/
theorem fewerTargets_keeps_old_target :
    ∃ t, Machine.run next blank fewerTargets = some t ∧ ¬ Everywhere BeginRule t.history := by
  refine ⟨_, rfl, fun h => ?_⟩
  have hlatest : LatestTargets
      [.call (.setRenderTargets 2 [some ⟨0, 1⟩, some ⟨1, 2⟩] none),
       .call (.setRenderTargets 1 [some ⟨2, 3⟩] none), .call (.draw 3 3 0)] [⟨2, 3⟩] none := by
    refine ⟨[_], _, [_], rfl, ⟨by decide, by decide, rfl, rfl, rfl⟩, ?_⟩
    rintro e he ⟨views, depth, hnames⟩
    rw [List.mem_singleton.mp he] at hnames
    exact hnames
  have hshows := h [_, _, _] _ _ rfl _ _ hlatest
  exact absurd hshows.color (by decide)

end Recording

end DDFramework
