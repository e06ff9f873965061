import DDFramework.Library.Trace
import DDFramework.Verification.CommandBuffer.Calls

/-! The rendering scopes of a recording. -/

namespace DDFramework

open Vulkan Trace

namespace RecordingEvent

/-- `true` at the beginning of a scope and `false` at its end. -/
def scopeMark : RecordingEvent → Option Bool
  | .command (.beginRendering _) _ => some true
  | .command .endRendering _ => some false
  | _ => none

def SetsTargets : RecordingEvent → Prop
  | .call c => c.kind = .targets
  | _ => False

/-- A scope is open. -/
def Open (t : List RecordingEvent) : Prop :=
  Since (fun e => e.scopeMark = some false) (fun e => e.scopeMark = some true) t

/-- The open scope was opened after the last call of `SetRenderTargets`. -/
def OpenForTargets (t : List RecordingEvent) : Prop :=
  Since (fun e => e.scopeMark = some false ∨ e.SetsTargets) (fun e => e.scopeMark = some true) t

@[simp] theorem not_open_nil : ¬ Open [] := since_nil

theorem open_concat {t : List RecordingEvent} {e : RecordingEvent} :
    Open (t ++ [e]) ↔ e.scopeMark = some true ∨ Open t ∧ e.scopeMark ≠ some false :=
  since_concat

theorem openForTargets_concat {t : List RecordingEvent} {e : RecordingEvent} :
    OpenForTargets (t ++ [e]) ↔ e.scopeMark = some true ∨
      OpenForTargets t ∧ ¬ (e.scopeMark = some false ∨ e.SetsTargets) :=
  since_concat

/-- Where a command may stand, and the value of `m_is_rendering` there. -/
structure CommandRule (before : List RecordingEvent) (command : Command) (isRendering : Bool) :
    Prop where
  draw : command.kind = .draw → OpenForTargets before
  clear : command.kind = .clear → ¬ Open before
  copy : command.kind = .copy → ¬ Open before
  flag : command.kind ≠ .scope → (isRendering = true ↔ Open before)

def Rule (before : List RecordingEvent) : RecordingEvent → Prop
  | .command c isRendering => CommandRule before c isRendering
  | _ => True

theorem scopeMark_command {c : Command} (h : c.kind ≠ .scope) (isRendering : Bool) :
    scopeMark (.command c isRendering) = none := by
  cases c with
  | beginRendering => exact absurd rfl h
  | endRendering => exact absurd rfl h
  | _ => rfl

end RecordingEvent

open RecordingEvent

/-- `n` scopes, and one more that is open. -/
def alternating (n : ℕ) (isRendering : Bool) : List Bool :=
  (List.replicate n [true, false]).flatten ++ if isRendering then [true] else []

namespace Recording

/-- The scopes of a history and the flag beside it. -/
structure ScopesWellFormed (s : Recording) : Prop where
  alternate : ∃ n, s.history.filterMap scopeMark = alternating n s.isRendering
  commands : Everywhere Rule s.history
  isRendering_iff : s.isRendering = true ↔ Open s.history

/-- What the calls keep. -/
structure Scoped (s : Recording) : Prop extends ScopesWellFormed s where
  targets : s.isRendering = true → s.areNewTargets = false → OpenForTargets s.history

variable {s t : Recording}

/-! ### One event -/

/-- An event that opens and closes nothing. -/
theorem Scoped.append {e : RecordingEvent} (h : Scoped s) (hr : t.isRendering = s.isRendering)
    (hn : t.areNewTargets = s.areNewTargets) (hh : t.history = s.history ++ [e])
    (hmark : e.scopeMark = none) (htargets : ¬ e.SetsTargets) (hrule : Rule s.history e) :
    Scoped t where
  alternate := by
    obtain ⟨n, hn⟩ := h.alternate
    exact ⟨n, by simp [hh, hr, hn, hmark]⟩
  commands := by
    rw [hh, everywhere_concat]
    exact ⟨h.commands, hrule⟩
  isRendering_iff := by
    rw [hh, hr, open_concat, h.isRendering_iff]
    simp [hmark]
  targets := by
    intro hopen hnew
    rw [hh, openForTargets_concat]
    refine .inr ⟨h.targets (hr ▸ hopen) (hn ▸ hnew), ?_⟩
    simp [hmark, htargets]

theorem Scoped.congr (h : Scoped s) (hr : t.isRendering = s.isRendering)
    (hn : t.areNewTargets = s.areNewTargets) (hh : t.history = s.history) : Scoped t where
  alternate := by rw [hh, hr]; exact h.alternate
  commands := by rw [hh]; exact h.commands
  isRendering_iff := by rw [hh, hr]; exact h.isRendering_iff
  targets := by rw [hh, hr, hn]; exact h.targets

theorem Scoped.emit {c : Command} (h : Scoped s) (hc : c.kind ≠ .scope)
    (hrule : CommandRule s.history c s.isRendering) : Scoped (s.emit c) :=
  h.append rfl rfl rfl (scopeMark_command hc _) id hrule

theorem Scoped.emit_other {c : Command} (h : Scoped s) (hc : c.kind = .other) :
    Scoped (s.emit c) := by
  refine h.emit ?_ ⟨?_, ?_, ?_, fun _ => h.isRendering_iff⟩
  all_goals simp [hc]

theorem Scoped.emit_outside {c : Command} (h : Scoped s) (hc : c.kind = .clear ∨ c.kind = .copy)
    (hclosed : s.isRendering = false) : Scoped (s.emit c) := by
  have hout : ¬ Open s.history := by
    rw [← h.isRendering_iff, hclosed]
    exact Bool.false_ne_true
  refine h.emit ?_ ⟨?_, fun _ => hout, fun _ => hout, fun _ => h.isRendering_iff⟩
  all_goals rcases hc with hc | hc
  all_goals simp [hc]

theorem Scoped.emit_draw {c : Command} (h : Scoped s) (hc : c.kind = .draw)
    (hopen : s.isRendering = true) (hnew : s.areNewTargets = false) : Scoped (s.emit c) := by
  refine h.emit ?_ ⟨fun _ => h.targets hopen hnew, ?_, ?_, fun _ => h.isRendering_iff⟩
  all_goals simp [hc]

theorem Scoped.enter {c : Call} (h : Scoped s) (hc : c.kind ≠ .targets) : Scoped (s.enter c) :=
  h.append rfl rfl rfl rfl hc trivial

/-! ### The two ends of a scope -/

theorem alternating_end (n : ℕ) : alternating n true ++ [false] = alternating (n + 1) false := by
  simp [alternating, List.replicate_succ']

theorem Scoped.endRendering (h : Scoped s) (hopen : s.isRendering = true) :
    Scoped (({ s with isRendering := false } : Recording).emit .endRendering) where
  alternate := by
    obtain ⟨n, hn⟩ := h.alternate
    refine ⟨n + 1, ?_⟩
    rw [hopen] at hn
    rw [emit_history, List.filterMap_append, hn]
    exact alternating_end n
  commands := by
    rw [emit_history, everywhere_concat]
    exact ⟨h.commands, ⟨nofun, nofun, nofun, fun hscope => absurd rfl hscope⟩⟩
  isRendering_iff := by
    rw [emit_history, open_concat]
    simp [scopeMark]
  targets := nofun

theorem Scoped.beginRendering (h : Scoped s) (hclosed : s.isRendering = false) :
    Scoped ({ s with areNewTargets := false } : Recording).beginRendering where
  alternate := by
    obtain ⟨n, hn⟩ := h.alternate
    refine ⟨n, ?_⟩
    rw [hclosed] at hn
    change (s.history ++ [_]).filterMap scopeMark = alternating n true
    rw [List.filterMap_append, hn]
    simp [alternating, scopeMark]
  commands := by
    change Everywhere Rule (s.history ++ [_])
    rw [everywhere_concat]
    exact ⟨h.commands, ⟨nofun, nofun, nofun, fun hscope => absurd rfl hscope⟩⟩
  isRendering_iff := by
    change true = true ↔ Open (s.history ++ [_])
    rw [open_concat]
    simp [scopeMark]
  targets := by
    intro _ _
    change OpenForTargets (s.history ++ [_])
    rw [openForTargets_concat]
    simp [scopeMark]

/-! ### Calls -/

theorem Scoped.quiets (h : Scoped s) (hsteps : Quiets s t) : Scoped t := by
  induction hsteps with
  | refl => exact h
  | tail _ hstep ih =>
      cases hstep with
      | plain hc => exact ih.emit_other hc
      | outside hc hclosed => exact ih.emit_outside hc hclosed
      | endRendering hopen => exact ih.endRendering hopen
      | beginRendering hclosed => exact ih.beginRendering hclosed
      | adjust => exact ih.congr rfl rfl rfl

theorem Scoped.flush (h : Scoped s) (block : UpdateBlock) : Scoped (s.flush block) := by
  have hcopy : Scoped (s.copyResources block.stage) := h.append rfl rfl rfl rfl id trivial
  refine (hcopy.emit (c := .pushConstants block.stageFlags block.offset
    (slotAddress s.resourceBufferAddress s.resourceUpdateCount)) nofun ?_).congr rfl rfl rfl
  exact ⟨nofun, nofun, nofun, fun _ => hcopy.isRendering_iff⟩

theorem Scoped.updateResourceBufferIfNecessary (h : Scoped s)
    (hupdate : s.updateResourceBufferIfNecessary = .ok t) : Scoped t :=
  updateResourceBufferIfNecessary_keeps (fun block hs => hs.flush block) h hupdate

theorem Scoped.setRenderTargets {c : Call} (h : Scoped s) (colorTargets : Fin 8 → Option TargetView)
    (depthStencilTarget : Option TargetView) :
    Scoped { s.enter c with
      colorTargets := colorTargets
      depthStencilTarget := depthStencilTarget
      areNewTargets := true } where
  alternate := by
    obtain ⟨n, hn⟩ := h.alternate
    refine ⟨n, ?_⟩
    change (s.history ++ [RecordingEvent.call c]).filterMap scopeMark = alternating n s.isRendering
    rw [List.filterMap_append, hn]
    exact List.append_nil _
  commands := everywhere_concat.mpr ⟨h.commands, trivial⟩
  isRendering_iff := by
    change s.isRendering = true ↔ Open (s.history ++ [.call c])
    rw [open_concat, h.isRendering_iff]
    simp [scopeMark]
  targets := nofun

theorem Scoped.call {c : Call} (h : Scoped s) (hcall : s.call c = .ok t) : Scoped t := by
  cases call_effect hcall with
  | quiet hc hsteps => exact (h.enter (by simp [hc])).quiets hsteps
  | setResources hc stage table => exact (h.enter (by simp [hc])).congr rfl rfl rfl
  | setRenderTargets hc colorTargets depthStencilTarget => exact h.setRenderTargets _ _
  | draw hc hrelocation hupdate hsteps hopen hcurrent hcommand =>
      have hentered : Scoped (s.enter c) := h.enter (by simp [hc])
      have hupdated := (hentered.quiets hrelocation).updateResourceBufferIfNecessary hupdate
      exact (hupdated.quiets hsteps).emit_draw hcommand hopen hcurrent

theorem scoped_begin (h : s.isRendering = false) :
    Scoped ({ s with history := [] } : Recording).beginCommandBuffer where
  alternate := ⟨0, by simp [beginCommandBuffer, Recording.emit, scopeMark, alternating, h]⟩
  commands := by
    change Everywhere Rule ([] ++ [_])
    rw [everywhere_concat]
    exact ⟨everywhere_nil, ⟨nofun, nofun, nofun, fun _ => by simp [h]⟩⟩
  isRendering_iff := by
    change s.isRendering = true ↔ Open ([] ++ [_])
    rw [open_concat]
    simp [h, scopeMark]
  targets := fun hopen => absurd (h.symm.trans hopen) Bool.false_ne_true

/-- The scopes are well formed after every sequence of calls, and `End` closes the last one. -/
theorem record_scopesWellFormed (h : s.isRendering = false) {calls : List Call}
    (hrecord : s.record calls = .ok t) :
    ScopesWellFormed t ∧ ScopesWellFormed t.endCommandBuffer ∧
      t.endCommandBuffer.isRendering = false := by
  have ht : Scoped t := foldlM_invariant Scoped.call (scoped_begin h) hrecord
  refine ⟨ht.toScopesWellFormed, ?_, endRenderingIfRendering_isRendering⟩
  exact ((ht.quiets quiets_endRenderingIfRendering).emit_other rfl).toScopesWellFormed

/-- Two draws with a clear between them, and a third one that relocates its index buffer and has
new targets. -/
def threeDraws : List Call :=
  [.setRenderTargets 1 [some ⟨0, 1⟩] none, .draw 3 3 0,
   .clearColorTarget ⟨0, 1⟩ ⟨0, 0, 0, 0⟩ ⟨1, 0, 1, 0, 1⟩, .draw 3 3 0,
   .setRenderTargets 2 [some ⟨1, 2⟩, none] (some ⟨2, 3⟩), .drawIndexed 3 1 0 6 0]

theorem record_scopesWellFormed_threeDraws :
    ∃ t, blank.record threeDraws = .ok t ∧ ScopesWellFormed t ∧
      ScopesWellFormed t.endCommandBuffer ∧ t.endCommandBuffer.isRendering = false := by
  obtain ⟨t, ht⟩ : ∃ t, blank.record threeDraws = .ok t := ⟨_, rfl⟩
  exact ⟨t, ht, record_scopesWellFormed rfl ht⟩

end Recording

end DDFramework
