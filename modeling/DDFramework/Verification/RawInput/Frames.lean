import DDFramework.Library.Computation
import DDFramework.Library.Machine
import DDFramework.Library.Trace
import DDFramework.Model.RawInput

/-! # Runs of events and frames

A run starts with the zeroed globals. Its history is the list of its calls. -/

namespace DDFramework.RawInput

variable {κ : Type*} {ops : KeyStateOps κ} {scaled : BitVec 32 → BitVec 32 → BitVec 32}

def run (ops : KeyStateOps κ) (scaled : BitVec 32 → BitVec 32 → BitVec 32)
    (actions : List Action) : Option (RawInput κ) :=
  Machine.run (next ops scaled) (initial ops) actions

def Action.IsFrame : Action → Prop
  | .beginFrame _ => True
  | .input _ => False

instance : DecidablePred Action.IsFrame
  | .beginFrame _ => .isTrue trivial
  | .input _ => .isFalse id

/-- After each `BeginFrame` of the run, `P` relates the calls before it to the state. -/
def EveryFrame (ops : KeyStateOps κ) (scaled : BitVec 32 → BitVec 32 → BitVec 32)
    (P : List Action → RawInput κ → Prop) (actions : List Action) : Prop :=
  ∀ before frame s, before ++ [frame] <+: actions → frame.IsFrame →
    run ops scaled (before ++ [frame]) = some s → P before s

theorem everyFrame_nil {P : List Action → RawInput κ → Prop} : EveryFrame ops scaled P [] := by
  intro before frame s hinitial
  simp at hinitial

theorem everyFrame_concat {P : List Action → RawInput κ → Prop} {actions : List Action}
    {a : Action} : EveryFrame ops scaled P (actions ++ [a]) ↔
      EveryFrame ops scaled P actions ∧
        (a.IsFrame → ∀ s, run ops scaled (actions ++ [a]) = some s → P actions s) := by
  constructor
  · intro h
    constructor
    · exact fun before frame s hinitial =>
        h before frame s (hinitial.trans (List.prefix_append actions [a]))
    · exact fun hframe s hrun => h actions a s (List.prefix_refl _) hframe hrun
  · rintro ⟨h, hlast⟩ before frame s hinitial hframe hrun
    rcases List.prefix_concat_iff.mp hinitial with heq | hinitial
    · obtain ⟨rfl, hlabel⟩ := List.append_inj' heq rfl
      cases hlabel
      exact hlast hframe s hrun
    · exact h before frame s hinitial hframe hrun

theorem everyFrame_congr {P Q : List Action → RawInput κ → Prop} {actions : List Action}
    (h : ∀ before frame s, frame.IsFrame → run ops scaled (before ++ [frame]) = some s →
      (P before s ↔ Q before s)) :
    EveryFrame ops scaled P actions ↔ EveryFrame ops scaled Q actions := by
  unfold EveryFrame
  refine forall₃_congr fun before frame s => ?_
  refine imp_congr_right fun _ => ?_
  exact forall₂_congr fun hframe hrun => h before frame s hframe hrun

/-- When no frame finds a `start` in its interval, none happens before the last frame. -/
theorem EveryFrame.not_start {start : Action → Prop} {actions : List Action}
    (h : EveryFrame ops scaled (fun before _ => ¬ Trace.Since Action.IsFrame start before) actions) :
    EveryFrame ops scaled (fun before _ => ∀ a ∈ before, ¬ start a) actions := by
  intro before frame s hinitial hframe hrun a ha hstart
  rcases Trace.since_or_since_at_stop ha hstart with hsince | ⟨before', x, hx, hstop, hsince⟩
  · exact h before frame s hinitial hframe hrun hsince
  · have hx' : before' ++ [x] <+: before ++ [frame] := hx.trans (List.prefix_append before [frame])
    obtain ⟨t, ht⟩ := Machine.run_prefix_eq_some hx' hrun
    exact h before' x t (hx'.trans hinitial) hstop ht hsince

/-! ### The steps -/

theorem next_input_eq_some {s s' : RawInput κ} {data : Option RawInputData} :
    next ops scaled s (.input data) = some s' ↔
      (∃ mouse metrics, data = some (.mouse mouse metrics) ∧
        s' = { s with rawMouse := mouse }.setMouseState scaled metrics) ∨
      (∃ keyboard, data = some (.keyboard keyboard) ∧
        s' = { s with rawKeyboard := keyboard }.setKeyboardState ops) ∨
      data = some .hid ∧ s' = s := by
  rcases data with _ | ⟨mouse, metrics⟩ | keyboard | _ <;>
    simp [next, setLastRawInput, Except.toOption, eq_comm]

/-- What a `BeginFrame` that finds the cursor does. -/
theorem next_beginFrame_eq_some {s s' : RawInput κ} {cursorPos : Option (BitVec 32 × BitVec 32)} :
    next ops scaled s (.beginFrame cursorPos) = some s' ↔
      ∃ t, s.beginFrameMouse cursorPos = .ok t ∧ s' = t.beginFrameKeyboard ops := by
  rw [next, toOption_eq_some, beginFrame, bind_eq_ok_iff]
  simp [pure, Except.pure, eq_comm]

end DDFramework.RawInput
