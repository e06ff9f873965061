import DDFramework.Verification.RawInput.Frames

/-! # Mouse buttons

`SetMouseState` collects the button flags in `button_held`, and `BeginFrame` looks for them in
`button_state`. -/

namespace DDFramework.RawInput

open Trace

variable {κ : Type*} {ops : KeyStateOps κ} {scaled : BitVec 32 → BitVec 32 → BitVec 32}

/-- A mouse event with the down flag of `b`. -/
def Action.IsButtonDown (b : MouseButton) : Action → Prop
  | .input (some (.mouse mouse _)) => mouse.usButtonFlags &&& b.toWord ≠ 0
  | _ => False

/-- A mouse event with the up flag of `b`. -/
def Action.IsButtonUp (b : MouseButton) : Action → Prop
  | .input (some (.mouse mouse _)) => mouse.usButtonFlags &&& (b.toWord <<< 1) ≠ 0
  | _ => False

/-- The mouse state after a frame says what the calls before it did to `b`. -/
structure ButtonFollows (b : MouseButton) (before : List Action) (s : RawInput κ) : Prop where
  down : s.getMouseState.getButtonDown b.toWord = true ↔
    Since Action.IsFrame (Action.IsButtonDown b) before
  up : s.getMouseState.getButtonUp b.toWord = true ↔
    Since Action.IsFrame (Action.IsButtonUp b) before
  held : s.getMouseState.getButtonHeld b.toWord = true ↔
    Since (fun a => a.IsButtonDown b ∨ a.IsButtonUp b) (Action.IsButtonDown b) before

/-! ### The button fields stay empty -/

/-- Only the interim `button_held` may have a bit. -/
structure NoButtons (s : RawInput κ) : Prop where
  interim : s.interimMouseState.buttonState = 0
  frameState : s.frameMouseState.buttonState = 0
  frameHeld : s.frameMouseState.buttonHeld = 0

@[simp] theorem movedInterim_buttonState (interim : MouseState) (lastMouse mouse : RawMouse)
    (width height : BitVec 32) :
    (movedInterim scaled interim lastMouse mouse width height).buttonState =
      interim.buttonState := by
  unfold movedInterim
  split
  · rfl
  · split
    · rfl
    · rfl

@[simp] theorem wheeledInterim_buttonState (interim : MouseState) (mouse : RawMouse) :
    (wheeledInterim interim mouse).buttonState = interim.buttonState := by
  simp only [wheeledInterim]
  split <;> split <;> rfl

theorem NoButtons.initial : NoButtons (initial ops) := ⟨rfl, rfl, rfl⟩

theorem NoButtons.setMouseState {s : RawInput κ} (h : NoButtons s) (metrics : SystemMetrics) :
    NoButtons (s.setMouseState scaled metrics) where
  interim := by simp [RawInput.setMouseState, h.interim]
  frameState := h.frameState
  frameHeld := h.frameHeld

theorem setKeyboardState_mouse (ops : KeyStateOps κ) (s : RawInput κ) :
    (s.setKeyboardState ops).interimMouseState = s.interimMouseState ∧
      (s.setKeyboardState ops).frameMouseState = s.frameMouseState := by
  simp only [setKeyboardState]
  split
  · exact ⟨rfl, rfl⟩
  · split
    · exact ⟨rfl, rfl⟩
    · exact ⟨rfl, rfl⟩

theorem NoButtons.setKeyboardState {s : RawInput κ} (h : NoButtons s) :
    NoButtons (s.setKeyboardState ops) := by
  obtain ⟨hinterim, hframe⟩ := setKeyboardState_mouse ops s
  exact ⟨hinterim ▸ h.interim, hframe ▸ h.frameState, hframe ▸ h.frameHeld⟩

/-- The held buttons of a frame come from `button_state`, which is empty. -/
theorem NoButtons.beginFrameMouse {s t : RawInput κ} {cursorPos : Option (BitVec 32 × BitVec 32)}
    (h : NoButtons s) (hframe : s.beginFrameMouse cursorPos = .ok t) : NoButtons t := by
  cases cursorPos with
  | none => cases hframe
  | some pos =>
      cases hframe
      exact ⟨rfl, h.interim, by simp [h.interim, h.frameHeld]⟩

theorem NoButtons.next {s s' : RawInput κ} {a : Action} (h : NoButtons s)
    (hnext : next ops scaled s a = some s') : NoButtons s' := by
  cases a with
  | input data =>
      rcases next_input_eq_some.mp hnext with
        ⟨mouse, metrics, -, rfl⟩ | ⟨keyboard, -, rfl⟩ | ⟨-, rfl⟩
      · have hraw : NoButtons { s with rawMouse := mouse } :=
          ⟨h.interim, h.frameState, h.frameHeld⟩
        exact hraw.setMouseState metrics
      · have hraw : NoButtons { s with rawKeyboard := keyboard } :=
          ⟨h.interim, h.frameState, h.frameHeld⟩
        exact hraw.setKeyboardState
      · exact h
  | beginFrame cursorPos =>
      obtain ⟨t, ht, rfl⟩ := next_beginFrame_eq_some.mp hnext
      have hmouse := h.beginFrameMouse ht
      exact ⟨hmouse.interim, hmouse.frameState, hmouse.frameHeld⟩

theorem NoButtons.run {s : RawInput κ} {actions : List Action}
    (h : run ops scaled actions = some s) : NoButtons s :=
  (Machine.Reaches.of_run h).invariant .initial fun hs _ hnext => hs.next hnext

section

variable {s : RawInput κ} {b : MouseButton} {before : List Action}

theorem NoButtons.getButtonDown (h : NoButtons s) :
    s.getMouseState.getButtonDown b.toWord = false := by
  simp [MouseState.getButtonDown, getMouseState, h.frameState]

theorem NoButtons.getButtonUp (h : NoButtons s) :
    s.getMouseState.getButtonUp b.toWord = false := by
  simp [MouseState.getButtonUp, getMouseState, h.frameState]

theorem NoButtons.getButtonHeld (h : NoButtons s) :
    s.getMouseState.getButtonHeld b.toWord = false := by
  simp [MouseState.getButtonHeld, getMouseState, h.frameHeld]

/-- Without button fields the mouse state is right where nothing happened. -/
theorem NoButtons.buttonFollows_iff (h : NoButtons s) :
    ButtonFollows b before s ↔
      ¬ Since Action.IsFrame (Action.IsButtonDown b) before ∧
      ¬ Since Action.IsFrame (Action.IsButtonUp b) before ∧
      ¬ Since (fun a => a.IsButtonDown b ∨ a.IsButtonUp b) (Action.IsButtonDown b) before := by
  constructor
  · intro hfollows
    refine ⟨fun hsince => ?_, fun hsince => ?_, fun hsince => ?_⟩
    · exact Bool.false_ne_true (h.getButtonDown ▸ hfollows.down.mpr hsince)
    · exact Bool.false_ne_true (h.getButtonUp ▸ hfollows.up.mpr hsince)
    · exact Bool.false_ne_true (h.getButtonHeld ▸ hfollows.held.mpr hsince)
  · rintro ⟨hdown, hup, hheld⟩
    exact {
      down := iff_of_false (by simp [h.getButtonDown]) hdown
      up := iff_of_false (by simp [h.getButtonUp]) hup
      held := iff_of_false (by simp [h.getButtonHeld]) hheld }

end

/-- The mouse state is right after every frame exactly if no button event comes before the
last one. -/
theorem everyFrame_buttonFollows_iff (ops : KeyStateOps κ)
    (scaled : BitVec 32 → BitVec 32 → BitVec 32) (b : MouseButton) (actions : List Action) :
    EveryFrame ops scaled (ButtonFollows b) actions ↔
      EveryFrame ops scaled
        (fun before _ => ∀ a ∈ before, ¬ a.IsButtonDown b ∧ ¬ a.IsButtonUp b) actions := by
  constructor
  · intro h
    have hdown : EveryFrame ops scaled
        (fun before _ => ∀ a ∈ before, ¬ a.IsButtonDown b) actions := by
      refine EveryFrame.not_start fun before frame s hinitial hframe hrun => ?_
      exact ((NoButtons.run hrun).buttonFollows_iff.mp (h before frame s hinitial hframe hrun)).1
    have hup : EveryFrame ops scaled
        (fun before _ => ∀ a ∈ before, ¬ a.IsButtonUp b) actions := by
      refine EveryFrame.not_start fun before frame s hinitial hframe hrun => ?_
      exact ((NoButtons.run hrun).buttonFollows_iff.mp (h before frame s hinitial hframe hrun)).2.1
    intro before frame s hinitial hframe hrun a ha
    exact ⟨hdown before frame s hinitial hframe hrun a ha,
      hup before frame s hinitial hframe hrun a ha⟩
  · intro h before frame s hinitial hframe hrun
    have hnone := h before frame s hinitial hframe hrun
    refine (NoButtons.run hrun).buttonFollows_iff.mpr ⟨?_, ?_, ?_⟩
    · rintro ⟨_, a, _, rfl, hdown, -⟩
      exact (hnone a (by simp)).1 hdown
    · rintro ⟨_, a, _, rfl, hup, -⟩
      exact (hnone a (by simp)).2 hup
    · rintro ⟨_, a, _, rfl, hdown, -⟩
      exact (hnone a (by simp)).1 hdown

/-- The left button goes down, and the next frame does not see it. -/
theorem left_down_is_not_seen :
    ¬ EveryFrame (KeyState.ops fun n => 1#32 <<< n) (fun _ _ => 0) (ButtonFollows .left)
      [.input (some (.mouse ⟨0, 1, 0, 0, 0⟩ ⟨0, 0, 0, 0⟩)), .beginFrame (some (0, 0))] := by
  intro h
  have hflag : 1#16 &&& MouseButton.left.toWord ≠ 0 := by decide
  have hdown := (h [_] _ _ (List.prefix_refl _) trivial rfl).down.mpr
    ⟨[], _, [], rfl, hflag, by simp⟩
  cases hdown

end DDFramework.RawInput
