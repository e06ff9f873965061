import DDFramework.Verification.RawInput.Frames
import Mathlib.Data.List.DropRight

/-! # Keys over frames

A frame compares which keys are down with which were down at the frame before, so it misses what
happens between the two and leaves no difference. -/

namespace DDFramework

/-- The operations are those of exact sets of key codes. -/
structure KeyStateOps.Exact {κ : Type*} (ops : KeyStateOps κ) : Prop where
  zero : ∀ k, ops.getKeyState ops.zero k = false
  or : ∀ s t k, ops.getKeyState (ops.operatorOr s t) k =
    (ops.getKeyState s k || ops.getKeyState t k)
  and : ∀ s t k, ops.getKeyState (ops.operatorAnd s t) k =
    (ops.getKeyState s k && ops.getKeyState t k)
  not : ∀ s k, ops.getKeyState (ops.operatorNot s) k = !ops.getKeyState s k
  set : ∀ s j k, ops.getKeyState (ops.setKeyState s j) k =
    (decide (k = j) || ops.getKeyState s k)
  clear : ∀ s j k, ops.getKeyState (ops.clearKeyState s j) k =
    (decide (k ≠ j) && ops.getKeyState s k)

namespace RawInput

open Trace

variable {κ : Type*} {ops : KeyStateOps κ} {scaled : BitVec 32 → BitVec 32 → BitVec 32}
  {k : BitVec 8} {t : List Action}

/-! ### What happened to a key -/

/-- A make event of `k`, a repeated one included. -/
def Action.IsMake (k : BitVec 8) : Action → Prop
  | .input (some (.keyboard keyboard)) =>
      keyboard.flags = riKeyMake ∧ keyboard.vKey.setWidth 8 = k
  | _ => False

def Action.IsBreak (k : BitVec 8) : Action → Prop
  | .input (some (.keyboard keyboard)) =>
      keyboard.flags = riKeyBreak ∧ keyboard.vKey.setWidth 8 = k
  | _ => False

/-- The latest event of `k` is a make. -/
def Down (k : BitVec 8) (t : List Action) : Prop :=
  Since (Action.IsBreak k) (Action.IsMake k) t

/-- Since the last frame `k` has gone from up to down. -/
def WentDown (k : BitVec 8) (t : List Action) : Prop :=
  SinceWhen Action.IsFrame (fun before a => a.IsMake k ∧ ¬ Down k before) t

/-- The calls up to the last frame, and with it. -/
def upToFrame (t : List Action) : List Action := t.rdropWhile fun a => !decide a.IsFrame

/-- The keyboard state after a frame says what the calls before it did to `k`. -/
structure KeyFollows (ops : KeyStateOps κ) (k : BitVec 8) (before : List Action)
    (s : RawInput κ) : Prop where
  pressed : s.getKeyboardState.isKeyPressed ops k = true ↔ WentDown k before
  up : s.getKeyboardState.isKeyUp ops k = true ↔ Since Action.IsFrame (Action.IsBreak k) before
  held : Down k before → s.getKeyboardState.isKeyHeld ops k = true
  notHeld : (∀ t, upToFrame before <+: t → t <+: before → ¬ Down k t) →
    s.getKeyboardState.isKeyHeld ops k = false

@[simp] theorem not_isFrame_input {data : Option RawInputData} :
    ¬ (Action.input data).IsFrame := id

@[simp] theorem isMake_keyboard {keyboard : RawKeyboard} :
    (Action.input (some (.keyboard keyboard))).IsMake k ↔
      keyboard.flags = riKeyMake ∧ keyboard.vKey.setWidth 8 = k := Iff.rfl

@[simp] theorem isBreak_keyboard {keyboard : RawKeyboard} :
    (Action.input (some (.keyboard keyboard))).IsBreak k ↔
      keyboard.flags = riKeyBreak ∧ keyboard.vKey.setWidth 8 = k := Iff.rfl

@[simp] theorem down_concat {a : Action} :
    Down k (t ++ [a]) ↔ a.IsMake k ∨ Down k t ∧ ¬ a.IsBreak k := since_concat

theorem upToFrame_concat_of_frame {a : Action} (ha : a.IsFrame) :
    upToFrame (t ++ [a]) = t ++ [a] :=
  List.rdropWhile_concat_neg _ _ _ (by simp [ha])

theorem upToFrame_concat_of_input {data : Option RawInputData} :
    upToFrame (t ++ [.input data]) = upToFrame t :=
  List.rdropWhile_concat_pos _ _ _ rfl

theorem upToFrame_initial : upToFrame t <+: t := List.rdropWhile_prefix _ _

/-- A key that is down and was up at the last frame has gone down in between. -/
theorem wentDown_of_down (hdown : Down k t) (hlast : ¬ Down k (upToFrame t)) : WentDown k t := by
  induction t using List.reverseRecOn with
  | nil => exact absurd hdown since_nil
  | append_singleton t a ih =>
      cases a with
      | beginFrame cursorPos =>
          have hframe : (Action.beginFrame cursorPos).IsFrame := trivial
          rw [upToFrame_concat_of_frame hframe] at hlast
          exact absurd hdown hlast
      | input data =>
          rw [upToFrame_concat_of_input] at hlast
          rw [down_concat] at hdown
          rw [WentDown, sinceWhen_concat]
          by_cases hbefore : Down k t
          · exact .inr ⟨ih hbefore hlast, id⟩
          · refine .inl ⟨hdown.resolve_right fun h => hbefore h.1, hbefore⟩

/-! ### The state after a history -/

/-- The key states hold what the history says of `k`. -/
structure Tracks (ops : KeyStateOps κ) (k : BitVec 8) (t : List Action) (s : RawInput κ) :
    Prop where
  pressed : ops.getKeyState s.pressedState k = true ↔ Down k t
  pressedLast : ops.getKeyState s.pressedStateLast k = true ↔ Down k (upToFrame t)
  released : ops.getKeyState s.releasedState k = true ↔
    Since Action.IsFrame (Action.IsBreak k) t

section Exact

variable (hexact : ops.Exact)
include hexact

theorem Tracks.initial : Tracks ops k [] (initial ops) where
  pressed := iff_of_false (by simp [RawInput.initial, hexact.zero]) since_nil
  pressedLast := iff_of_false (by simp [RawInput.initial, hexact.zero]) since_nil
  released := iff_of_false (by simp [RawInput.initial, hexact.zero]) since_nil

/-- A make adds its key to the pressed keys, a break moves it to the released ones. -/
theorem Tracks.keyboard {s : RawInput κ} (h : Tracks ops k t s) (keyboard : RawKeyboard) :
    Tracks ops k (t ++ [.input (some (.keyboard keyboard))])
      ({ s with rawKeyboard := keyboard }.setKeyboardState ops) := by
  have hne : riKeyBreak ≠ riKeyMake := by decide
  simp only [setKeyboardState]
  split
  · next hmake =>
      constructor
      · simp only [hexact.set, Bool.or_eq_true, decide_eq_true_eq, h.pressed, down_concat,
          isMake_keyboard, isBreak_keyboard, hmake, hne.symm, true_and, false_and,
          not_false_eq_true, and_true]
        rw [eq_comm]
      · rw [upToFrame_concat_of_input]
        exact h.pressedLast
      · simp [h.released, hmake, hne.symm]
  · next hmake =>
      split
      · next hbreak =>
          constructor
          · simp only [hexact.clear, Bool.and_eq_true, decide_eq_true_eq, h.pressed, down_concat,
              isMake_keyboard, isBreak_keyboard, hbreak, hne, true_and, false_and, false_or]
            rw [eq_comm]
            tauto
          · rw [upToFrame_concat_of_input]
            exact h.pressedLast
          · simp only [hexact.set, Bool.or_eq_true, decide_eq_true_eq, h.released, since_concat,
              isBreak_keyboard, hbreak, true_and, not_isFrame_input, not_false_eq_true, and_true]
            rw [eq_comm]
      · next hbreak =>
          constructor
          · simp [h.pressed, hmake, hbreak]
          · rw [upToFrame_concat_of_input]
            exact h.pressedLast
          · simp [h.released, hbreak]

omit hexact in
/-- An input that is no event of `k` and leaves the key states alone. -/
theorem Tracks.other {s s' : RawInput κ} {data : Option RawInputData} (h : Tracks ops k t s)
    (hmake : ¬ (Action.input data).IsMake k) (hbreak : ¬ (Action.input data).IsBreak k)
    (hpressed : s'.pressedState = s.pressedState)
    (hpressedLast : s'.pressedStateLast = s.pressedStateLast)
    (hreleased : s'.releasedState = s.releasedState) : Tracks ops k (t ++ [.input data]) s' where
  pressed := by simp [hpressed, h.pressed, hmake, hbreak]
  pressedLast := by rw [hpressedLast, upToFrame_concat_of_input, h.pressedLast]
  released := by simp [hreleased, h.released, hbreak]

omit hexact in
theorem Tracks.beginFrameMouse {s s' : RawInput κ} {cursorPos : Option (BitVec 32 × BitVec 32)}
    (h : Tracks ops k t s) (hframe : s.beginFrameMouse cursorPos = .ok s') :
    Tracks ops k t s' := by
  cases cursorPos with
  | none => cases hframe
  | some pos =>
      cases hframe
      exact ⟨h.pressed, h.pressedLast, h.released⟩

/-- A frame remembers which keys are down and forgets the released ones. -/
theorem Tracks.beginFrameKeyboard {s : RawInput κ} (h : Tracks ops k t s) {a : Action}
    (ha : a.IsFrame) : Tracks ops k (t ++ [a]) (s.beginFrameKeyboard ops) := by
  have hdown : Down k (t ++ [a]) ↔ Down k t := by
    cases a with
    | input data => exact absurd ha not_isFrame_input
    | beginFrame cursorPos => simp [Action.IsMake, Action.IsBreak]
  constructor
  · rw [hdown]
    exact h.pressed
  · rw [upToFrame_concat_of_frame ha, hdown]
    exact h.pressed
  · cases a with
    | input data => exact absurd ha not_isFrame_input
    | beginFrame cursorPos =>
        simp [RawInput.beginFrameKeyboard, hexact.zero, Action.IsBreak, Action.IsFrame]

theorem Tracks.next {s s' : RawInput κ} {a : Action} (h : Tracks ops k t s)
    (hnext : next ops scaled s a = some s') : Tracks ops k (t ++ [a]) s' := by
  cases a with
  | input data =>
      rcases next_input_eq_some.mp hnext with
        ⟨mouse, metrics, rfl, rfl⟩ | ⟨keyboard, rfl, rfl⟩ | ⟨rfl, rfl⟩
      · exact h.other id id rfl rfl rfl
      · exact h.keyboard hexact keyboard
      · exact h.other id id rfl rfl rfl
  | beginFrame cursorPos =>
      obtain ⟨u, hu, rfl⟩ := next_beginFrame_eq_some.mp hnext
      exact (h.beginFrameMouse hu).beginFrameKeyboard hexact trivial

theorem Tracks.run {s : RawInput κ} {actions : List Action}
    (h : run ops scaled actions = some s) : Tracks ops k actions s :=
  Machine.run_invariant (.initial hexact) (fun _ hs hnext => hs.next hexact hnext) h

/-! ### What a frame reports -/

theorem isKeyPressed_beginFrameKeyboard (s : RawInput κ) :
    (s.beginFrameKeyboard ops).getKeyboardState.isKeyPressed ops k =
      (ops.getKeyState s.pressedState k && !ops.getKeyState s.pressedStateLast k) := by
  simp [KeyboardState.isKeyPressed, getKeyboardState, RawInput.beginFrameKeyboard, hexact.and,
    hexact.not]

theorem isKeyHeld_beginFrameKeyboard (s : RawInput κ) :
    (s.beginFrameKeyboard ops).getKeyboardState.isKeyHeld ops k =
      (ops.getKeyState s.pressedState k || (ops.getKeyState s.pressedStateLast k &&
        !ops.getKeyState s.releasedStateLast k)) := by
  simp [KeyboardState.isKeyHeld, getKeyboardState, RawInput.beginFrameKeyboard, hexact.or,
    hexact.and, hexact.not]

/-- Releases and held keys are right; a press is right when it shows in the difference of the two
frames. -/
theorem Tracks.keyFollows_iff {s : RawInput κ} (h : Tracks ops k t s) :
    KeyFollows ops k t (s.beginFrameKeyboard ops) ↔
      (WentDown k t → ¬ Down k (upToFrame t) ∧ Down k t) := by
  have hpressed : (s.beginFrameKeyboard ops).getKeyboardState.isKeyPressed ops k = true ↔
      Down k t ∧ ¬ Down k (upToFrame t) := by
    rw [isKeyPressed_beginFrameKeyboard hexact, Bool.and_eq_true, h.pressed, Bool.not_eq_true',
      ← Bool.not_eq_true, h.pressedLast]
  constructor
  · intro hfollows hwent
    exact (hpressed.mp (hfollows.pressed.mpr hwent)).symm
  · intro hwent
    constructor
    · rw [hpressed]
      exact ⟨fun hdown => wentDown_of_down hdown.1 hdown.2, fun hw => (hwent hw).symm⟩
    · exact h.released
    · intro hdown
      rw [isKeyHeld_beginFrameKeyboard hexact, h.pressed.mpr hdown, Bool.true_or]
    · intro hup
      have hnow : ops.getKeyState s.pressedState k = false := by
        rw [← Bool.not_eq_true, h.pressed]
        exact hup t upToFrame_initial (List.prefix_refl _)
      have hlast : ops.getKeyState s.pressedStateLast k = false := by
        rw [← Bool.not_eq_true, h.pressedLast]
        exact hup _ (List.prefix_refl _) upToFrame_initial
      rw [isKeyHeld_beginFrameKeyboard hexact, hnow, hlast, Bool.false_and, Bool.false_or]

end Exact

/-- The keyboard state is right for `k` after every frame exactly if each time `k` goes down
between two frames it was up at the first and is down at the second. -/
theorem everyFrame_keyFollows_iff (scaled : BitVec 32 → BitVec 32 → BitVec 32)
    (hexact : ops.Exact) (k : BitVec 8) (actions : List Action) :
    EveryFrame ops scaled (KeyFollows ops k) actions ↔
      EveryFrame ops scaled
        (fun before _ => WentDown k before → ¬ Down k (upToFrame before) ∧ Down k before)
        actions := by
  refine everyFrame_congr fun before frame s hframe hrun => ?_
  obtain ⟨t, ht, hnext⟩ := Machine.run_concat_eq_some.mp hrun
  cases frame with
  | input data => exact absurd hframe not_isFrame_input
  | beginFrame cursorPos =>
      obtain ⟨u, hu, rfl⟩ := next_beginFrame_eq_some.mp hnext
      exact ((Tracks.run hexact ht).beginFrameMouse hu).keyFollows_iff hexact

/-- Sets of key codes as predicates. -/
def setOps : KeyStateOps (BitVec 8 → Bool) where
  zero _ := false
  operatorOr s t k := s k || t k
  operatorAnd s t k := s k && t k
  operatorNot s k := !s k
  getKeyState s k := s k
  setKeyState s j k := decide (k = j) || s k
  clearKeyState s j k := decide (k ≠ j) && s k

theorem setOps_exact : setOps.Exact where
  zero _ := rfl
  or _ _ _ := rfl
  and _ _ _ := rfl
  not _ _ := rfl
  set _ _ _ := rfl
  clear _ _ _ := rfl

def makeEvent (k : BitVec 16) : Action := .input (some (.keyboard ⟨riKeyMake, k⟩))

def breakEvent (k : BitVec 16) : Action := .input (some (.keyboard ⟨riKeyBreak, k⟩))

theorem down_makeEvent : Down 0x41 [makeEvent 0x41] :=
  ⟨[], _, [], rfl, ⟨rfl, rfl⟩, by simp⟩

/-- A press that lasts to the next frame is seen. -/
theorem everyFrame_keyFollows_of_make :
    EveryFrame setOps (fun _ _ => 0) (KeyFollows setOps 0x41)
      [makeEvent 0x41, .beginFrame (some (0, 0))] := by
  refine (everyFrame_keyFollows_iff _ setOps_exact _ _).mpr ?_
  change EveryFrame _ _ _ (([] ++ [makeEvent 0x41]) ++ [.beginFrame (some (0, 0))])
  refine everyFrame_concat.mpr ⟨everyFrame_concat.mpr ⟨everyFrame_nil, ?_⟩, ?_⟩
  · exact fun hframe => absurd hframe not_isFrame_input
  · exact fun _ _ _ _ => ⟨since_nil, down_makeEvent⟩

/-- A press shorter than a frame is not seen. -/
theorem tap_is_not_seen :
    ¬ EveryFrame setOps (fun _ _ => 0) (KeyFollows setOps 0x41)
      [makeEvent 0x41, breakEvent 0x41, .beginFrame (some (0, 0))] := by
  intro h
  have hwent : WentDown 0x41 [makeEvent 0x41, breakEvent 0x41] :=
    ⟨[], _, [_], rfl, ⟨⟨rfl, rfl⟩, since_nil⟩, by simp [breakEvent]⟩
  have hpressed := (h [_, _] _ _ (List.prefix_refl _) trivial rfl).pressed.mpr hwent
  cases hpressed

end RawInput

end DDFramework
