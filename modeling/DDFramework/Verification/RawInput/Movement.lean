import DDFramework.Verification.RawInput.MouseButtons
import Mathlib.Algebra.BigOperators.Group.List.Basic
import Mathlib.Data.BitVec

/-! # Movements and turns of the mouse

`SetMouseState` adds up what the reports say between two frames, and `BeginFrame` hands the sums
over. Whether the coordinates of a report are relative is looked up in the report before it. -/

namespace DDFramework

/-! ### Reports -/

namespace RawMouse

abbrev IsAbsolute (mouse : RawMouse) : Prop :=
  mouse.usFlags &&& mouseMoveAbsolute = mouseMoveAbsolute

/-- The wheel of the flag turns in the report. -/
abbrev Turns (flag : BitVec 16) (mouse : RawMouse) : Prop := mouse.usButtonFlags &&& flag = flag

/-- The coordinate of an absolute report, and 0 otherwise. -/
def position (coordinate : RawMouse → BitVec 32) (mouse : RawMouse) : BitVec 32 :=
  if mouse.IsAbsolute then coordinate mouse else 0

/-- How far the wheel turns: the word is a signed one. -/
def turn (flag : BitVec 16) (mouse : RawMouse) : BitVec 32 :=
  if mouse.Turns flag then mouse.usButtonData.signExtend 32 else 0

/-- The wheel turns by a negative distance. -/
abbrev TurnsBack (flag : BitVec 16) (mouse : RawMouse) : Prop :=
  mouse.Turns flag ∧ mouse.usButtonData.msb = true

end RawMouse

/-- Where a mouse has come from 0: the sum of the relative movements, with the position of the last
report if that is an absolute one. -/
def displacement (coordinate : RawMouse → BitVec 32) (mice : List RawMouse) : BitVec 32 :=
  ((mice.filter (¬ RawMouse.IsAbsolute ·)).map coordinate).sum +
    (mice.getLast?.map (RawMouse.position coordinate)).getD 0

namespace RawInput

variable {κ : Type*} (ops : KeyStateOps κ) (scaled : BitVec 32 → BitVec 32 → BitVec 32)

/-- The reports of the mouse among the calls. -/
def reports (actions : List Action) : List RawMouse :=
  actions.filterMap fun
    | .input (some (.mouse mouse _)) => some mouse
    | _ => none

/-- What `GetMouseState` returns after each `BeginFrame` of a run. -/
def frameStates (s : RawInput κ) : List Action → List MouseState
  | [] => []
  | a :: actions =>
      match next ops scaled s a with
      | some s' => (if a.IsFrame then [s'.getMouseState] else []) ++ frameStates s' actions
      | none => []

/-- The sum of a field of the mouse state over the frames of a run of the program. -/
def reported (field : MouseState → BitVec 32) (actions : List Action) : BitVec 32 :=
  ((frameStates ops scaled (initial ops) actions).map field).sum

/-! ### Fields that add up -/

/-- The sum of the changes over a list of reports, each with the one before it. -/
def total (change : RawMouse → RawMouse → BitVec 32) (last : RawMouse) : List RawMouse → BitVec 32
  | [] => 0
  | mouse :: mice => change last mouse + total change mouse mice

/-- `SetMouseState` adds `change` to the field, and `BeginFrame` leaves it as it is. -/
structure AddsUp (field : MouseState → BitVec 32) (change : RawMouse → RawMouse → BitVec 32) :
    Prop where
  zero : field .zero = 0
  moved (interim : MouseState) (lastMouse mouse : RawMouse) (width height : BitVec 32)
    (held : BitVec 16) :
    field { wheeledInterim (movedInterim scaled interim lastMouse mouse width height) mouse with
      buttonHeld := held } = field interim + change lastMouse mouse
  handed (interim : MouseState) (x y : BitVec 32) (held : BitVec 16) :
    field { interim with absoluteX := x, absoluteY := y, buttonHeld := held } = field interim

variable {ops scaled} {field : MouseState → BitVec 32} {change : RawMouse → RawMouse → BitVec 32}
  {s s' : RawInput κ} {actions : List Action} {a : Action}

theorem setKeyboardState_lastRawMouse (ops : KeyStateOps κ) (s : RawInput κ) :
    (s.setKeyboardState ops).lastRawMouse = s.lastRawMouse := by
  simp only [setKeyboardState]
  split
  · rfl
  · split
    · rfl
    · rfl

/-- What is in the interim state and in the reports to come goes into the frame that begins, or
stays there. -/
theorem AddsUp.next (h : AddsUp scaled field change) (hnext : next ops scaled s a = some s')
    (actions : List Action) :
    ((if a.IsFrame then [s'.getMouseState] else []).map field).sum + (field s'.interimMouseState +
        total change s'.lastRawMouse (reports actions)) =
      field s.interimMouseState + total change s.lastRawMouse (reports (a :: actions)) := by
  cases a with
  | input data =>
      rw [if_neg (by exact id), List.map_nil, List.sum_nil, zero_add]
      rcases next_input_eq_some.mp hnext with
        ⟨mouse, metrics, rfl, rfl⟩ | ⟨keyboard, rfl, rfl⟩ | ⟨rfl, rfl⟩
      · have hmoved := h.moved s.interimMouseState s.lastRawMouse mouse
        simp only [setMouseState, hmoved, reports, List.filterMap_cons, total, add_assoc]
      · have hkept := setKeyboardState_mouse ops { s with rawKeyboard := keyboard }
        simp only [hkept, setKeyboardState_lastRawMouse, reports, List.filterMap_cons]
      · rfl
  | beginFrame cursorPos =>
      obtain ⟨t, ht, rfl⟩ := next_beginFrame_eq_some.mp hnext
      cases cursorPos with
      | none => cases ht
      | some pos =>
          cases ht
          have hhanded := h.handed s.interimMouseState
          rw [if_pos (by exact trivial)]
          simp only [List.map_cons, List.map_nil, List.sum_singleton, getMouseState,
            beginFrameKeyboard, hhanded, h.zero, zero_add, reports, List.filterMap_cons]

/-- The frames of a run and the interim state after it have what was in the interim state before
it and what the reports add. -/
theorem AddsUp.run (h : AddsUp scaled field change)
    (hrun : Machine.run (RawInput.next ops scaled) s actions = some s') :
    ((frameStates ops scaled s actions).map field).sum + field s'.interimMouseState =
      field s.interimMouseState + total change s.lastRawMouse (reports actions) := by
  induction actions generalizing s with
  | nil =>
      cases hrun
      simp [frameStates, reports, total]
  | cons a actions ih =>
      obtain ⟨t, hnext, hrest⟩ := Option.bind_eq_some_iff.mp hrun
      rw [← h.next hnext actions, ← ih hrest]
      simp only [frameStates, hnext, List.map_append, List.sum_append, add_assoc]

/-- After a `BeginFrame` the frames have all that the reports add. -/
theorem AddsUp.reported (h : AddsUp scaled field change)
    {cursorPos : Option (BitVec 32 × BitVec 32)}
    (hrun : RawInput.run ops scaled (actions ++ [.beginFrame cursorPos]) = some s) :
    reported ops scaled field (actions ++ [.beginFrame cursorPos]) =
      total change ⟨0, 0, 0, 0, 0⟩ (reports actions) := by
  have htotal := h.run hrun
  obtain ⟨t, -, hframe⟩ := Machine.run_concat_eq_some.mp hrun
  obtain ⟨u, hu, rfl⟩ := next_beginFrame_eq_some.mp hframe
  cases cursorPos with
  | none => cases hu
  | some pos =>
      cases hu
      simpa [reported, reports, beginFrameKeyboard, h.zero, initial] using htotal

/-! ### What a report changes -/

/-- A coordinate moves away from the position in the report before. -/
def moveFrom (coordinate : RawMouse → BitVec 32) (lastMouse mouse : RawMouse) : BitVec 32 :=
  coordinate mouse - lastMouse.position coordinate

/-- A turn as `SetMouseState` reads it, from an unsigned word. -/
def wheelData (flag : BitVec 16) (mouse : RawMouse) : BitVec 32 :=
  if mouse.Turns flag then mouse.usButtonData.setWidth 32 else 0

section Changes

variable (scaled) (interim : MouseState) (lastMouse mouse : RawMouse) (width height : BitVec 32)

/-- Every report that does not follow an absolute one counts as relative: the flag of relative
movement is 0. -/
theorem movedInterim_delta :
    (movedInterim scaled interim lastMouse mouse width height).deltaX =
        interim.deltaX + moveFrom RawMouse.lLastX lastMouse mouse ∧
      (movedInterim scaled interim lastMouse mouse width height).deltaY =
        interim.deltaY + moveFrom RawMouse.lLastY lastMouse mouse := by
  unfold movedInterim moveFrom RawMouse.position
  by_cases habsolute : lastMouse.IsAbsolute
  · simp only [if_pos habsolute, and_self]
  · have hrelative : lastMouse.usFlags &&& mouseMoveRelative = mouseMoveRelative := by
      simp [mouseMoveRelative]
    simp only [if_neg habsolute, if_pos hrelative, sub_zero, and_self]

theorem wheeledInterim_delta :
    (wheeledInterim interim mouse).deltaX = interim.deltaX ∧
      (wheeledInterim interim mouse).deltaY = interim.deltaY := by
  simp only [wheeledInterim]
  split <;> split <;> exact ⟨rfl, rfl⟩

theorem movedInterim_wheel :
    (movedInterim scaled interim lastMouse mouse width height).deltaVwheel = interim.deltaVwheel ∧
      (movedInterim scaled interim lastMouse mouse width height).deltaHwheel =
        interim.deltaHwheel := by
  unfold movedInterim
  split
  · exact ⟨rfl, rfl⟩
  · split <;> exact ⟨rfl, rfl⟩

theorem wheeledInterim_wheel :
    (wheeledInterim interim mouse).deltaVwheel =
        interim.deltaVwheel + wheelData riMouseWheel mouse ∧
      (wheeledInterim interim mouse).deltaHwheel =
        interim.deltaHwheel + wheelData riMouseHwheel mouse := by
  unfold wheeledInterim wheelData
  by_cases hwheel : mouse.Turns riMouseWheel
  · by_cases hhwheel : mouse.Turns riMouseHwheel
    · simp only [if_pos hwheel, if_pos hhwheel, and_self]
    · simp only [if_pos hwheel, if_neg hhwheel, add_zero, and_self]
  · by_cases hhwheel : mouse.Turns riMouseHwheel
    · simp only [if_neg hwheel, if_pos hhwheel, add_zero, and_self]
    · simp only [if_neg hwheel, if_neg hhwheel, add_zero, and_self]

end Changes

theorem addsUp_deltaX : AddsUp scaled MouseState.deltaX (moveFrom RawMouse.lLastX) where
  zero := rfl
  moved interim lastMouse mouse width height _ :=
    (wheeledInterim_delta _ mouse).1.trans
      (movedInterim_delta scaled interim lastMouse mouse width height).1
  handed _ _ _ _ := rfl

theorem addsUp_deltaY : AddsUp scaled MouseState.deltaY (moveFrom RawMouse.lLastY) where
  zero := rfl
  moved interim lastMouse mouse width height _ :=
    (wheeledInterim_delta _ mouse).2.trans
      (movedInterim_delta scaled interim lastMouse mouse width height).2
  handed _ _ _ _ := rfl

theorem addsUp_deltaVwheel :
    AddsUp scaled MouseState.deltaVwheel fun _ => wheelData riMouseWheel where
  zero := rfl
  moved interim lastMouse mouse width height _ := by
    rw [← (movedInterim_wheel scaled interim lastMouse mouse width height).1]
    exact (wheeledInterim_wheel _ mouse).1
  handed _ _ _ _ := rfl

theorem addsUp_deltaHwheel :
    AddsUp scaled MouseState.deltaHwheel fun _ => wheelData riMouseHwheel where
  zero := rfl
  moved interim lastMouse mouse width height _ := by
    rw [← (movedInterim_wheel scaled interim lastMouse mouse width height).2]
    exact (wheeledInterim_wheel _ mouse).2
  handed _ _ _ _ := rfl

/-! ### Sums of the changes -/

/-- The positions of absolute reports cancel, up to the last one. -/
theorem total_moveFrom (coordinate : RawMouse → BitVec 32) (last : RawMouse)
    (mice : List RawMouse) :
    total (moveFrom coordinate) last mice + last.position coordinate =
      ((mice.filter (¬ RawMouse.IsAbsolute ·)).map coordinate).sum +
        (mice.getLast?.getD last).position coordinate := by
  induction mice generalizing last with
  | nil => simp [total]
  | cons mouse mice ih =>
      have hmouse : moveFrom coordinate last mouse + last.position coordinate =
          coordinate mouse := sub_add_cancel _ _
      rw [total, add_right_comm, hmouse, List.getLast?_cons, Option.getD_some]
      by_cases habsolute : mouse.IsAbsolute
      · have hposition : mouse.position coordinate = coordinate mouse := if_pos habsolute
        rw [List.filter_cons_of_neg (by simpa using habsolute), ← ih mouse, hposition, add_comm]
      · have hposition : mouse.position coordinate = 0 := if_neg habsolute
        rw [List.filter_cons_of_pos (by simpa using habsolute), List.map_cons, List.sum_cons,
          add_assoc, ← ih mouse, hposition, add_zero]

theorem total_moveFrom_eq_displacement (coordinate : RawMouse → BitVec 32)
    (mice : List RawMouse) :
    total (moveFrom coordinate) ⟨0, 0, 0, 0, 0⟩ mice = displacement coordinate mice := by
  have hzero : (⟨0, 0, 0, 0, 0⟩ : RawMouse).position coordinate = 0 := if_neg (by decide)
  have htotal := total_moveFrom coordinate ⟨0, 0, 0, 0, 0⟩ mice
  rw [hzero, add_zero] at htotal
  rw [htotal, displacement]
  cases mice.getLast? with
  | none => rw [Option.getD_none, hzero, Option.map_none, Option.getD_none]
  | some mouse => rfl

theorem setWidth_eq_signExtend_add (word : BitVec 16) :
    word.setWidth 32 = word.signExtend 32 + if word.msb = true then 0x10000 else 0 := by
  by_cases hsign : word.msb = true
  · have hword := word.isLt
    apply BitVec.eq_of_toNat_eq
    rw [if_pos hsign, BitVec.toNat_add, BitVec.toNat_signExtend, if_pos hsign]
    simp only [BitVec.toNat_setWidth, BitVec.ofNat_eq_ofNat, BitVec.toNat_ofNat]
    omega
  · rw [if_neg hsign, BitVec.signExtend_eq_setWidth_of_msb_false (by simpa using hsign)]
    exact (add_zero _).symm

theorem wheelData_eq (flag : BitVec 16) (mouse : RawMouse) :
    wheelData flag mouse = mouse.turn flag + if mouse.TurnsBack flag then 0x10000 else 0 := by
  by_cases hturns : mouse.Turns flag
  · rw [wheelData, if_pos hturns, RawMouse.turn, if_pos hturns, setWidth_eq_signExtend_add]
    simp only [RawMouse.TurnsBack, and_iff_right hturns]
  · rw [wheelData, if_neg hturns, RawMouse.turn, if_neg hturns, if_neg fun h => hturns h.1]
    rfl

theorem total_wheelData (flag : BitVec 16) (last : RawMouse) (mice : List RawMouse) :
    total (fun _ => wheelData flag) last mice = (mice.map (RawMouse.turn flag)).sum +
      BitVec.ofNat 32 (0x10000 * mice.countP (RawMouse.TurnsBack flag ·)) := by
  induction mice generalizing last with
  | nil => rfl
  | cons mouse mice ih =>
      rw [total, ih, wheelData_eq, List.map_cons, List.sum_cons, List.countP_cons]
      by_cases hback : mouse.TurnsBack flag
      · rw [if_pos hback, if_pos (decide_eq_true hback), Nat.mul_add, Nat.mul_one, BitVec.ofNat_add,
          BitVec.ofNat_eq_ofNat, add_add_add_comm, add_comm 65536#32]
      · rw [if_neg hback, if_neg (by simpa using hback), Nat.add_zero, add_zero, add_assoc]

theorem total_wheelData_eq_iff (flag : BitVec 16) (last : RawMouse) (mice : List RawMouse) :
    total (fun _ => wheelData flag) last mice = (mice.map (RawMouse.turn flag)).sum ↔
      0x10000 ∣ mice.countP (RawMouse.TurnsBack flag ·) := by
  rw [total_wheelData, add_eq_left, ← BitVec.toNat_inj, BitVec.toNat_ofNat]
  simp only [BitVec.ofNat_eq_ofNat, BitVec.toNat_ofNat]
  omega

/-- The frames of a run report all movements, each once; what they report of a wheel is how far it
has turned exactly if the number of its turns back is a multiple of 65536. -/
theorem run_reports {cursorPos : Option (BitVec 32 × BitVec 32)}
    (hrun : run ops scaled (actions ++ [.beginFrame cursorPos]) = some s) :
    reported ops scaled MouseState.deltaX (actions ++ [.beginFrame cursorPos]) =
      displacement RawMouse.lLastX (reports actions) ∧
    reported ops scaled MouseState.deltaY (actions ++ [.beginFrame cursorPos]) =
      displacement RawMouse.lLastY (reports actions) ∧
    (reported ops scaled MouseState.deltaVwheel (actions ++ [.beginFrame cursorPos]) =
        ((reports actions).map (RawMouse.turn riMouseWheel)).sum ↔
      0x10000 ∣ (reports actions).countP (RawMouse.TurnsBack riMouseWheel ·)) ∧
    (reported ops scaled MouseState.deltaHwheel (actions ++ [.beginFrame cursorPos]) =
        ((reports actions).map (RawMouse.turn riMouseHwheel)).sum ↔
      0x10000 ∣ (reports actions).countP (RawMouse.TurnsBack riMouseHwheel ·)) := by
  refine ⟨?_, ?_, ?_, ?_⟩
  · rw [addsUp_deltaX.reported hrun, total_moveFrom_eq_displacement]
  · rw [addsUp_deltaY.reported hrun, total_moveFrom_eq_displacement]
  · rw [addsUp_deltaVwheel.reported hrun, total_wheelData_eq_iff]
  · rw [addsUp_deltaHwheel.reported hrun, total_wheelData_eq_iff]

/-- The mouse moves, an absolute report follows, and the wheel is turned back once. -/
theorem run_reports_turnedBack :
    let actions : List Action := [.input (some (.mouse ⟨0, 0, 0, 3, 4⟩ ⟨0, 0, 0, 0⟩)),
      .beginFrame (some (0, 0)), .input (some (.mouse ⟨1, 0x400, -120, 50, 60⟩ ⟨0, 0, 0, 0⟩))]
    let calls := actions ++ [.beginFrame (some (0, 0))]
    let ops := KeyState.ops fun n => 1#32 <<< n
    reported ops (fun _ _ => 0) MouseState.deltaX calls = 53 ∧
      reported ops (fun _ _ => 0) MouseState.deltaVwheel calls ≠ -120 := by
  intro actions calls ops
  have hrun : run ops (fun _ _ => 0) calls = some _ := rfl
  obtain ⟨hx, -, hwheel, -⟩ := run_reports hrun
  refine ⟨hx.trans (by decide), fun hreported => ?_⟩
  have hturned : ((reports actions).map (RawMouse.turn riMouseWheel)).sum = -120 := by decide
  exact absurd (hwheel.mp (hreported.trans hturned.symm)) (by decide)

end RawInput

end DDFramework
