import DDFramework.Model.Result
import Mathlib.Data.Nat.Notation

/-! Mouse and keyboard input from `hid_rawinput.h` and `hid_rawinput.cpp`. The globals of the
source file are one record, and each function runs under its lock. -/

namespace DDFramework

/-! ### Key states -/

/-- The 256 bits of a `KeyState` as its `state_array`. -/
structure KeyState where
  stateArray : Fin 4 → BitVec 64
  deriving DecidableEq

namespace KeyState

instance : OrOp KeyState where
  or this rhs := ⟨fun i => this.stateArray i ||| rhs.stateArray i⟩

instance : AndOp KeyState where
  and this rhs := ⟨fun i => this.stateArray i &&& rhs.stateArray i⟩

instance : Complement KeyState where
  complement this := ⟨fun i => ~~~this.stateArray i⟩

def index (vkCode : BitVec 8) : Fin 4 :=
  ⟨(vkCode >>> 6).toNat, by have := vkCode.isLt; simp; omega⟩

/-- `const u64 key_pos = 1 << (vk_code % 64);` The shift is one of `int`, and `shiftLeft n` is
the value of `1 << n`. -/
def keyPos (shiftLeft : ℕ → BitVec 32) (vkCode : BitVec 8) : BitVec 64 :=
  (shiftLeft (vkCode % 64).toNat).signExtend 64

variable (shiftLeft : ℕ → BitVec 32)

def getKeyState (this : KeyState) (vkCode : BitVec 8) : Bool :=
  this.stateArray (index vkCode) &&& keyPos shiftLeft vkCode == keyPos shiftLeft vkCode

def setKeyState (this : KeyState) (vkCode : BitVec 8) : KeyState :=
  ⟨Function.update this.stateArray (index vkCode)
    (this.stateArray (index vkCode) ||| keyPos shiftLeft vkCode)⟩

def clearKeyState (this : KeyState) (vkCode : BitVec 8) : KeyState :=
  ⟨Function.update this.stateArray (index vkCode)
    (this.stateArray (index vkCode) &&& ~~~keyPos shiftLeft vkCode)⟩

end KeyState

/-- The operations on key states that the keyboard uses. -/
structure KeyStateOps (κ : Type*) where
  /-- All bytes zero. -/
  zero : κ
  operatorOr : κ → κ → κ
  operatorAnd : κ → κ → κ
  operatorNot : κ → κ
  getKeyState : κ → BitVec 8 → Bool
  setKeyState : κ → BitVec 8 → κ
  clearKeyState : κ → BitVec 8 → κ

/-- The operations of `KeyState`. -/
def KeyState.ops (shiftLeft : ℕ → BitVec 32) : KeyStateOps KeyState where
  zero := ⟨fun _ => 0⟩
  operatorOr := (· ||| ·)
  operatorAnd := (· &&& ·)
  operatorNot := (~~~ ·)
  getKeyState := getKeyState shiftLeft
  setKeyState := setKeyState shiftLeft
  clearKeyState := clearKeyState shiftLeft

/-! ### Keyboard and mouse states -/

structure KeyboardState (κ : Type*) where
  pressedKeys : κ
  heldKeys : κ
  releasedKeys : κ

namespace KeyboardState

variable {κ : Type*} (ops : KeyStateOps κ)

def isKeyPressed (this : KeyboardState κ) (virtualKeyCode : BitVec 8) : Bool :=
  ops.getKeyState this.pressedKeys virtualKeyCode

def isKeyHeld (this : KeyboardState κ) (virtualKeyCode : BitVec 8) : Bool :=
  ops.getKeyState this.heldKeys virtualKeyCode

def isKeyUp (this : KeyboardState κ) (virtualKeyCode : BitVec 8) : Bool :=
  ops.getKeyState this.releasedKeys virtualKeyCode

end KeyboardState

inductive MouseButton where
  | left
  | right
  | middle
  | x1
  | x2
  deriving DecidableEq, Repr

def MouseButton.toWord : MouseButton → BitVec 16
  | left => 0x01
  | right => 0x04
  | middle => 0x10
  | x1 => 0x40
  | x2 => 0x100

structure MouseState where
  absoluteX : BitVec 32
  absoluteY : BitVec 32
  deltaX : BitVec 32
  deltaY : BitVec 32
  deltaVwheel : BitVec 32
  deltaHwheel : BitVec 32
  buttonState : BitVec 16
  buttonHeld : BitVec 16
  deriving DecidableEq, Repr

namespace MouseState

/-- All bytes zero. -/
def zero : MouseState := ⟨0, 0, 0, 0, 0, 0, 0, 0⟩

def buttonDownMask : BitVec 16 :=
  MouseButton.left.toWord ||| MouseButton.right.toWord ||| MouseButton.middle.toWord |||
    MouseButton.x1.toWord ||| MouseButton.x2.toWord

def getButtonDown (this : MouseState) (mouseButton : BitVec 16) : Bool :=
  this.buttonState &&& mouseButton != 0

def getButtonHeld (this : MouseState) (mouseButton : BitVec 16) : Bool :=
  this.buttonHeld &&& mouseButton != 0

/-- The shift is one of `int`. -/
def getButtonUp (this : MouseState) (mouseButton : BitVec 16) : Bool :=
  this.buttonState.setWidth 32 &&& (mouseButton.setWidth 32 <<< 1) != 0

end MouseState

/-! ### What Windows delivers -/

/-- The fields of a `RAWMOUSE` that are read. -/
structure RawMouse where
  usFlags : BitVec 16
  usButtonFlags : BitVec 16
  usButtonData : BitVec 16
  lLastX : BitVec 32
  lLastY : BitVec 32
  deriving DecidableEq, Repr

/-- The fields of a `RAWKEYBOARD` that are read. -/
structure RawKeyboard where
  flags : BitVec 16
  vKey : BitVec 16
  deriving DecidableEq, Repr

def mouseMoveRelative : BitVec 16 := 0

def mouseMoveAbsolute : BitVec 16 := 1

def mouseVirtualDesktop : BitVec 16 := 2

def riMouseWheel : BitVec 16 := 0x400

def riMouseHwheel : BitVec 16 := 0x800

def riKeyMake : BitVec 16 := 0

def riKeyBreak : BitVec 16 := 1

/-- The values of `GetSystemMetrics`. -/
structure SystemMetrics where
  cxVirtualScreen : BitVec 32
  cyVirtualScreen : BitVec 32
  cxScreen : BitVec 32
  cyScreen : BitVec 32
  deriving DecidableEq, Repr

/-- What `GetRawInputData` reads for a handle; the metrics are those at the time of the call. -/
inductive RawInputData where
  | mouse (mouse : RawMouse) (metrics : SystemMetrics)
  | keyboard (keyboard : RawKeyboard)
  /-- Any other device. -/
  | hid
  deriving DecidableEq, Repr

/-! ### The globals -/

structure RawInput (κ : Type*) where
  rawMouse : RawMouse
  lastRawMouse : RawMouse
  interimMouseState : MouseState
  frameMouseState : MouseState
  rawKeyboard : RawKeyboard
  frameKeyboardState : KeyboardState κ
  pressedState : κ
  pressedStateLast : κ
  releasedState : κ
  releasedStateLast : κ
  aheldState : κ

namespace RawInput

variable {κ : Type*} (ops : KeyStateOps κ) (scaled : BitVec 32 → BitVec 32 → BitVec 32)

/-- The globals at the start of the program. -/
def initial : RawInput κ where
  rawMouse := ⟨0, 0, 0, 0, 0⟩
  lastRawMouse := ⟨0, 0, 0, 0, 0⟩
  interimMouseState := .zero
  frameMouseState := .zero
  rawKeyboard := ⟨0, 0⟩
  frameKeyboardState := ⟨ops.zero, ops.zero, ops.zero⟩
  pressedState := ops.zero
  pressedStateLast := ops.zero
  releasedState := ops.zero
  releasedStateLast := ops.zero
  aheldState := ops.zero

/-- `scaled value size` is `static_cast<s32>((value / 65535.0f) * size)`. -/
def movedInterim (interim : MouseState) (lastMouse mouse : RawMouse)
    (width height : BitVec 32) : MouseState :=
  if lastMouse.usFlags &&& mouseMoveAbsolute = mouseMoveAbsolute then
    { interim with
      absoluteX := scaled mouse.lLastX width
      absoluteY := scaled mouse.lLastY height
      deltaX := interim.deltaX + (mouse.lLastX - lastMouse.lLastX)
      deltaY := interim.deltaY + (mouse.lLastY - lastMouse.lLastY) }
  else if lastMouse.usFlags &&& mouseMoveRelative = mouseMoveRelative then
    { interim with
      deltaX := interim.deltaX + mouse.lLastX
      deltaY := interim.deltaY + mouse.lLastY }
  else interim

def wheeledInterim (interim : MouseState) (mouse : RawMouse) : MouseState :=
  let interim :=
    if mouse.usButtonFlags &&& riMouseWheel = riMouseWheel then
      { interim with deltaVwheel := interim.deltaVwheel + mouse.usButtonData.setWidth 32 }
    else interim
  if mouse.usButtonFlags &&& riMouseHwheel = riMouseHwheel then
    { interim with deltaHwheel := interim.deltaHwheel + mouse.usButtonData.setWidth 32 }
  else interim

def setMouseState (metrics : SystemMetrics) (s : RawInput κ) : RawInput κ :=
  let lastMouse := s.lastRawMouse
  let mouse := s.rawMouse
  let isVirtual := lastMouse.usFlags &&& mouseVirtualDesktop = mouseVirtualDesktop
  let width := if isVirtual then metrics.cxVirtualScreen else metrics.cxScreen
  let height := if isVirtual then metrics.cyVirtualScreen else metrics.cyScreen
  let interim := movedInterim scaled s.interimMouseState lastMouse mouse width height
  let interim := wheeledInterim interim mouse
  { s with
    interimMouseState := { interim with buttonHeld := interim.buttonHeld ||| mouse.usButtonFlags }
    lastRawMouse := s.rawMouse }

/-- The virtual key code is narrowed to a `u8` by each call. -/
def setKeyboardState (s : RawInput κ) : RawInput κ :=
  let vKey := s.rawKeyboard.vKey.setWidth 8
  if s.rawKeyboard.flags = riKeyMake then
    { s with pressedState := ops.setKeyState s.pressedState vKey }
  else if s.rawKeyboard.flags = riKeyBreak then
    { s with
      releasedState := ops.setKeyState s.releasedState vKey
      pressedState := ops.clearKeyState (ops.clearKeyState s.pressedState vKey) vKey }
  else s

/-- The first half of `BeginFrame`; `cursorPos` is what `GetCursorPos` gives, if it does. -/
def beginFrameMouse (cursorPos : Option (BitVec 32 × BitVec 32)) (s : RawInput κ) :
    Except Fault (RawInput κ) :=
  let interim := s.interimMouseState
  let heldState :=
    (s.frameMouseState.buttonHeld ||| (interim.buttonState &&& MouseState.buttonDownMask)) &&&
      ~~~((interim.buttonState >>> 1) &&& MouseState.buttonDownMask)
  match cursorPos with
  | none => .error .assertFailed
  | some (x, y) =>
      .ok { s with
        frameMouseState :=
          { interim with absoluteX := x, absoluteY := y, buttonHeld := heldState }
        interimMouseState := .zero }

/-- The second half of `BeginFrame`. -/
def beginFrameKeyboard (s : RawInput κ) : RawInput κ :=
  { s with
    aheldState := ops.operatorOr s.aheldState
      (ops.operatorAnd s.pressedState (ops.operatorNot s.releasedState))
    frameKeyboardState :=
      { releasedKeys := s.releasedState
        heldKeys := ops.operatorOr s.pressedState
          (ops.operatorAnd s.pressedStateLast (ops.operatorNot s.releasedStateLast))
        pressedKeys := ops.operatorAnd s.pressedState (ops.operatorNot s.pressedStateLast) }
    pressedStateLast := s.pressedState
    releasedStateLast := s.releasedState
    releasedState := ops.zero }

def beginFrame (cursorPos : Option (BitVec 32 × BitVec 32)) (s : RawInput κ) :
    Except Fault (RawInput κ) := do
  let s ← s.beginFrameMouse cursorPos
  return s.beginFrameKeyboard ops

/-- There is no `data` when `GetRawInputData` fails. -/
def setLastRawInput (data : Option RawInputData) (s : RawInput κ) : Except Fault (RawInput κ) :=
  match data with
  | none => .error .assertFailed
  | some (.mouse mouse metrics) =>
      .ok ({ s with rawMouse := mouse }.setMouseState scaled metrics)
  | some (.keyboard keyboard) =>
      .ok ({ s with rawKeyboard := keyboard }.setKeyboardState ops)
  | some .hid => .ok s

def getKeyboardState (s : RawInput κ) : KeyboardState κ := s.frameKeyboardState

def getMouseState (s : RawInput κ) : MouseState := s.frameMouseState

/-! ### Runs -/

/-- A call of the window procedure or of the program. -/
inductive Action where
  | input (data : Option RawInputData)
  | beginFrame (cursorPos : Option (BitVec 32 × BitVec 32))
  deriving DecidableEq, Repr

/-- A call that fails an assertion ends the program. -/
def next (s : RawInput κ) : Action → Option (RawInput κ)
  | .input data => (s.setLastRawInput ops scaled data).toOption
  | .beginFrame cursorPos => (s.beginFrame ops cursorPos).toOption

end RawInput

end DDFramework
