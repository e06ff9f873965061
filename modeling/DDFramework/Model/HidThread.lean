import DDFramework.Library.CString
import DDFramework.Model.Result

/-! The search for the mouse and the keyboard in the `ThreadCalc` of `hid_thread.cpp`. The devices
that are attached can be others at every call of the system. `malloc` is taken to succeed. -/

namespace DDFramework

namespace HidThread

/-- A `RAWINPUTDEVICELIST`. -/
structure RawInputDevice where
  hDevice : BitVec 64
  dwType : BitVec 32
  deriving DecidableEq, Repr

def rimTypeMouse : BitVec 32 := 0

def rimTypeKeyboard : BitVec 32 := 1

/-! ### `CheckRealKeyboard` -/

/-- The fields of a `RID_DEVICE_INFO` that are read. -/
structure RidDeviceInfo where
  dwType : BitVec 32
  numberOfKeysTotal : BitVec 32
  deriving DecidableEq, Repr

/-- `RID_DEVICE_INFO info = {}`. -/
def RidDeviceInfo.zero : RidDeviceInfo := ⟨0, 0⟩

def ridDeviceInfoSize : BitVec 32 := 32

/-- What `GetRawInputDeviceInfo` returns for a device, and what `info` is afterwards. -/
abbrev GetRawInputDeviceInfo := BitVec 64 → BitVec 32 × RidDeviceInfo

def checkRealKeyboard (getInfo : GetRawInputDeviceInfo) (keyboard : BitVec 64) : Bool :=
  let (result, info) := getInfo keyboard
  if result ≠ -1 ∨ result < ridDeviceInfoSize ∨ info.dwType ≠ rimTypeKeyboard then false
  else decide (30 ≤ info.numberOfKeysTotal)

/-! ### The list of the devices -/

/-- The memory of the list. An element that nothing has written yet is `none`. -/
abbrev DeviceList := List (Option RawInputDevice)

def mallocList (count : BitVec 32) : DeviceList := List.replicate count.toNat none

/-- `GetRawInputDeviceList` with a list, as the result, the count and the list after the call. If
the count is too small the call fails and writes the number of the devices to it. -/
def getRawInputDeviceList (attached : List RawInputDevice) (count : BitVec 32)
    (deviceList : DeviceList) : BitVec 32 × BitVec 32 × DeviceList :=
  if attached.length ≤ count.toNat then
    (BitVec.ofNat 32 attached.length, count, overwrite deviceList 0 (attached.map some))
  else (-1, BitVec.ofNat 32 attached.length, deviceList)

structure Query where
  deviceCount : BitVec 32
  secondCount : BitVec 32
  deviceList : DeviceList
  deriving DecidableEq, Repr

/-- One round of the loop. -/
def Query.fetch (q : Query) (attached : List RawInputDevice) : Query :=
  let (result, secondCount, deviceList) :=
    getRawInputDeviceList attached q.secondCount q.deviceList
  if result = -1 then ⟨q.deviceCount, secondCount, mallocList secondCount⟩
  else ⟨result, secondCount, deviceList⟩

/-- `while (device_count != second_count)`, before the call with the given number. -/
def queryLoop (attached : ℕ → List RawInputDevice) : ℕ → ℕ → Query → Except Fault Query
  | 0, _, _ => .error .outOfFuel
  | fuel + 1, call, q =>
    if q.deviceCount = q.secondCount then .ok q
    else queryLoop attached fuel (call + 1) (q.fetch (attached call))

/-- "Query input devices" and "Get raw input device list". The first call has no list and gives the
number of the devices. -/
def queryDevices (first : List RawInputDevice) (attached : ℕ → List RawInputDevice) (fuel : ℕ) :
    Except Fault Query :=
  let deviceCount := BitVec.ofNat 32 first.length
  queryLoop attached fuel 0 ⟨deviceCount, 0, mallocList deviceCount⟩

/-! ### The devices in the list -/

/-- How the read of an element can fail. -/
inductive ReadFault where
  | outOfBounds
  | unwritten
  deriving DecidableEq, Repr

def readDevice (deviceList : DeviceList) (i : ℕ) : Except ReadFault RawInputDevice :=
  match deviceList[i]? with
  | none => .error .outOfBounds
  | some none => .error .unwritten
  | some (some device) => .ok device

/-- `keyboard_handle` and `mouse_handle`, as indices of the list. -/
structure Handles where
  keyboard : Option ℕ
  mouse : Option ℕ
  deriving DecidableEq, Repr

/-- The body of the loop for one device. -/
def Handles.visit (getInfo : GetRawInputDeviceInfo) (handles : Handles) (i : ℕ)
    (device : RawInputDevice) : Handles :=
  let handles :=
    if device.dwType = rimTypeKeyboard ∧ checkRealKeyboard getInfo device.hDevice = true then
      { handles with keyboard := some i }
    else handles
  if device.dwType = rimTypeMouse then { handles with mouse := some i } else handles

/-- "Find and register mouse and keyboard", from the index `i` on. -/
def findDevicesFrom (getInfo : GetRawInputDeviceInfo) (deviceList : DeviceList) :
    ℕ → ℕ → Handles → Except ReadFault Handles
  | 0, _, handles => .ok handles
  | n + 1, i, handles => do
    let device ← readDevice deviceList i
    findDevicesFrom getInfo deviceList n (i + 1) (handles.visit getInfo i device)

def Query.findDevices (getInfo : GetRawInputDeviceInfo) (q : Query) : Except ReadFault Handles :=
  findDevicesFrom getInfo q.deviceList q.deviceCount.toNat 0 ⟨none, none⟩

end HidThread

end DDFramework
