import DDFramework.Model.Heap
import DDFramework.Model.SystemFileDevice

/-! The loading of resources, from `res_filedevicemanager.hpp` and `res_resourcemanager.hpp`. The
virtual functions of the objects are parameters, and an object is known by its address. -/

namespace DDFramework

/-! ### The C library -/

/-- The loop of `strncmp` at the index `i`. -/
def strncmpFrom (lhs rhs : Source) : ℕ → ℕ → Except Fault ℤ
  | 0, _ => .ok 0
  | n + 1, i => do
    let c ← lhs i
    let d ← rhs i
    if c ≠ d then .ok (c.toNat - d.toNat)
    else if c = 0 then .ok 0
    else strncmpFrom lhs rhs n (i + 1)

def strncmp (lhs rhs : Source) (n : ℕ) : Except Fault ℤ := strncmpFrom lhs rhs n 0

namespace Res

open SystemFileDevice (FileLoadContext)

variable {D F R σ : Type} [DecidableEq D] [DecidableEq F]

/-! ### `FileDeviceManager` -/

/-- A `FileDeviceBase` with the function that `TryLoadFile` calls. -/
structure FileDeviceBase (σ : Type) where
  deviceName : FixedString maxDrive
  loadFileImpl : FileLoadContext → σ → Except Fault (Result × FileLoadContext × σ)

/-- The links of `m_mounted_file_device_list`. -/
structure FileDeviceManager (D : Type) where
  links : Links (Unit ⊕ D)

namespace FileDeviceManager

def mountedFileDeviceList : Unit ⊕ D := .inl ()

def addFileDevice (m : FileDeviceManager D) : Option D → Except Fault (FileDeviceManager D)
  | none => .error .assertFailed
  | some fileDevice => .ok ⟨m.links.pushBack mountedFileDeviceList (.inr fileDevice)⟩

variable (devices : D → FileDeviceBase σ) (fuel : ℕ)

def getFileDeviceByName (m : FileDeviceManager D) (deviceName : Source) :
    Except Fault (Option D) :=
  rangeFor (fun _ => m.links) mountedFileDeviceList
    (fun node found =>
      match node with
      | .inl _ => .error .sentinelDereference
      | .inr device => do
        let cmpResult ← strncmp (devices device).deviceName.read deviceName maxDrive.val
        if cmpResult = 0 then .ok (.stop (some device)) else .ok (.next found))
    fuel none

/-- The path without the drive is computed, and the file is then loaded by the path it came
with. -/
def tryLoadFile (m : FileDeviceManager D) (fileContext : FileLoadContext) (s : σ) :
    Except Fault (Result × FileLoadContext × σ) := do
  let path := fileContext.filePath.map (Path.string false)
  let some drive ← PathUtil.getDriveFromPath (some (FixedString.zeroed maxDrive)) path
    | .error .nullDereference
  let device ← m.getFileDeviceByName devices fuel drive.read
  let _ ← PathUtil.getPathWithoutDrive (some (FixedString.zeroed maxPath)) path
  match device with
  | none => .error .nullDereference
  | some device => (devices device).loadFileImpl fileContext s

end FileDeviceManager

/-! ### `ResourceFactoryManager` -/

/-- A `ResourceBase` with its virtual function, which gets the size of the file as a `u32`. -/
structure ResourceBase (σ : Type) where
  initializeResource : BitVec 64 → BitVec 64 → BitVec 32 → σ → σ

/-- A `ResourceFactoryBase`. The size of a resource is in `allocateResource`. -/
structure ResourceFactoryBase (R σ : Type) where
  fileExtension : Option CString
  allocateResource : BitVec 64 → BitVec 32 → σ → Option R × σ
  getResourceAlignment : BitVec 32

structure ResourceLoadContext (D F : Type) where
  resourceFactory : Option F
  fileDevice : Option D
  fileLoadContext : FileLoadContext

/-- What the managers and the system consist of. -/
structure ResourceObjects (D F R σ : Type) where
  devices : D → FileDeviceBase σ
  factories : F → ResourceFactoryBase R σ
  resources : R → ResourceBase σ

/-- The "Load file" block of a factory. -/
def loadFile (objects : ResourceObjects D F R σ) (fuel : ℕ)
    (fileDeviceManager : FileDeviceManager D) (loadArg : ResourceLoadContext D F) (s : σ) :
    Except Fault (Result × FileLoadContext × σ) :=
  match loadArg.fileDevice with
  | none => fileDeviceManager.tryLoadFile objects.devices fuel loadArg.fileLoadContext s
  | some fileDevice => (objects.devices fileDevice).loadFileImpl loadArg.fileLoadContext s

/-- `TryLoad` of a factory. Nothing is written to `out_resource`. -/
def ResourceFactoryBase.tryLoad (objects : ResourceObjects D F R σ) (fuel : ℕ)
    (fileDeviceManager : FileDeviceManager D) (this : ResourceFactoryBase R σ)
    (loadArg : ResourceLoadContext D F) (s : σ) :
    Except Fault (Result × ResourceLoadContext D F × σ) :=
  match this.allocateResource loadArg.fileLoadContext.heap this.getResourceAlignment s with
  | (none, s) => .ok (resultResourceAllocationFailed, loadArg, s)
  | (some res, s) => do
    let (result, fileLoadContext, s) ← loadFile objects fuel fileDeviceManager loadArg s
    let loadArg := { loadArg with fileLoadContext := fileLoadContext }
    if result ≠ resultSuccess then .ok (result, loadArg, s)
    else
      let s := (objects.resources res).initializeResource fileLoadContext.heap
        fileLoadContext.outFile (fileLoadContext.fileSize.setWidth 32) s
      .ok (resultSuccess, loadArg, s)

/-- The links of `m_resource_factory_list`. Every call holds `m_list_cs`. -/
structure ResourceFactoryManager (F : Type) where
  links : Links (Unit ⊕ F)

namespace ResourceFactoryManager

def resourceFactoryList : Unit ⊕ F := .inl ()

variable (objects : ResourceObjects D F R σ) (fuel : ℕ)

def registerResourceFactory (m : ResourceFactoryManager F) (factory : F) :
    Except Fault (ResourceFactoryManager F) :=
  if (objects.factories factory).fileExtension.isSome then
    .ok ⟨m.links.pushBack resourceFactoryList (.inr factory)⟩
  else .error .assertFailed

def removeResourceFactory (m : ResourceFactoryManager F) (factory : F) :
    ResourceFactoryManager F :=
  ⟨m.links.unlink (.inr factory)⟩

def findResourceFactory (m : ResourceFactoryManager F) (fileExtension : CString) :
    Except Fault (Option F) :=
  rangeFor (fun _ => m.links) resourceFactoryList
    (fun node found =>
      match node with
      | .inl _ => .error .sentinelDereference
      | .inr rf =>
        match (objects.factories rf).fileExtension with
        | none => .error .nullDereference
        | some extension =>
          if strcmp extension fileExtension = 0 then .ok (.stop (some rf))
          else .ok (.next found))
    fuel none

/-- The "Find factory" block. -/
def findFactory (m : ResourceFactoryManager F) (loadArg : ResourceLoadContext D F) :
    Except Fault (Option F) :=
  match loadArg.resourceFactory with
  | some factory => .ok (some factory)
  | none => do
    let some extension ← PathUtil.getExtensionFromPath (some (FixedString.zeroed maxPath))
      (loadArg.fileLoadContext.filePath.map (Path.string false)) | .error .nullDereference
    m.findResourceFactory objects fuel extension.getString

def tryLoad (m : ResourceFactoryManager F) (fileDeviceManager : FileDeviceManager D)
    (loadArg : ResourceLoadContext D F) (s : σ) :
    Except Fault (ResourceLoadContext D F × σ) := do
  let some factory ← m.findFactory objects fuel loadArg | .error .nullDereference
  let (result, loadArg, s) ←
    (objects.factories factory).tryLoad objects fuel fileDeviceManager loadArg s
  if result = resultSuccess then .ok (loadArg, s) else .error (.abort result)

end ResourceFactoryManager

end Res

end DDFramework
