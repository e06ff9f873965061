import DDFramework.Verification.ResourceManager.Lookups

/-! # Loading a resource

What a successful load does, in terms of the calls that the managers have seen. -/

namespace DDFramework.Res

open Registry PathUtil FixedString
open SystemFileDevice (FileLoadContext)

variable {D F R σ : Type} [DecidableEq D] [DecidableEq F]

/-! ### The parts of the path that decide -/

/-- What a function of the paths finds in front of a delimiter. A length is a `u32`. -/
def partBefore (P : CChar → Prop) [DecidablePred P] (size : BufferSize) :
    Option CString → List CChar
  | none => []
  | some path =>
    (path.val.take (lastIndex P path.val (path.val.length % 2 ^ 32))).take (size.val - 1)

/-- The name of the device. -/
def driveOf : Option CString → List CChar := partBefore (· = colon) maxDrive

/-- What is compared with the extensions of the factories, the directory of the file. -/
def extensionOf : Option CString → List CChar := partBefore IsSeparator maxPath

theorem call_part {P : CChar → Prop} [DecidablePred P] (hP : ¬ P 0) (g : Getter)
    (hstart : ∀ chars n, g.start chars n = 0)
    (hstop : ∀ chars n, g.stop chars n = lastIndex P chars n) (path : Option CString) :
    ∃ out, g.call (some (zeroed g.outSize)) (path.map (Path.string false)) = .ok (some out) ∧
      out.text = partBefore P g.outSize path := by
  cases path with
  | none =>
      refine ⟨zeroed g.outSize, ?_, zeroed_text⟩
      cases g <;> rfl
  | some path =>
      have htext : (Path.string false path).HasText path.val := rfl
      obtain ⟨out, hcall, hout, -⟩ := g.call_zeroed htext (by rw [hstart]; exact Nat.zero_le _)
      rw [hstart, hstop, htext.lastIndex_eq hP, span, List.drop_zero] at hout
      exact ⟨out, hcall, hout⟩

/-! ### `TryLoadFile` -/

/-- The device that a load without a device of its own goes to. -/
def DeviceFor (devices : D → FileDeviceBase σ) (added : List D) (path : Option CString) :
    D → Prop :=
  Earliest (added.map Registry.Call.add) fun d => (devices d).deviceName.text = driveOf path

theorem FileDeviceManager.tryLoadFile_eq_ok_iff {devices : D → FileDeviceBase σ}
    {m : FileDeviceManager D} {added : List D}
    (h : Machine.run FileDeviceManager.next ⟨Links.detached (Unit ⊕ D)⟩ added = some m)
    {fuel : ℕ} (hfuel : added.length < fuel) {context : FileLoadContext} {s : σ}
    {r : Result × FileLoadContext × σ} :
    m.tryLoadFile devices fuel context s = .ok r ↔
      ∃ device, DeviceFor devices added context.filePath device ∧
        (devices device).loadFileImpl context s = .ok r := by
  obtain ⟨drive, hdrive, htext⟩ := call_part colon_ne_zero .drive (fun _ _ => rfl)
    (fun _ _ => rfl) context.filePath
  have hrest : ∃ rest, getPathWithoutDrive (some (zeroed maxPath))
      (context.filePath.map (Path.string false)) = .ok (some rest) := by
    cases context.filePath with
    | none => exact ⟨_, rfl⟩
    | some path =>
        have hpath : (Path.string false path).HasText path.val := rfl
        obtain ⟨rest, hrest, -⟩ := Getter.pathWithoutDrive.call_zeroed hpath lastIndex_le
        exact ⟨rest, hrest⟩
  obtain ⟨rest, hrest⟩ := hrest
  obtain ⟨found, hfound, hdevice⟩ :=
    FileDeviceManager.getFileDeviceByName_runs devices h hfuel drive
  have hcall : getDriveFromPath (some (zeroed maxDrive))
      (context.filePath.map (Path.string false)) = .ok (some drive) := hdrive
  simp only [tryLoadFile, hcall, hrest, hfound, ok_bind]
  rw [htext] at hdevice
  cases found with
  | none => simpa [DeviceFor, driveOf] using fun device hearliest =>
      absurd ((hdevice device).mpr hearliest) (by simp)
  | some device =>
      constructor
      · intro hload
        exact ⟨device, (hdevice device).mp rfl, hload⟩
      · rintro ⟨other, hother, hload⟩
        cases (hdevice other).mpr hother
        exact hload

/-! ### `TryLoad` -/

/-- The factory that a load without a factory of its own goes to. -/
def FactoryFor (objects : ResourceObjects D F R σ) (registered : List (Registry.Call F))
    (path : Option CString) : F → Prop :=
  Earliest registered fun f =>
    (objects.factories f).fileExtension.map Subtype.val = some (extensionOf path)

/-- What a factory does with its resource and the device. -/
def Performs (objects : ResourceObjects D F R σ) (this : ResourceFactoryBase R σ)
    (before after : ResourceLoadContext D F × σ) (res : R) (device : D) : Prop :=
  ∃ s context s',
    this.allocateResource before.1.fileLoadContext.heap this.getResourceAlignment before.2 =
      (some res, s) ∧
    (objects.devices device).loadFileImpl before.1.fileLoadContext s =
      .ok (resultSuccess, context, s') ∧
    after = ({ before.1 with fileLoadContext := context },
      (objects.resources res).initializeResource context.heap context.outFile
        (context.fileSize.setWidth 32) s')

/-- The device of a load, named or found. -/
def UsesDevice (objects : ResourceObjects D F R σ) (added : List D)
    (context : ResourceLoadContext D F) (device : D) : Prop :=
  context.fileDevice = some device ∨ context.fileDevice = none ∧
    DeviceFor objects.devices added context.fileLoadContext.filePath device

/-- The factory of a load, named or found. -/
def UsesFactory (objects : ResourceObjects D F R σ) (registered : List (Registry.Call F))
    (context : ResourceLoadContext D F) (factory : F) : Prop :=
  context.resourceFactory = some factory ∨ context.resourceFactory = none ∧
    FactoryFor objects registered context.fileLoadContext.filePath factory

section

variable {objects : ResourceObjects D F R σ} {dm : FileDeviceManager D} {added : List D}
  {fuel : ℕ} {context : ResourceLoadContext D F} {s : σ} {after : ResourceLoadContext D F × σ}

omit [DecidableEq F] in
theorem loadFile_eq_ok_iff
    (h : Machine.run FileDeviceManager.next ⟨Links.detached (Unit ⊕ D)⟩ added = some dm)
    (hfuel : added.length < fuel) {r : Result × FileLoadContext × σ} :
    loadFile objects fuel dm context s = .ok r ↔ ∃ device, UsesDevice objects added context device ∧
      (objects.devices device).loadFileImpl context.fileLoadContext s = .ok r := by
  cases hdevice : context.fileDevice with
  | none =>
      simp only [loadFile, hdevice, FileDeviceManager.tryLoadFile_eq_ok_iff h hfuel]
      simp [UsesDevice, hdevice]
  | some device => simp [loadFile, UsesDevice, hdevice]

omit [DecidableEq F] in
theorem ResourceFactoryBase.tryLoad_eq_success_iff {this : ResourceFactoryBase R σ}
    (h : Machine.run FileDeviceManager.next ⟨Links.detached (Unit ⊕ D)⟩ added = some dm)
    (hfuel : added.length < fuel) :
    this.tryLoad objects fuel dm context s = .ok (resultSuccess, after) ↔
      ∃ res device, UsesDevice objects added context device ∧
        Performs objects this (context, s) after res device := by
  cases halloc : this.allocateResource context.fileLoadContext.heap this.getResourceAlignment s with
  | mk allocated s₁ =>
      simp only [Performs, halloc, Prod.mk.injEq]
      cases allocated with
      | none =>
          have hfailed : resultResourceAllocationFailed ≠ resultSuccess := by decide
          simp [tryLoad, halloc, hfailed]
      | some res =>
          simp only [tryLoad, halloc, bind_eq_ok_iff, loadFile_eq_ok_iff h hfuel]
          constructor
          · rintro ⟨⟨result, loaded, s₂⟩, ⟨device, huses, hload⟩, hend⟩
            dsimp only at hend
            split at hend
            next hne =>
              cases hend
              exact absurd rfl hne
            next heq =>
              cases not_not.mp heq
              cases hend
              exact ⟨res, device, huses, s₁, loaded, s₂, ⟨rfl, rfl⟩, hload, rfl⟩
          · rintro ⟨_, device, huses, _, loaded, s₂, ⟨⟨⟩, rfl⟩, hload, rfl⟩
            exact ⟨_, ⟨device, huses, hload⟩, if_neg (not_not_intro rfl)⟩

namespace ResourceFactoryManager

variable {fm : ResourceFactoryManager F} {registered : List (Registry.Call F)}

omit [DecidableEq D] in
theorem findFactory_eq (context : ResourceLoadContext D F)
    (h : Machine.run (next objects) ⟨Links.detached (Unit ⊕ F)⟩ registered = some fm)
    (hfuel : registered.length < fuel) :
    ∃ found, fm.findFactory objects fuel context = .ok found ∧
      ∀ factory, found = some factory ↔ UsesFactory objects registered context factory := by
  cases hfactory : context.resourceFactory with
  | some factory =>
      exact ⟨some factory, by rw [findFactory, hfactory], by simp [UsesFactory, hfactory]⟩
  | none =>
      obtain ⟨extension, hextension, htext⟩ := call_part not_isSeparator_zero .extension
        (fun _ _ => rfl) (fun _ _ => rfl) context.fileLoadContext.filePath
      obtain ⟨found, hfound, hearliest, -⟩ := findResourceFactory_runs h hfuel extension.getString
      have hcall : getExtensionFromPath (some (zeroed maxPath))
          (context.fileLoadContext.filePath.map (Path.string false)) = .ok (some extension) :=
        hextension
      refine ⟨found, by simp only [findFactory, hfactory, hcall, ok_bind, hfound], ?_⟩
      intro factory
      have hname : ∀ name : Option CString, name = some extension.getString ↔
          name.map Subtype.val = some (extensionOf context.fileLoadContext.filePath) := by
        intro name
        have hval : extension.getString.val =
            extensionOf context.fileLoadContext.filePath := htext
        cases name with
        | none => simp
        | some name => simp [Subtype.ext_iff, hval]
      simp only [hearliest, UsesFactory, hfactory, FactoryFor, hname, reduceCtorEq, false_or,
        true_and]

/-- After any calls to the managers, a load returns exactly if its factory can be named or found,
the factory gets memory for the resource, and the device that is named or found loads the file;
the resource is then initialized with what the device left. -/
theorem tryLoad_eq_ok_iff
    (hfactories : Machine.run (next objects) ⟨Links.detached (Unit ⊕ F)⟩ registered = some fm)
    (hdevices : Machine.run FileDeviceManager.next ⟨Links.detached (Unit ⊕ D)⟩ added = some dm)
    (hregistered : registered.length < fuel) (hadded : added.length < fuel) :
    fm.tryLoad objects fuel dm context s = .ok after ↔
      ∃ factory res device, UsesFactory objects registered context factory ∧
        UsesDevice objects added context device ∧
        Performs objects (objects.factories factory) (context, s) after res device := by
  obtain ⟨found, hfound, hfactory⟩ :=
    findFactory_eq context hfactories hregistered
  simp only [tryLoad, hfound, ok_bind, ← hfactory]
  cases found with
  | none => simp
  | some factory =>
      simp only [Option.some.injEq, exists_and_left, exists_eq_left',
        ← ResourceFactoryBase.tryLoad_eq_success_iff hdevices hadded, bind_eq_ok_iff]
      constructor
      · rintro ⟨⟨result, loaded, s₂⟩, hcall, hend⟩
        dsimp only at hend
        split at hend
        next heq =>
          cases hend
          rwa [heq] at hcall
        next => cases hend
      · intro hcall
        exact ⟨_, hcall, if_pos rfl⟩

end ResourceFactoryManager

end

/-! ### A load that finds its way -/

/-- The path `a/b`. -/
def nestedFile : ResourceLoadContext Unit Bool :=
  ⟨none, none, ⟨0, 0, some ⟨[0x61, forwardSlash, 0x62], by decide⟩, 0, 1, 4, false⟩⟩

def loadedFile : ResourceLoadContext Unit Bool :=
  { nestedFile with fileLoadContext := { nestedFile.fileLoadContext with fileSize := 7 } }

theorem ResourceFactoryManager.tryLoad_eq_ok_iff_nestedFile :
    ∃ factory res device, UsesFactory sameExtension [.add true, .add false] nestedFile factory ∧
      UsesDevice sameExtension [()] nestedFile device ∧
      Performs sameExtension (sameExtension.factories factory) (nestedFile, [])
        (loadedFile, [7]) res device := by
  have hfactories : ∃ fm, Machine.run (next sameExtension) ⟨Links.detached (Unit ⊕ Bool)⟩
      [.add true, .add false] = some fm := ⟨_, rfl⟩
  have hdevices : ∃ dm, Machine.run FileDeviceManager.next ⟨Links.detached (Unit ⊕ Unit)⟩
      [()] = some dm := ⟨_, rfl⟩
  obtain ⟨fm, hfm⟩ := hfactories
  obtain ⟨dm, hdm⟩ := hdevices
  have hcall : fm.tryLoad sameExtension 3 dm nestedFile [] = .ok (loadedFile, [7]) := by
    cases hfm
    cases hdm
    rfl
  exact (tryLoad_eq_ok_iff hfm hdm (by decide) (by decide)).mp hcall

end DDFramework.Res
