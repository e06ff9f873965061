import DDFramework.Model.FixedString

/-! The parts of a path, from `util_pathutil.hpp`. Each function has an overload for a
`const char *` and one for a `FixedString`, which differ in where they find the characters and
their number. -/

namespace DDFramework

def maxPath : BufferSize := ⟨256, by decide⟩

def maxDrive : BufferSize := ⟨32, by decide⟩

/-- The argument of an overload. -/
inductive Path where
  | string (isConstantEvaluated : Bool) (text : CString)
  | fixedString (path : FixedString maxPath)

namespace Path

def read : Path → Source
  | .string _ text => text.read
  | .fixedString path => path.read

/-- `path_len`, which is a `u32` also where `strlen` returns a `size_t`. -/
def pathLen : Path → Except Fault (BitVec 32)
  | .string isConstantEvaluated text =>
    if isConstantEvaluated then do
      let length ← tStringLength text.read (maxPath.val + 1)
      .ok (BitVec.ofNat 32 length)
    else .ok (BitVec.ofNat 32 text.val.length)
  | .fixedString path => .ok path.length

end Path

namespace PathUtil

def colon : CChar := 0x3a

def backSlash : CChar := 0x5c

def forwardSlash : CChar := 0x2f

def dot : CChar := 0x2e

/-! ### Delimiters -/

/-- `do { if (path[offset] == c) { break; } --offset; } while (offset != 0);`, which no caller
starts at the offset 0. -/
def scanBack (c : CChar) (path : Source) : ℕ → Except Fault ℕ
  | 0 => .ok 0
  | offset + 1 => do
    let x ← path (offset + 1)
    if x = c then .ok (offset + 1) else scanBack c path offset

def findDriveDelimiter (path : Source) (pathLen : BitVec 32) : Except Fault (BitVec 32) := do
  let driveOffset ← scanBack colon path pathLen.toNat
  .ok (BitVec.ofNat 32 driveOffset)

def findDirectoryDelimiter (path : Source) (pathLen : BitVec 32) : Except Fault (BitVec 32) := do
  let backSlashOffset ← scanBack backSlash path pathLen.toNat
  let forwardSlashOffset ← scanBack forwardSlash path pathLen.toNat
  .ok (BitVec.ofNat 32
    (if forwardSlashOffset < backSlashOffset then backSlashOffset else forwardSlashOffset))

/-- The character that is looked for is `/`, although the comment in the source says `.`. -/
def findExtensionDelimiter (path : Source) (pathLen : BitVec 32) : Except Fault (BitVec 32) := do
  let dotOffset ← scanBack forwardSlash path pathLen.toNat
  .ok (BitVec.ofNat 32 dotOffset)

/-! ### Copies -/

variable {size : BufferSize}

/-- `memcpy` to the start of the array, at the index `i`. -/
def memcpyFrom (path : Source) (offset : ℕ) :
    ℕ → ℕ → FixedString size → Except Fault (FixedString size)
  | 0, _, out => .ok out
  | n + 1, i, out => do
    let c ← path (offset + i)
    let out ← out.write i c
    memcpyFrom path offset n (i + 1) out

/-- The end of every function. The copy is clamped, the recorded length is not. -/
def copyPart (out : FixedString size) (path : Source) (offset nameSize : BitVec 32) :
    Except Fault (FixedString size) := do
  let count := if nameSize.toNat < size.val then nameSize.toNat else size.val - 1
  let out ← memcpyFrom path offset.toNat count 0 out
  .ok (out.setLength nameSize).assureTermination

/-- The start of every function: the null checks and the length check. -/
def withPath (out : Option (FixedString size)) (path : Option Path)
    (body : FixedString size → Source → BitVec 32 → Except Fault (FixedString size)) :
    Except Fault (Option (FixedString size)) :=
  match out, path with
  | some out, some path => do
    let pathLen ← path.pathLen
    if pathLen = 0 then .ok (some out)
    else do
      let out ← body out path.read pathLen
      .ok (some out)
  | out, _ => .ok out

/-! ### The functions -/

def driveFromPath (out : FixedString maxDrive) (path : Source) (pathLen : BitVec 32) :
    Except Fault (FixedString maxDrive) := do
  let driveStartOffset ← findDriveDelimiter path pathLen
  let nameSize := driveStartOffset
  copyPart out path 0 nameSize

def pathWithoutDrive (out : FixedString maxPath) (path : Source) (pathLen : BitVec 32) :
    Except Fault (FixedString maxPath) := do
  let driveStartOffset ← findDriveDelimiter path pathLen
  let nameSize := pathLen - driveStartOffset
  copyPart out path driveStartOffset nameSize

def directory (out : FixedString maxPath) (path : Source) (pathLen : BitVec 32) :
    Except Fault (FixedString maxPath) := do
  let nameStartOffset ← findDirectoryDelimiter path pathLen
  let nameSize := nameStartOffset
  copyPart out path 0 nameSize

def directoryWithoutDrive (out : FixedString maxPath) (path : Source) (pathLen : BitVec 32) :
    Except Fault (FixedString maxPath) := do
  let dirStartOffset ← findDriveDelimiter path pathLen
  let nameStartOffset ← findDirectoryDelimiter path pathLen
  let nameSize := nameStartOffset - dirStartOffset - nameStartOffset
  copyPart out path dirStartOffset nameSize

def fileNameFromPath (out : FixedString maxPath) (path : Source) (pathLen : BitVec 32) :
    Except Fault (FixedString maxPath) := do
  let nameStartOffset ← findDirectoryDelimiter path pathLen
  let nameSize := pathLen - nameStartOffset
  copyPart out path nameStartOffset nameSize

def fileNameFromPathNoExtension (out : FixedString maxPath) (path : Source)
    (pathLen : BitVec 32) : Except Fault (FixedString maxPath) := do
  let extStartOffset ← findExtensionDelimiter path pathLen
  let nameStartOffset ← findDirectoryDelimiter path pathLen
  let nameSize := pathLen - nameStartOffset - extStartOffset
  copyPart out path nameStartOffset nameSize

def extensionFromPath (out : FixedString maxPath) (path : Source) (pathLen : BitVec 32) :
    Except Fault (FixedString maxPath) := do
  let nameStartOffset ← findDirectoryDelimiter path pathLen
  let nameSize := nameStartOffset
  copyPart out path 0 nameSize

def getDriveFromPath (outDrive : Option (FixedString maxDrive)) (pathWithDrive : Option Path) :
    Except Fault (Option (FixedString maxDrive)) :=
  withPath outDrive pathWithDrive driveFromPath

def getPathWithoutDrive (outPath : Option (FixedString maxPath)) (pathWithDrive : Option Path) :
    Except Fault (Option (FixedString maxPath)) :=
  withPath outPath pathWithDrive pathWithoutDrive

def getDirectory (outDirectory : Option (FixedString maxPath)) (path : Option Path) :
    Except Fault (Option (FixedString maxPath)) :=
  withPath outDirectory path directory

def getDirectoryWithoutDrive (outDirectory : Option (FixedString maxPath))
    (pathWithDrive : Option Path) : Except Fault (Option (FixedString maxPath)) :=
  withPath outDirectory pathWithDrive directoryWithoutDrive

def getFileNameFromPath (outFileName : Option (FixedString maxPath)) (path : Option Path) :
    Except Fault (Option (FixedString maxPath)) :=
  withPath outFileName path fileNameFromPath

def getFileNameFromPathNoExtension (outFileName : Option (FixedString maxPath))
    (pathWithExtension : Option Path) : Except Fault (Option (FixedString maxPath)) :=
  withPath outFileName pathWithExtension fileNameFromPathNoExtension

def getExtensionFromPath (outExtension : Option (FixedString maxPath)) (path : Option Path) :
    Except Fault (Option (FixedString maxPath)) :=
  withPath outExtension path extensionFromPath

/-! ### Replacing the delimiters -/

/-- `while (start_offset != 0)`, whose offset is a `u32`. Each round makes it smaller, so it stops
at zero before it could wrap. -/
def changeDelimitersFrom (newDelimiter : CChar) (startOffset : BitVec 32)
    (path : FixedString maxPath) : Except Fault (FixedString maxPath) :=
  if startOffset = 0 then .ok path
  else do
    let c ← path.read startOffset.toNat
    let path ←
      if c = forwardSlash ∨ c = backSlash then path.write startOffset.toNat newDelimiter
      else .ok path
    changeDelimitersFrom newDelimiter (startOffset - 1) path
termination_by startOffset.toNat
decreasing_by bv_omega

def changeDirectoryDelimiter (inOutPath : Option (FixedString maxPath)) (newDelimiter : CChar) :
    Except Fault (Option (FixedString maxPath)) :=
  match inOutPath with
  | none => .ok none
  | some path => do
    let pathLen := path.length
    if pathLen = 0 then .ok (some path)
    else do
      let startOffset ← findDirectoryDelimiter path.read pathLen
      let path ← changeDelimitersFrom newDelimiter startOffset path
      .ok (some path)

end PathUtil

end DDFramework
