import DDFramework.Model.PathUtil

/-! The file devices of `res_systemfiledevice.win32.hpp`, with the data of
`res_filedevicebase.hpp`. The functions of the system are parameters, and what they write to the
memory is not seen here. -/

namespace DDFramework

/-! ### Paths -/

namespace CString

/-- What `%s` at the end of a format expands to. -/
def append (format argument : CString) : CString :=
  ⟨format.val ++ argument.val, fun h =>
    (List.mem_append.mp h).elim format.property argument.property⟩

end CString

/-- The C string that `GetString` points to. -/
def FixedString.getString {size : BufferSize} (s : FixedString size) : CString :=
  ⟨cString s.stringArray, zero_notMem_cString s.stringArray⟩

/-- `FormatPath` with the text of the format in front of `%s`. The local string has an
indeterminate `m_length`, which nothing reads, and `Format` is taken to get its C string. -/
def formatPathWith (formatPrefix : CString) (outFormattedPath : FixedString maxPath)
    (path : Option CString) : Except Fault (Result × FixedString maxPath) := do
  let some pathNoDrive ← PathUtil.getPathWithoutDrive (some (FixedString.zeroed maxPath))
    (path.map (Path.string false)) | .error .nullDereference
  let (length, outFormattedPath) ←
    outFormattedPath.format (formatPrefix.append pathNoDrive.getString)
  if length ≠ BitVec.ofNat 64 maxPath.val then .ok (resultSuccess, outFormattedPath)
  else .ok (Res.resultPathTooLong, outFormattedPath)

/-- `content/` -/
def contentPrefix : CString := ⟨[0x63, 0x6f, 0x6e, 0x74, 0x65, 0x6e, 0x74, 0x2f], by decide⟩

/-- `save/` -/
def savePrefix : CString := ⟨[0x73, 0x61, 0x76, 0x65, 0x2f], by decide⟩

def ContentFileDevice.formatPath : FixedString maxPath → Option CString →
    Except Fault (Result × FixedString maxPath) :=
  formatPathWith contentPrefix

def SaveFileDevice.formatPath : FixedString maxPath → Option CString →
    Except Fault (Result × FixedString maxPath) :=
  formatPathWith savePrefix

/-- The classes that are derived from `SystemFileDevice`. -/
inductive FileDevice where
  | content
  | save

/-- The virtual call. -/
def FileDevice.formatPath : FileDevice → FixedString maxPath → Option CString →
    Except Fault (Result × FixedString maxPath)
  | .content => ContentFileDevice.formatPath
  | .save => SaveFileDevice.formatPath

/-! ### Handles -/

/-- The functions outside of the file, over a state of theirs. A handle and an address are words,
and a `BOOL` is false when it is zero. -/
structure Win32 (σ : Type) where
  createFile : CString → σ → BitVec 64 × σ
  /-- The `BOOL` and what is written to the size, if anything is. -/
  getFileSizeEx : BitVec 64 → σ → BitVec 32 × Option (BitVec 64) × σ
  setFilePointerEx : BitVec 64 → BitVec 64 → σ → BitVec 32 × σ
  readFile : BitVec 64 → BitVec 64 → BitVec 32 → σ → BitVec 32 × σ
  closeHandle : BitVec 64 → σ → BitVec 32 × σ
  getLastError : σ → BitVec 32
  /-- `::operator new` with a size, a heap and an alignment. -/
  operatorNew : BitVec 64 → BitVec 64 → BitVec 32 → σ → BitVec 64 × σ

def invalidHandleValue : BitVec 64 := -1

def convertWin32ErrorToResult (lastError : BitVec 32) : Result :=
  if lastError = 2 then Res.resultFileNotFound
  else if lastError = 3 then Res.resultPathNotFound
  else if lastError = 32 then Res.resultFileSharingViolation
  else if lastError = 33 then Res.resultFileLockViolation
  else if lastError = 4 then Res.resultOpenFileExhaustion
  else Res.resultUnknownWin32Error

def openModeRead : BitVec 32 := 0x80000000

def openModeReadWriteAppend : BitVec 32 := 0x80000000 ||| 0x40000000 ||| 0x1

/-- The mode is left out, since nothing reads or writes it. -/
structure FileHandle where
  win32Handle : BitVec 64
  fileOffset : BitVec 64
  fileSize : BitVec 64

namespace FileHandle

/-- `FileHandle handle = {}`. -/
def empty : FileHandle := ⟨0, 0, 0⟩

/-- The integrity checks of the functions that get an open handle. -/
def check : Option FileHandle → Except Result FileHandle
  | none => .error Res.resultNullHandle
  | some handle =>
    if handle.win32Handle ≠ 0 ∧ handle.win32Handle ≠ invalidHandleValue then .ok handle
    else .error Res.resultInvalidHandle

end FileHandle

namespace SystemFileDevice

variable {σ : Type} (win32 : Win32 σ)

/-- The file is opened by the path that was given, not by the formatted one. -/
def openFileImpl (device : FileDevice) (outFileHandle : Option FileHandle) (path : Option CString)
    (openMode : BitVec 32) (s : σ) : Except Fault (Result × Option FileHandle × σ) :=
  match outFileHandle, path with
  | none, _ => .ok (Res.resultNullHandle, none, s)
  | some handle, none => .ok (Res.resultNullPath, some handle, s)
  | some handle, some path =>
    if openMode &&& openModeReadWriteAppend = 0 then
      .ok (Res.resultInvalidOpenMode, some handle, s)
    else do
      let (formatResult, _) ← device.formatPath (FixedString.zeroed maxPath) (some path)
      if formatResult ≠ resultSuccess then .ok (formatResult, some handle, s)
      else
        let (win32Handle, s) := win32.createFile path s
        let handle := { handle with win32Handle := win32Handle }
        if win32Handle = invalidHandleValue then
          .ok (convertWin32ErrorToResult (win32.getLastError s), some handle, s)
        else
          let (retrieved, fileSize, s) := win32.getFileSizeEx win32Handle s
          let handle := { handle with fileSize := fileSize.getD handle.fileSize }
          if retrieved = 1 then .ok (Res.resultFileSizeRetrievalFailed, some handle, s)
          else .ok (resultSuccess, some handle, s)

def closeFileImpl (fileHandle : Option FileHandle) (s : σ) : Result × Option FileHandle × σ :=
  match FileHandle.check fileHandle with
  | .error result => (result, fileHandle, s)
  | .ok handle =>
    let (closed, s) := win32.closeHandle handle.win32Handle s
    if closed = 0 then (convertWin32ErrorToResult (win32.getLastError s), some handle, s)
    else (resultSuccess, some .empty, s)

/-- `::ReadFile` gets the address of the parameter `out_read_buffer`, not its value. The `Bool`
is whether it is called. -/
def readFileImpl (outReadBufferAddress : BitVec 64) (fileHandle : Option FileHandle)
    (readSize : BitVec 32) (s : σ) : Result × Bool × σ :=
  match FileHandle.check fileHandle with
  | .error result => (result, false, s)
  | .ok handle =>
    let (set, s) := win32.setFilePointerEx handle.win32Handle handle.fileOffset s
    if set ≠ 0 then (convertWin32ErrorToResult (win32.getLastError s), false, s)
    else
      let (read, s) := win32.readFile handle.win32Handle outReadBufferAddress readSize s
      if read = 0 then (convertWin32ErrorToResult (win32.getLastError s), true, s)
      else (resultSuccess, true, s)

def getFileSizeImpl (outSize : BitVec 64) (fileHandle : Option FileHandle) :
    Result × BitVec 64 :=
  match FileHandle.check fileHandle with
  | .error result => (result, outSize)
  | .ok handle => (resultSuccess, handle.fileSize)

/-! ### `LoadFileImpl` -/

structure FileLoadContext where
  outFile : BitVec 64
  heap : BitVec 64
  filePath : Option CString
  fileSize : BitVec 64
  readDiv : BitVec 32
  alignment : BitVec 32
  isHeapAllocated : Bool

/-- `AlignDown` for an integer. -/
def alignDown (value align : BitVec 64) : BitVec 64 :=
  let alignment := align - 1
  value &&& ~~~alignment

/-- A call of `TryReadFile` for an open handle, with the offset of the handle at the call and
whether the call comes to `::ReadFile`. -/
structure ReadRequest where
  outReadBuffer : BitVec 64
  fileOffset : BitVec 64
  readSize : BitVec 32
  issued : Bool

def tryReadFile (outReadBufferAddress outReadBuffer : BitVec 64) (handle : FileHandle)
    (readSize : BitVec 32) (s : σ) : ReadRequest × σ :=
  let (_, issued, s) := readFileImpl win32 outReadBufferAddress (some handle) readSize s
  (⟨outReadBuffer, handle.fileOffset, readSize, issued⟩, s)

section

variable (outReadBufferAddress outFileAddress : BitVec 64) (handle : FileHandle)
  (divSize : BitVec 32)

/-- `while (offset != remaining)`. The requests start at `std::addressof(out_file)`, the address
of the field, and the results of the calls are dropped. -/
def readLoop (remaining : BitVec 64) :
    ℕ → BitVec 64 → σ → Except Fault (List ReadRequest × BitVec 64 × σ)
  | 0, offset, s => if offset = remaining then .ok ([], offset, s) else .error .outOfFuel
  | fuel + 1, offset, s =>
    if offset = remaining then .ok ([], offset, s)
    else do
      let (request, s) := tryReadFile win32 outReadBufferAddress (outFileAddress + offset) handle
        divSize s
      let (requests, offset, s) ← readLoop remaining fuel (offset + divSize.setWidth 64) s
      .ok (request :: requests, offset, s)

/-- The read loop and the request after it. -/
def readChunks (fuel : ℕ) (fileSize : BitVec 64) (s : σ) :
    Except Fault (List ReadRequest × σ) := do
  let remaining := alignDown fileSize (divSize.setWidth 64)
  let (requests, offset, s) ←
    readLoop win32 outReadBufferAddress outFileAddress handle divSize remaining fuel 0 s
  let (request, s) := tryReadFile win32 outReadBufferAddress (outFileAddress + offset) handle
    ((fileSize - remaining).setWidth 32) s
  .ok (requests ++ [request], s)

end

structure LoadOutcome (σ : Type) where
  result : Result
  context : FileLoadContext
  requests : List ReadRequest
  system : σ

/-- "Handle file buffer". -/
def handleFileBuffer (context : FileLoadContext) (fileSize : BitVec 64) (s : σ) :
    Result × FileLoadContext × σ :=
  if context.outFile = 0 then
    let (outFile, s) := win32.operatorNew fileSize context.heap context.alignment s
    (resultSuccess,
      { context with outFile := outFile, fileSize := fileSize, isHeapAllocated := true }, s)
  else if fileSize ≤ context.fileSize then (resultSuccess, context, s)
  else (Res.resultInvalidFileBufferSize, context, s)

def loadFileImpl (device : FileDevice) (outReadBufferAddress outFileAddress : BitVec 64)
    (fuel : ℕ) (context : FileLoadContext) (s : σ) : Except Fault (LoadOutcome σ) :=
  if ¬ (context.outFile ≠ 0 ∧ context.fileSize = 0) then
    .ok ⟨Res.resultInvalidFileBufferSize, context, [], s⟩
  else if ¬ (context.readDiv &&& 0x1f ≠ 0) then
    .ok ⟨Res.resultInvalidReadDivAlignment, context, [], s⟩
  else do
    let (openResult, handle, s) ←
      openFileImpl win32 device (some .empty) context.filePath openModeRead s
    if openResult ≠ resultSuccess then .ok ⟨openResult, context, [], s⟩
    else
      let (sizeResult, fileSize) := getFileSizeImpl 0 handle
      if sizeResult ≠ resultSuccess then .ok ⟨sizeResult, context, [], s⟩
      else
        let (bufferResult, context, s) := handleFileBuffer win32 context fileSize s
        if bufferResult ≠ resultSuccess then .ok ⟨bufferResult, context, [], s⟩
        else
          -- The handle is a local variable, so there is one.
          let handle := handle.getD .empty
          let (requests, s) ← readChunks win32 outReadBufferAddress outFileAddress handle
            context.readDiv fuel fileSize s
          let (closeResult, _, s) := closeFileImpl win32 (some handle) s
          .ok ⟨closeResult, context, requests, s⟩

end SystemFileDevice

end DDFramework
