import DDFramework.Library.WordSteps
import DDFramework.Verification.SystemFileDevice.Formatting

/-! # The read requests of `LoadFileImpl`

The loop ends for every size and every step, with all of its requests for the offset that the
handle has from the start. The checks in front of it let only an empty file pass. -/

namespace DDFramework.SystemFileDevice

variable {σ : Type} {win32 : Win32 σ} {outReadBufferAddress outFileAddress : BitVec 64}
  {handle : FileHandle} {divSize : BitVec 32} {remaining : BitVec 64}

/-! ### The loop -/

theorem readLoop_remaining (fuel : ℕ) (s : σ) :
    readLoop win32 outReadBufferAddress outFileAddress handle divSize remaining fuel remaining s =
      .ok ([], remaining, s) := by
  cases fuel with
  | zero => rw [readLoop, if_pos rfl]
  | succ fuel => rw [readLoop, if_pos rfl]

variable (win32 outReadBufferAddress outFileAddress handle divSize) in
/-- The loop comes back if it may go round often enough, and with more rounds to spare it does
the same. -/
theorem readLoop_returns {k : ℕ} {offset : BitVec 64} (s : σ)
    (h : (offset.toNat + k * divSize.toNat) % 2 ^ 64 = remaining.toNat) :
    ∃ requests s', (∀ request ∈ requests, request.fileOffset = handle.fileOffset) ∧
      ∀ fuel, k ≤ fuel → readLoop win32 outReadBufferAddress outFileAddress handle divSize remaining
        fuel offset s = .ok (requests, remaining, s') := by
  induction k generalizing offset s with
  | zero =>
      have hoffset : offset = remaining := by
        refine BitVec.eq_of_toNat_eq ?_
        rw [← h, Nat.zero_mul, Nat.add_zero, Nat.mod_eq_of_lt offset.isLt]
      subst hoffset
      exact ⟨[], s, by simp, fun fuel _ => readLoop_remaining fuel s⟩
  | succ k ih =>
      by_cases hoffset : offset = remaining
      · subst hoffset
        exact ⟨[], s, by simp, fun fuel _ => readLoop_remaining fuel s⟩
      · have hnext : ((offset + divSize.setWidth 64).toNat + k * divSize.toNat) % 2 ^ 64 =
            remaining.toNat := by
          rw [BitVec.toNat_add, BitVec.toNat_setWidth_of_le (by decide), Nat.mod_add_mod, ← h,
            Nat.succ_mul, Nat.add_assoc, Nat.add_comm divSize.toNat]
        obtain ⟨requests, s', hrequests, hloop⟩ := ih (tryReadFile win32 outReadBufferAddress
          (outFileAddress + offset) handle divSize s).2 hnext
        refine ⟨(tryReadFile win32 outReadBufferAddress (outFileAddress + offset) handle divSize
          s).1 :: requests, s', List.forall_mem_cons.mpr ⟨rfl, hrequests⟩, fun fuel hfuel => ?_⟩
        cases fuel with
        | zero => omega
        | succ fuel =>
            rw [readLoop, if_neg hoffset]
            simp only [hloop fuel (Nat.le_of_succ_le_succ hfuel), ok_bind]

variable (win32 outReadBufferAddress outFileAddress handle divSize) in
/-- A step that is no power of two comes to the rounded size as well, after it has gone round
the words. -/
theorem readChunks_returns (fileSize : BitVec 64) (s : σ) :
    ∃ k requests s', (∀ fuel, k ≤ fuel → readChunks win32 outReadBufferAddress outFileAddress handle
        divSize fuel fileSize s = .ok (requests, s')) ∧
      ∀ request ∈ requests, request.fileOffset = handle.fileOffset := by
  obtain ⟨k, hk⟩ := exists_steps fileSize (divSize.setWidth 64)
  have hsteps : ((0 : BitVec 64).toNat + k * divSize.toNat) % 2 ^ 64 =
      (alignDown fileSize (divSize.setWidth 64)).toNat := by
    rw [BitVec.toNat_setWidth_of_le (by decide)] at hk
    exact (congrArg (· % 2 ^ 64) (Nat.zero_add _)).trans hk
  obtain ⟨requests, s₁, hrequests, hloop⟩ :=
    readLoop_returns win32 outReadBufferAddress outFileAddress handle divSize s hsteps
  let last := tryReadFile win32 outReadBufferAddress
    (outFileAddress + alignDown fileSize (divSize.setWidth 64)) handle
    ((fileSize - alignDown fileSize (divSize.setWidth 64)).setWidth 32) s₁
  refine ⟨k, requests ++ [last.1], last.2, fun fuel hfuel => ?_, ?_⟩
  · simp only [readChunks, hloop fuel hfuel, ok_bind, last]
  · intro request hm
    rcases List.mem_append.mp hm with hm | hm
    · exact hrequests request hm
    · rw [List.mem_singleton.mp hm]
      rfl

/-! ### The bytes that are read -/

/-- The positions in the file and the addresses to which their bytes go. -/
def ReadRequest.bytes (request : ReadRequest) : List (ℕ × BitVec 64) :=
  (List.range request.readSize.toNat).map fun i =>
    (request.fileOffset.toNat + i, request.outReadBuffer + BitVec.ofNat 64 i)

/-- The requests read the positions below the size in order, each to its place in the buffer. -/
def Covers (requests : List ReadRequest) (outFile : BitVec 64) (fileSize : ℕ) : Prop :=
  requests.flatMap ReadRequest.bytes =
    (List.range fileSize).map fun i => (i, outFile + BitVec.ofNat 64 i)

theorem covers_nothing_iff {requests : List ReadRequest} {outFile : BitVec 64} {fileSize : ℕ}
    (h : requests.flatMap ReadRequest.bytes = []) :
    Covers requests outFile fileSize ↔ fileSize = 0 := by
  rw [Covers, h, eq_comm, List.map_eq_nil_iff, List.range_eq_nil]

/-! ### The calls around the loop -/

variable (win32 handle) in
/-- Opening a file never fails to come back. -/
theorem openFileImpl_returns (device : FileDevice) (path : Option CString) (openMode : BitVec 32)
    (s : σ) : ∃ result opened s', openFileImpl win32 device (some handle) path openMode s =
      .ok (result, some opened, s') := by
  cases path with
  | none => exact ⟨_, _, _, rfl⟩
  | some path =>
      obtain ⟨formatResult, formattedPath, hformat⟩ : ∃ formatResult formattedPath,
          device.formatPath (FixedString.zeroed maxPath) (some path) =
            .ok (formatResult, formattedPath) := by
        obtain ⟨formattedPath, hformat, -⟩ :=
          device.formatPath_eq (FixedString.zeroed maxPath) (some path)
        exact ⟨_, formattedPath, hformat⟩
      rw [openFileImpl]
      simp only [hformat, ok_bind]
      split
      · exact ⟨_, _, _, rfl⟩
      · split
        · exact ⟨_, _, _, rfl⟩
        · split
          · exact ⟨_, _, _, rfl⟩
          · split
            · exact ⟨_, _, _, rfl⟩
            · exact ⟨_, _, _, rfl⟩

variable (win32 outReadBufferAddress outFileAddress handle divSize) in
/-- An empty file is read by one request for no bytes. -/
theorem readChunks_zero (fuel : ℕ) (s : σ) :
    ∃ request s', readChunks win32 outReadBufferAddress outFileAddress handle divSize fuel 0 s =
      .ok ([request], s') ∧ request.readSize = 0 := by
  have hremaining : alignDown 0 (divSize.setWidth 64) = 0 := BitVec.zero_and
  simp only [readChunks, hremaining, readLoop_remaining, ok_bind, List.nil_append]
  exact ⟨_, _, rfl, rfl⟩

/-- The buffer that the integrity checks let through is taken to have no room. -/
theorem handleFileBuffer_eq {context : FileLoadContext} (hfile : context.outFile ≠ 0)
    (hfileSize : context.fileSize = 0) (size : BitVec 64) (s : σ) :
    handleFileBuffer win32 context size s =
      (if size = 0 then resultSuccess else Res.resultInvalidFileBufferSize, context, s) := by
  have hle : size ≤ context.fileSize ↔ size = 0 := by
    rw [hfileSize]
    exact BitVec.le_zero_iff
  rw [handleFileBuffer, if_neg hfile]
  simp only [hle]
  split <;> rfl

variable (win32 outReadBufferAddress outFileAddress) in
/-- The checks let no file come to the loop that is not empty, so no byte is ever read. -/
theorem loadFileImpl_reads_nothing (device : FileDevice) (fuel : ℕ) (context : FileLoadContext)
    (s : σ) : ∃ outcome, loadFileImpl win32 device outReadBufferAddress outFileAddress fuel context
        s = .ok outcome ∧ outcome.requests.flatMap ReadRequest.bytes = [] := by
  obtain ⟨openResult, opened, s₁, hopen⟩ :=
    openFileImpl_returns win32 .empty device context.filePath openModeRead s
  rw [loadFileImpl]
  split
  · exact ⟨_, rfl, rfl⟩
  · rename_i hchecked
    obtain ⟨hfile, hfileSize⟩ := not_not.mp hchecked
    split
    · exact ⟨_, rfl, rfl⟩
    · simp only [hopen, ok_bind]
      split
      · exact ⟨_, rfl, rfl⟩
      · split
        · exact ⟨_, rfl, rfl⟩
        · simp only [handleFileBuffer_eq hfile hfileSize]
          generalize (getFileSizeImpl 0 (some opened)).2 = size
          by_cases hsize : size = 0
          · obtain ⟨request, s₂, hchunks, hrequest⟩ := readChunks_zero win32
              outReadBufferAddress outFileAddress opened context.readDiv fuel s₁
            simp only [hsize, Option.getD_some, hchunks, ok_bind]
            refine ⟨_, if_neg (by decide), ?_⟩
            simp [ReadRequest.bytes, hrequest]
          · simp only [if_neg hsize]
            exact ⟨_, if_pos (by decide), rfl⟩

/-- The loop ends for every size and every step, with requests for the offset of the handle only.
As the sizes are checked before it, a whole call reads nothing, and its requests cover the file
exactly if that is empty. -/
theorem loading_covers_iff (win32 : Win32 σ) (device : FileDevice)
    (outReadBufferAddress outFileAddress : BitVec 64) (context : FileLoadContext) :
    (∀ handle size s, ∃ k requests s', (∀ fuel, k ≤ fuel →
        readChunks win32 outReadBufferAddress outFileAddress handle context.readDiv fuel size s =
          .ok (requests, s')) ∧
      ∀ request ∈ requests, request.fileOffset = handle.fileOffset) ∧
    ∀ fuel s, ∃ outcome, loadFileImpl win32 device outReadBufferAddress outFileAddress fuel context
        s = .ok outcome ∧
      ∀ size, Covers outcome.requests context.outFile size ↔ size = 0 := by
  refine ⟨fun handle size s => readChunks_returns win32 outReadBufferAddress outFileAddress handle
    context.readDiv size s, fun fuel s => ?_⟩
  obtain ⟨outcome, hload, hbytes⟩ := loadFileImpl_reads_nothing win32 outReadBufferAddress
    outFileAddress device fuel context s
  exact ⟨outcome, hload, fun size => covers_nothing_iff hbytes⟩

/-- A system in which every call succeeds and every file has two bytes. -/
def twoByteFile : Win32 Unit where
  createFile _ _ := (1, ())
  getFileSizeEx _ _ := (1, some 2, ())
  setFilePointerEx _ _ _ := (1, ())
  readFile _ _ _ _ := (1, ())
  closeHandle _ _ := (1, ())
  getLastError _ := 0
  operatorNew _ _ _ _ := (0, ())

/-- A buffer at 4096 for `c:/a`, to be read in steps of one byte. -/
def byteContext : FileLoadContext where
  outFile := 4096
  heap := 0
  filePath := some PathUtil.driveText
  fileSize := 0
  readDiv := 1
  alignment := 0
  isHeapAllocated := false

/-- A file of two bytes is refused, and no byte of it is read. -/
theorem twoByteFile_refused :
    ∃ outcome, loadFileImpl twoByteFile .content 0 64 0 byteContext () = .ok outcome ∧
      byteContext.readDiv &&& 0x1f ≠ 0 ∧ outcome.result = Res.resultInvalidFileBufferSize ∧
      outcome.requests = [] ∧ ¬ Covers outcome.requests byteContext.outFile 2 :=
  ⟨_, rfl, by decide, rfl, rfl, by unfold Covers; decide⟩

end DDFramework.SystemFileDevice
