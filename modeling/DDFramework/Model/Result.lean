import Mathlib.Data.BitVec

/-! Result codes, and the ways in which a call can end without returning one. -/

namespace DDFramework

abbrev Result := BitVec 32

/-! ### `util_result.hpp` -/

def moduleBits : BitVec 32 := 9

def descriptionBits : BitVec 32 := 13

/-- The value that `DECLARE_RESULT` computes. -/
def declareResult (resultModule description : BitVec 32) : Result :=
  ((description &&& descriptionBits) <<< moduleBits.toNat) ||| (resultModule &&& moduleBits)

def resultSuccess : Result := 0

def getModule (result : Result) : BitVec 32 := result &&& moduleBits

def getDescription (result : Result) : BitVec 32 :=
  (result >>> moduleBits.toNat) &&& descriptionBits

/-- The two values that `DECLARE_RESULT_RANGE` computes. -/
def resultRangeStart (resultModule descriptionStart : BitVec 32) : Result :=
  declareResult resultModule descriptionStart

def resultRangeEnd (resultModule descriptionEnd : BitVec 32) : Result :=
  declareResult resultModule descriptionEnd

/-! ### `util_result_ukern.h` -/

def ukernResultModule : BitVec 32 := 1

def resultTimeout : Result := declareResult ukernResultModule 1

def resultInvalidHandle : Result := declareResult ukernResultModule 2

def resultWin32Error : Result := declareResult ukernResultModule 3

def resultThreadStorageExhaustion : Result := declareResult ukernResultModule 4

def resultHandleExhaustion : Result := declareResult ukernResultModule 5

def resultInvalidThreadFunctionPointer : Result := declareResult ukernResultModule 6

def resultInvalidStackSize : Result := declareResult ukernResultModule 7

def resultInvalidPriority : Result := declareResult ukernResultModule 8

def resultInvalidAddress : Result := declareResult ukernResultModule 9

def resultInvalidWaitAddressValue : Result := declareResult ukernResultModule 10

def resultInvalidLockAddressValue : Result := declareResult ukernResultModule 11

def resultRequiresLock : Result := declareResult ukernResultModule 12

def resultValueOutOfRange : Result := declareResult ukernResultModule 13

def resultSamePriority : Result := declareResult ukernResultModule 14

def resultSameActivityLevel : Result := declareResult ukernResultModule 15

def resultSameCoreMask : Result := declareResult ukernResultModule 16

def resultInvalidCoreId : Result := declareResult ukernResultModule 17

def resultInvalidArbitrationType : Result := declareResult ukernResultModule 18

def resultInvalidSignalType : Result := declareResult ukernResultModule 19

def resultNoWaiters : Result := declareResult ukernResultModule 20

/-- The error results in the order of their declarations. -/
def ukernErrorResults : List Result :=
  [resultTimeout, resultInvalidHandle, resultWin32Error, resultThreadStorageExhaustion,
    resultHandleExhaustion, resultInvalidThreadFunctionPointer, resultInvalidStackSize,
    resultInvalidPriority, resultInvalidAddress, resultInvalidWaitAddressValue,
    resultInvalidLockAddressValue, resultRequiresLock, resultValueOutOfRange, resultSamePriority,
    resultSameActivityLevel, resultSameCoreMask, resultInvalidCoreId, resultInvalidArbitrationType,
    resultInvalidSignalType, resultNoWaiters]

/-- Every code of the module carries the module number, so none is a success. -/
theorem declareResult_ukern_ne_success (description : BitVec 32) :
    declareResult ukernResultModule description ≠ resultSuccess := by
  intro h
  have hbit := congrArg (fun r : BitVec 32 => r.getLsbD 0) h
  simp [declareResult, ukernResultModule, resultSuccess, moduleBits] at hbit

/-! ### `util_result_res.h` -/

namespace Res

def resultModule : BitVec 32 := 6

def resultUnknownWin32Error : Result := declareResult resultModule 1

def resultFileNotFound : Result := declareResult resultModule 2

def resultPathNotFound : Result := declareResult resultModule 3

def resultPathTooLong : Result := declareResult resultModule 4

def resultFileSharingViolation : Result := declareResult resultModule 5

def resultFileLockViolation : Result := declareResult resultModule 6

def resultOpenFileExhaustion : Result := declareResult resultModule 7

def resultInvalidBufferSize : Result := declareResult resultModule 8

def resultInvalidReadDivAlignment : Result := declareResult resultModule 9

def resultInvalidFileBufferSize : Result := declareResult resultModule 10

def resultInvalidHandle : Result := declareResult resultModule 11

def resultInvalidNullPath : Result := declareResult resultModule 12

def resultInvalidOpenMode : Result := declareResult resultModule 13

def resultInvalidSize : Result := declareResult resultModule 14

def resultNullHandle : Result := declareResult resultModule 15

def resultNullOutBuffer : Result := declareResult resultModule 16

def resultNullPath : Result := declareResult resultModule 17

def resultFileSizeRetrievalFailed : Result := declareResult resultModule 18

def resultResourceAllocationFailed : Result := declareResult resultModule 19

def errorResults : List Result :=
  [resultUnknownWin32Error, resultFileNotFound, resultPathNotFound, resultPathTooLong,
    resultFileSharingViolation, resultFileLockViolation, resultOpenFileExhaustion,
    resultInvalidBufferSize, resultInvalidReadDivAlignment, resultInvalidFileBufferSize,
    resultInvalidHandle, resultInvalidNullPath, resultInvalidOpenMode, resultInvalidSize,
    resultNullHandle, resultNullOutBuffer, resultNullPath, resultFileSizeRetrievalFailed,
    resultResourceAllocationFailed]

end Res

/-- A computation that does not come back with a value. -/
inductive Fault where
  /-- A null pointer is dereferenced. -/
  | nullDereference
  /-- A field of a list head is accessed as if the head were an element. -/
  | sentinelDereference
  /-- An array is accessed outside its bounds. -/
  | outOfBounds
  /-- A `DD_ASSERT` fails. -/
  | assertFailed
  /-- `RESULT_ABORT_UNLESS` ends the process. -/
  | abort (result : Result)
  /-- A loop did not finish in the given number of iterations. -/
  | outOfFuel
  deriving DecidableEq, Repr

end DDFramework
