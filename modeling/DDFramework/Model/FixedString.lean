import DDFramework.Library.CString
import DDFramework.Model.Result

/-! The strings in fixed buffers of `util_bufferstring.hpp`, with the helpers of
`util_tstring.hpp` and the functions of the C library that they call. Every access to a
character is checked against the bounds of its array. -/

namespace DDFramework

/-- A `char`. -/
abbrev CChar := BitVec 8

/-- The characters of a C string without the zero that ends it. -/
abbrev CString := { text : List CChar // 0 ∉ text }

/-- What `string[i]` reads. -/
abbrev Source := ℕ → Except Fault CChar

def CString.read (string : CString) : Source := fun i =>
  if i = string.val.length then .ok 0
  else match string.val[i]? with
    | some c => .ok c
    | none => .error .outOfBounds

/-- The argument of the template, which `requires (Size < 0xffff)`. -/
abbrev BufferSize := { size : ℕ // 0 < size ∧ size < 0xffff }

structure FixedString (size : BufferSize) where
  stringArray : List CChar
  length : BitVec 32
  stringArray_length : stringArray.length = size.val

/-! ### Lengths of strings -/

/-- The loop of `strnlen` at the index `len`. -/
def strnlenFrom (string : Source) : ℕ → ℕ → Except Fault ℕ
  | 0, len => .ok len
  | n + 1, len => do
    let c ← string len
    if c ≠ 0 then strnlenFrom string n (len + 1) else .ok len

def strnlen (string : Source) (maxLength : ℕ) : Except Fault ℕ := strnlenFrom string maxLength 0

/-- The loop of `TStringLength` at the index `len`. Both operands of `&` are evaluated, so the
character at `max_size` is read as well. -/
def tStringLengthFrom (string : Source) : ℕ → ℕ → Except Fault ℕ
  | 0, len => do
    let _ ← string len
    .ok len
  | n + 1, len => do
    let c ← string len
    if c ≠ 0 then tStringLengthFrom string n (len + 1) else .ok len

def tStringLength (string : Source) (maxSize : ℕ) : Except Fault ℕ :=
  tStringLengthFrom string maxSize 0

namespace FixedString

variable {size : BufferSize}

def read (s : FixedString size) : Source := fun i =>
  match s.stringArray[i]? with
  | some c => .ok c
  | none => .error .outOfBounds

def write (s : FixedString size) (i : ℕ) (c : CChar) : Except Fault (FixedString size) :=
  if i < size.val then
    .ok { s with
      stringArray := s.stringArray.set i c
      stringArray_length := by rw [List.length_set, s.stringArray_length] }
  else .error .outOfBounds

def setLength (s : FixedString size) (length : BitVec 32) : FixedString size :=
  { s with length := length }

/-! ### Copies into the array at an offset -/

/-- The zeros that `strncpy` writes after the end of the source. -/
def padFrom (offset : ℕ) : ℕ → ℕ → FixedString size → Except Fault (FixedString size)
  | 0, _, s => .ok s
  | n + 1, i, s => do
    let s ← s.write (offset + i) 0
    padFrom offset n (i + 1) s

/-- The loop of `strncpy` at the index `i`. -/
def strncpyFrom (offset : ℕ) (src : Source) :
    ℕ → ℕ → FixedString size → Except Fault (FixedString size)
  | 0, _, s => .ok s
  | n + 1, i, s => do
    let c ← src i
    let s ← s.write (offset + i) c
    if c = 0 then padFrom offset n (i + 1) s else strncpyFrom offset src n (i + 1) s

def strncpy (s : FixedString size) (offset : ℕ) (src : Source) (n : ℕ) :
    Except Fault (FixedString size) :=
  strncpyFrom offset src n 0 s

/-- The loop of `TStringCopy` at the index `len`. -/
def tStringCopyFrom (offset : ℕ) (src : Source) :
    ℕ → ℕ → FixedString size → Except Fault (ℕ × FixedString size)
  | 0, len, s => do
    let _ ← src len
    let s ← s.write (offset + len) 0
    .ok (len, s)
  | n + 1, len, s => do
    let c ← src len
    if c ≠ 0 then
      let s ← s.write (offset + len) c
      tStringCopyFrom offset src n (len + 1) s
    else
      let s ← s.write (offset + len) 0
      .ok (len, s)

def tStringCopy (s : FixedString size) (offset : ℕ) (src : Source) (maxSize : ℕ) :
    Except Fault (ℕ × FixedString size) :=
  tStringCopyFrom offset src maxSize 0 s

def writeAll (offset : ℕ) : List CChar → FixedString size → Except Fault (FixedString size)
  | [], s => .ok s
  | c :: cs, s => do
    let s ← s.write offset c
    writeAll (offset + 1) cs s

/-- `vsnprintf` of a format and arguments that expand to `expansion`. It writes at most `n`
characters with the zero, and returns the length of the whole expansion, or a negative number
if that is no `int`. -/
def vsnprintf (s : FixedString size) (offset n : ℕ) (expansion : CString) :
    Except Fault (BitVec 32 × FixedString size) := do
  let s ← if n = 0 then .ok s else writeAll offset (expansion.val.take (n - 1) ++ [0]) s
  .ok (if expansion.val.length < 2 ^ 31 then BitVec.ofNat 32 expansion.val.length else -1, s)

/-! ### The members of `FixedString` -/

/-- `Size - m_length`, as a `size_t`. -/
def sizeLeft (s : FixedString size) : BitVec 64 :=
  BitVec.ofNat 64 size.val - s.length.setWidth 64

/-- The array with the initializer `{'\0'}`. -/
def zeroed (size : BufferSize) : FixedString size where
  stringArray := List.replicate size.val 0
  length := 0
  stringArray_length := List.length_replicate

def assureTermination (s : FixedString size) : FixedString size :=
  { s with
    stringArray := s.stringArray.set (size.val - 1) 0
    stringArray_length := by rw [List.length_set, s.stringArray_length] }

/-- The constructor from a `const char *`. -/
def construct (size : BufferSize) (isConstantEvaluated : Bool) (string : CString) :
    Except Fault (FixedString size) := do
  if isConstantEvaluated then
    let n ← tStringLength string.read (size.val - 1)
    let (len, s) ← (zeroed size).tStringCopy 0 string.read n
    .ok (s.setLength (BitVec.ofNat 32 len)).assureTermination
  else
    let len ← strnlen string.read size.val
    let s ← (zeroed size).strncpy 0 string.read (len + 1)
    .ok (s.setLength (BitVec.ofNat 32 len)).assureTermination

/-- `operator=(const FixedString &)`. -/
def assign (isConstantEvaluated : Bool) (s rhs : FixedString size) :
    Except Fault (FixedString size) := do
  if isConstantEvaluated then
    let n ← tStringLength rhs.read (size.val - 1)
    let (len, s) ← s.tStringCopy 0 rhs.read n
    .ok (s.setLength (BitVec.ofNat 32 len)).assureTermination
  else
    let len := if rhs.length.toNat < size.val - 1 then rhs.length.toNat else size.val - 1
    let s ← s.strncpy 0 rhs.read len
    .ok (s.setLength (BitVec.ofNat 32 len)).assureTermination

/-- `operator=(const char *)`. Only one branch calls `AssureTermination`. -/
def assignString (isConstantEvaluated : Bool) (s : FixedString size) (rhs : CString) :
    Except Fault (FixedString size) := do
  if isConstantEvaluated then
    let n ← tStringLength rhs.read (size.val - 1)
    let (len, s) ← s.tStringCopy 0 rhs.read n
    .ok (s.setLength (BitVec.ofNat 32 len))
  else
    let len ← strnlen rhs.read (size.val - 1)
    let s ← s.strncpy 0 rhs.read len
    .ok (s.setLength (BitVec.ofNat 32 len)).assureTermination

/-- The end of the calls that return `m_length`. -/
def returning (s : FixedString size) (length : BitVec 32) : BitVec 64 × FixedString size :=
  ((s.setLength length).assureTermination.length.setWidth 64, (s.setLength length).assureTermination)

def format (s : FixedString size) (expansion : CString) :
    Except Fault (BitVec 64 × FixedString size) := do
  let (length, s) ← s.vsnprintf 0 size.val expansion
  if length.toInt < 0 then .error .assertFailed
  else .ok (s.returning length)

def appendFormat (s : FixedString size) (expansion : CString) :
    Except Fault (BitVec 64 × FixedString size) := do
  let (appendedLength, t) ← s.vsnprintf s.length.toNat s.sizeLeft.toNat expansion
  if appendedLength.toInt < 0 then .error .assertFailed
  else .ok (t.returning (s.length + appendedLength))

def append (isConstantEvaluated : Bool) (s : FixedString size) (string : CString) :
    Except Fault (BitVec 64 × FixedString size) := do
  if isConstantEvaluated then
    let appendLength ← tStringLength string.read (s.sizeLeft - 1).toNat
    let (_, t) ← s.tStringCopy s.length.toNat string.read appendLength
    .ok (t.returning (s.length + BitVec.ofNat 32 appendLength))
  else
    let appendLength ← strnlen string.read (s.sizeLeft - 1).toNat
    let t ← s.strncpy s.length.toNat string.read appendLength
    .ok (t.returning (s.length + BitVec.ofNat 32 appendLength))

end FixedString

end DDFramework
