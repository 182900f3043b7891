import Mathlib.Tactic.Common
import Mathlib.Data.Nat.Bitwise

/-!
# Machine integers, error codes and exceptions

Sizes are natural numbers and offsets integers; a computation that the code makes
in `size_t` or `uintptr_t` and that may leave the range is reduced modulo `2^64`
where it is made.

* `getMaxRwCount`: the largest size of one transfer, from the page size.
* `HipFileOpError`, `HipError`, `HipFileError`: the error codes.
* `Exn`: the exceptions that the library's `catch` clauses tell apart.
-/

namespace HipFile

/-! ## Machine integers -/

/-- The number of values of `size_t`, `uintptr_t`. -/
def wordModulus : ℕ := 2 ^ 64

/-- `static_cast<size_t>` of a signed value. -/
def toSizeT (i : ℤ) : ℕ := (i % (wordModulus : ℤ)).toNat

theorem toSizeT_of_nonneg {i : ℤ} (h : 0 ≤ i) (hlt : i < wordModulus) : toSizeT i = i.toNat := by
  unfold toSizeT; rw [Int.emod_eq_of_lt h hlt]

theorem toSizeT_natCast (n : ℕ) : toSizeT n = n % wordModulus := by
  unfold toSizeT; omega

/-- `static_cast<ssize_t>`, `reinterpret_cast<intptr_t>` of an unsigned value. -/
def toSsizeT (n : ℕ) : ℤ :=
  if n % wordModulus < 2 ^ 63 then n % wordModulus else n % wordModulus - wordModulus

theorem toSsizeT_of_lt {n : ℕ} (h : n < 2 ^ 63) : toSsizeT n = n := by
  unfold toSsizeT wordModulus; rw [if_pos (by omega)]; omega

/-- `off_t` is a signed 64-bit type. -/
def OffT (i : ℤ) : Prop := -2 ^ 63 ≤ i ∧ i < 2 ^ 63

instance (i : ℤ) : Decidable (OffT i) := inferInstanceAs (Decidable (_ ∧ _))

/-- `INT_MAX` -/
def INT_MAX : ℕ := 2 ^ 31 - 1

/-- `~(getPageSize() - 1)` -/
def getPageMask (pageSize : ℕ) : ℕ := wordModulus - 1 - toSizeT ((pageSize : ℤ) - 1)

/-- `static_cast<size_t>(INT_MAX) & getPageMask()` -/
def getMaxRwCount (pageSize : ℕ) : ℕ := INT_MAX &&& getPageMask pageSize

theorem getMaxRwCount_le (pageSize : ℕ) : getMaxRwCount pageSize ≤ INT_MAX := Nat.and_le_left

theorem getMaxRwCount_lt (pageSize : ℕ) : getMaxRwCount pageSize < 2 ^ 31 := by
  have := getMaxRwCount_le pageSize
  unfold INT_MAX at this; omega

/-- With 4 KiB pages this is the `0x7ffff000` of the changelog. -/
example : getMaxRwCount 4096 = 0x7ffff000 := by decide

/-! ## Error codes -/

/-- `hipFileOpError_t` -/
inductive HipFileOpError
  | success
  | driverNotInitialized | driverInvalidProps | driverUnsupportedLimit | driverVersionMismatch
  | driverVersionReadError | driverClosing | platformNotSupported | ioNotSupported
  | deviceNotSupported | driverError | hipDriverError | hipPointerInvalid | hipMemoryTypeInvalid
  | hipPointerRangeError | hipContextMismatch | invalidMappingSize | invalidMappingRange
  | invalidFileType | invalidFileOpenFlag | dioNotSet | invalidValue | memoryAlreadyRegistered
  | memoryNotRegistered | permissionDenied | driverAlreadyOpen | handleNotRegistered
  | handleAlreadyRegistered | deviceNotFound | internalError | getNewFDFailed | driverSetupError
  | ioDisabled | batchSubmitFailed | gpuMemoryPinningFailed | batchFull | asyncNotSupported
  | ioMaxError
  deriving DecidableEq, Repr

/-- `HIPFILE_BASE_ERR` -/
def HIPFILE_BASE_ERR : ℕ := 5000

/-- The offset of an error code from `HIPFILE_BASE_ERR`; 21 and 32 are unused. -/
def HipFileOpError.offset : HipFileOpError → ℕ
  | .success => 0
  | .driverNotInitialized => 1 | .driverInvalidProps => 2 | .driverUnsupportedLimit => 3
  | .driverVersionMismatch => 4 | .driverVersionReadError => 5 | .driverClosing => 6
  | .platformNotSupported => 7 | .ioNotSupported => 8 | .deviceNotSupported => 9
  | .driverError => 10 | .hipDriverError => 11 | .hipPointerInvalid => 12
  | .hipMemoryTypeInvalid => 13 | .hipPointerRangeError => 14 | .hipContextMismatch => 15
  | .invalidMappingSize => 16 | .invalidMappingRange => 17 | .invalidFileType => 18
  | .invalidFileOpenFlag => 19 | .dioNotSet => 20 | .invalidValue => 22
  | .memoryAlreadyRegistered => 23 | .memoryNotRegistered => 24 | .permissionDenied => 25
  | .driverAlreadyOpen => 26 | .handleNotRegistered => 27 | .handleAlreadyRegistered => 28
  | .deviceNotFound => 29 | .internalError => 30 | .getNewFDFailed => 31
  | .driverSetupError => 33 | .ioDisabled => 34 | .batchSubmitFailed => 35
  | .gpuMemoryPinningFailed => 36 | .batchFull => 37 | .asyncNotSupported => 38
  | .ioMaxError => 39

/-- The enumerator's value. -/
def HipFileOpError.code : HipFileOpError → ℤ
  | .success => 0
  | e => HIPFILE_BASE_ERR + e.offset

/-- The codes of the failures start at `HIPFILE_BASE_ERR + 1`. -/
theorem HipFileOpError.code_of_ne {e : HipFileOpError} (h : e ≠ .success) :
    5001 ≤ e.code ∧ e.code ≤ 5039 := by
  cases e <;> first | exact absurd rfl h | decide

/-- No two enumerators share a value. -/
theorem HipFileOpError.code_injective : Function.Injective HipFileOpError.code := by
  intro a b h
  cases a <;> cases b <;> first | rfl | exact absurd h (by decide)

/-- A `hipError_t` other than `hipSuccess`. HIP assigns these values up to about
1000, so that they stay below the hipFile error codes. -/
structure HipError where
  code : ℕ
  pos : 0 < code
  lt : code < HIPFILE_BASE_ERR
  deriving DecidableEq, Repr

/-- `hipErrorInvalidValue` -/
def HipError.invalidValue : HipError := ⟨1, by decide, by decide⟩

/-- `hipErrorOutOfMemory` -/
def HipError.outOfMemory : HipError := ⟨2, by decide, by decide⟩

/-- `hipErrorNotFound` -/
def HipError.notFound : HipError := ⟨500, by decide, by decide⟩

/-- `hipFileError_t`; `hip_drv_err` is `none` for `hipSuccess`. -/
structure HipFileError where
  err : HipFileOpError
  hipDrvErr : Option HipError
  deriving DecidableEq, Repr

/-- A `hipFileError_t` that is thrown: it is an error. -/
structure ThrownError where
  error : HipFileError
  isError : error.err ≠ .success
  deriving DecidableEq, Repr

/-- A value of `errno`. -/
abbrev Errno := ℤ

def EINTR : Errno := 4
def EINVAL : Errno := 22

/-! ## Exceptions -/

/-- The exceptions of the library, as its `catch` clauses tell them apart. A clause
for `std::runtime_error` itself does not exist, so its subclasses are alternatives. -/
inductive Exn
  | hipFileError (e : ThrownError)
  | driverNotInitialized
  | invalidMemoryType
  | invalidPointerRange
  | invalidArgument (what : String)
  | fileNotRegistered
  | fileAlreadyRegistered
  | fileOperationsOutstanding
  | bufferNotRegistered
  | bufferAlreadyRegistered
  | bufferOperationsOutstanding
  | hipRuntimeError (error : HipError)
  | symbolNotFound (what : String)
  | systemError (code : Errno)
  | backendDisabled
  | badAlloc
  | badOptionalAccess
  | runtimeError (what : String)
  deriving DecidableEq, Repr

/-- `handle_exception()` -/
def handleException : Exn → HipFileError
  | .hipFileError e => e.error
  | .hipRuntimeError e => ⟨.hipDriverError, some e⟩
  | _ => ⟨.internalError, none⟩

theorem handleException_ne_success (e : Exn) : (handleException e).err ≠ .success := by
  cases e with
  | hipFileError e => exact e.isError
  | _ => simp [handleException]

end HipFile
