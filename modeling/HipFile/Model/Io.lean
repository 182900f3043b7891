import HipFile.Model.Basic

/-!
# Requests: IO types, buffers, files and the region check

* `paramsValid`: the check every backend makes on a request, and what it says
  (`paramsValid_iff`).
* `Buffer`: a buffer whose region lies in the address space and is not null, as
  the buffers of the buffer map do.
-/

namespace HipFile

/-- `IoType` -/
inductive IoType
  | read
  | write
  deriving DecidableEq, Repr

/-- An `off_t`. -/
abbrev HoffT := {i : ℤ // OffT i}

/-- `hipMemoryType` -/
inductive HipMemoryType
  | unregistered | host | device | managed | array | unified
  deriving DecidableEq, Repr

/-- What the code reads of an `IBuffer`. -/
structure IBuffer where
  getBuffer : ℕ
  getLength : ℕ
  getFlags : ℤ
  getType : HipMemoryType
  getGpuId : ℤ
  deriving DecidableEq, Repr

/-- A buffer that does not wrap around the address space. -/
structure Buffer extends IBuffer where
  nonnull : getBuffer ≠ 0
  inSpace : getBuffer + getLength ≤ wordModulus

/-- What the code reads of an `IFile`. -/
structure IFile where
  handle : ℕ
  clientFd : ℤ
  bufferedFd : ℤ
  unbufferedFd : Option ℤ
  dioMemAlign : ℕ
  dioOffsetAlign : ℕ
  isBlockDevice : Bool
  isRegularFile : Bool
  onExt4Ordered : Bool
  onXfs : Bool
  deriving DecidableEq, Repr

/-- `paramsValid` -/
def paramsValid (buffer : IBuffer) (size : ℕ) (fileOffset bufferOffset : ℤ) : Bool :=
  let bufferLength := buffer.getLength
  if fileOffset < 0 then false
  else if bufferOffset < 0 then false
  else if bufferLength ≤ toSizeT bufferOffset then false
  else if bufferLength - toSizeT bufferOffset < size then false
  else true

/-- The text of the exception thrown when the region is refused. -/
def invalidRegion : Exn := .invalidArgument "The selected file or buffer region is invalid"

/-- The part of a request that a backend moves, once it has accepted the request. -/
structure Region where
  devicePtr : ℕ
  fileOffset : ℤ
  size : ℕ
  deriving DecidableEq, Repr

variable {buffer : IBuffer} {size : ℕ} {fileOffset bufferOffset : ℤ}

theorem OffT.lt_wordModulus {i : ℤ} (h : OffT i) : i < wordModulus := by
  have := h.2; unfold wordModulus; omega

/-- **What an accepted request satisfies**, for offsets of the type `off_t`. -/
theorem paramsValid_iff (hb : OffT bufferOffset) :
    paramsValid buffer size fileOffset bufferOffset = true ↔
      0 ≤ fileOffset ∧ 0 ≤ bufferOffset ∧ bufferOffset.toNat < buffer.getLength ∧
        bufferOffset.toNat + size ≤ buffer.getLength := by
  unfold paramsValid
  simp only
  by_cases hb0 : bufferOffset < 0
  · simp only [hb0, if_true]; split <;> simp <;> omega
  · rw [toSizeT_of_nonneg (by omega) hb.lt_wordModulus]
    split_ifs <;> simp <;> omega

end HipFile
