import HipFile.Lib.Signed
import HipFile.Model.AsyncStages
import HipFile.Model.Fallback
import HipFile.Model.Fastpath

/-!
# The signed sums of the backends

The functions that add signed 64-bit values, with a record of the sums: the address that
`Fastpath::score` and `Fastpath::_io_impl` form from the client's offset, and the file offset
of the next call in the two loops of the fallback.
-/

namespace HipFile

namespace Fastpath

/-- `reinterpret_cast<intptr_t>(buffer->getBuffer()) + buffer_offset` -/
def addressSum (buffer : IBuffer) (bufferOffset : ℤ) : Sums ℤ :=
  .add (toSsizeT buffer.getBuffer) bufferOffset

/-- `Fastpath::score`. Its checks are combined with `&=`, so that none keeps it from forming
the address. -/
def scoreSums (env : Env) (file : IFile) (buffer : IBuffer) (size : ℕ)
    (fileOffset bufferOffset : ℤ) : Sums ℤ := do
  let acceptIo := env.config.fastpath ∧ file.unbufferedFd.isSome ∧ buffer.getType = .device ∧
    0 ≤ fileOffset ∧ 0 ≤ bufferOffset ∧
    (file.isBlockDevice ∨
      file.isRegularFile ∧ (env.config.unsupportedFileSystems ∨ file.onExt4Ordered ∨ file.onXfs)) ∧
    aligned file.dioOffsetAlign (toSizeT fileOffset) ∧ aligned file.dioOffsetAlign size
  let memAddr ← addressSum buffer bufferOffset
  return if acceptIo ∧ aligned file.dioMemAlign (toSizeT memAddr) then 100 else -1

/-- The checks of `Fastpath::_io_impl`, which forms the address before the region is checked. -/
def acceptSums (env : Env) (file : IFile) (buffer : IBuffer) (size : ℕ)
    (fileOffset bufferOffset : ℤ) : Sums (Except Exn (ℤ × Region)) :=
  if ¬ env.config.fastpath then return .error .backendDisabled
  else do
    let address ← addressSum buffer bufferOffset
    match file.unbufferedFd with
    | none => return .error .badOptionalAccess
    | some fd =>
      if ¬ paramsValid buffer size fileOffset bufferOffset then return .error invalidRegion
      else return .ok (fd, ⟨toSizeT address, fileOffset, min size env.maxRwCount⟩)

variable {env : Env} {file : IFile} {buffer : IBuffer} {size : ℕ} {fileOffset bufferOffset : ℤ}

theorem scoreSums_value : (scoreSums env file buffer size fileOffset bufferOffset).value =
    score env file buffer size fileOffset bufferOffset := by
  unfold scoreSums score
  simp only [Sums.bind_value, Sums.pure_value, and_assoc]
  rfl

theorem acceptSums_value : (acceptSums env file buffer size fileOffset bufferOffset).value =
    accept env file buffer size fileOffset bufferOffset := by
  unfold acceptSums accept
  split
  · rfl
  · cases file.unbufferedFd with
    | none => rfl
    | some fd =>
      simp only [Sums.bind_value]
      split <;> rfl

end Fastpath

/-- `file_offset + total_io_bytes`, in the loop of `Fallback::_io_impl`. -/
def Fallback.nextOffset (fileOffset : ℤ) (s : LoopState) : Sums ℤ :=
  .add fileOffset s.totalIoBytes

/-- `file_offset + static_cast<hoff_t>(bytes_transferred)`, in the loop of
`async_io_cpu_copy`. -/
def CopyState.nextOffset (fileOffset : ℤ) (c : CopyState) : Sums ℤ :=
  .add fileOffset (toSsizeT c.bytesTransferred)

end HipFile
