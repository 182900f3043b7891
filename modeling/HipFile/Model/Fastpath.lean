import HipFile.Model.World

/-!
# The fast path backend

`Fastpath.ioImpl` is `Fastpath::_io_impl`: one `hipAmdFileRead` or
`hipAmdFileWrite` on the file's unbuffered descriptor. It checks the region of the
whole size and limits the size afterwards.
-/

namespace HipFile.Fastpath

/-- The address `reinterpret_cast<intptr_t>(buffer->getBuffer()) + buffer_offset`. -/
def devptr (buffer : IBuffer) (bufferOffset : ℤ) : ℕ :=
  toSizeT (toSsizeT buffer.getBuffer + bufferOffset)

/-- `value & (align - 1)` is zero, for a nonzero `align`. -/
def aligned (align value : ℕ) : Bool := align ≠ 0 ∧ value &&& (align - 1) = 0

/-- `Fastpath::score` -/
def score (env : Env) (file : IFile) (buffer : IBuffer) (size : ℕ) (fileOffset bufferOffset : ℤ) :
    ℤ :=
  if env.config.fastpath ∧ file.unbufferedFd.isSome ∧ buffer.getType = .device ∧
    0 ≤ fileOffset ∧ 0 ≤ bufferOffset ∧
    (file.isBlockDevice ∨
      file.isRegularFile ∧ (env.config.unsupportedFileSystems ∨ file.onExt4Ordered ∨ file.onXfs)) ∧
    aligned file.dioOffsetAlign (toSizeT fileOffset) ∧ aligned file.dioOffsetAlign size ∧
    aligned file.dioMemAlign (devptr buffer bufferOffset)
  then 100 else -1

/-- The checks of `_io_impl`, up to the descriptor and the region to move. -/
def accept (env : Env) (file : IFile) (buffer : IBuffer) (size : ℕ) (fileOffset bufferOffset : ℤ) :
    Except Exn (ℤ × Region) :=
  if ¬ env.config.fastpath then .error .backendDisabled
  else
    match file.unbufferedFd with
    | none => .error .badOptionalAccess
    | some fd =>
      -- the whole size is checked, and limited only afterwards
      if ¬ paramsValid buffer size fileOffset bufferOffset then .error invalidRegion
      else .ok (fd, ⟨devptr buffer bufferOffset, fileOffset, min size env.maxRwCount⟩)

/-- `Fastpath::_io_impl` -/
def ioImpl (env : Env) (type : IoType) (file : IFile) (buffer : IBuffer) (size : ℕ)
    (fileOffset bufferOffset : ℤ) (w : World) : Except Exn ℤ × World :=
  match accept env file buffer size fileOffset bufferOffset with
  | .error e => (.error e, w)
  | .ok (fd, region) =>
    match w.hipInitOnce env.hip with
    | (.error e, w) => (.error (.hipRuntimeError e), w)
    | (.ok _, w) =>
      match w.hipAmdFile env.hip type fd region.devicePtr region.size region.fileOffset with
      | (.error e, w) => (.error e, w)
      | (.ok nbytes, w) => (.ok (toSsizeT nbytes), w.statsAddFastPath env.config type nbytes)

end HipFile.Fastpath
