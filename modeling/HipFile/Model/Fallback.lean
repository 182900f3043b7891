import HipFile.Lib.Loop
import HipFile.Lib.Prog
import HipFile.Model.World

/-!
# The fallback backend, synchronous path

`Fallback.ioImpl` is `Fallback::_io_impl`: bounded rounds through a bounce buffer
of `chunkSize` bytes, each a `pread` and a copy to the device, or a copy from the
device, a `pwrite` and an `fdatasync`. A round that `EINTR` interrupts is not
counted, and `continue` goes to the test of the `do … while`.

The loop may run for ever if interrupted for ever: `ioImpl` takes the number of
rounds allowed, and gives the loop's state when they are used up.
-/

namespace HipFile

open Bytes

/-- `DefaultChunkSize` -/
def DefaultChunkSize : ℕ := 16 * 1024 * 1024

/-- The address `buffer->getBuffer() + buffer_offset + done`, in `uintptr_t`. -/
def devicePosition (buffer : IBuffer) (bufferOffset : ℤ) (done : ℕ) : ℕ :=
  (buffer.getBuffer + toSizeT bufferOffset + done) % wordModulus

/-- The device address of the first byte of a request. -/
def regionStart (buffer : Buffer) (bufferOffset : HoffT) : ℕ :=
  buffer.getBuffer + bufferOffset.val.toNat

/-- Inside an accepted region the address computation does not wrap. -/
theorem devicePosition_eq {buffer : Buffer} {size done : ℕ} {fileOffset : ℤ} {bufferOffset : HoffT}
    (hv : paramsValid buffer.toIBuffer size fileOffset bufferOffset = true) (hd : done < size) :
    devicePosition buffer.toIBuffer bufferOffset done = regionStart buffer bufferOffset + done := by
  obtain ⟨-, hb, -, hle⟩ := (paramsValid_iff bufferOffset.2).1 hv
  have hspace := buffer.inSpace
  unfold devicePosition regionStart
  rw [toSizeT_of_nonneg hb bufferOffset.2.lt_wordModulus, Nat.mod_eq_of_lt (by omega)]

namespace Fallback

/-- The locals of the loop that outlive a round, with the world. -/
structure LoopState where
  world : World
  bounceBuffer : Mem
  totalIoBytes : ℕ

/-- A part of a round: it may throw. -/
abbrev Round := Prog Exn LoopState

def pread (env : Env) (fd : ℤ) (count : ℕ) (offset : ℤ) : Round ℕ := fun s =>
  match s.world.pread env.sys fd s.bounceBuffer 0 count offset with
  | (.ok n, w, b) => (.ok n, { s with world := w, bounceBuffer := b })
  | (.error e, w, _) => (.error (.systemError e), { s with world := w })

def pwrite (env : Env) (fd : ℤ) (count : ℕ) (offset : ℤ) : Round ℕ := fun s =>
  match s.world.pwrite env.sys fd s.bounceBuffer 0 count offset with
  | (.ok n, w) => (.ok n, { s with world := w })
  | (.error e, w) => (.error (.systemError e), { s with world := w })

def fdatasync (env : Env) (fd : ℤ) : Round Unit := fun s =>
  match s.world.fdatasync env.sys fd with
  | (.ok _, w) => (.ok (), { s with world := w })
  | (.error e, w) => (.error (.systemError e), { s with world := w })

def hipMemcpyHostToDevice (env : Env) (dst size : ℕ) : Round Unit := fun s =>
  match s.world.hipMemcpyHostToDevice env.hip dst s.bounceBuffer size with
  | (.ok _, w) => (.ok (), { s with world := w })
  | (.error e, w) => (.error (.hipRuntimeError e), { s with world := w })

def hipMemcpyDeviceToHost (env : Env) (src size : ℕ) : Round Unit := fun s =>
  match s.world.hipMemcpyDeviceToHost env.hip s.bounceBuffer src size with
  | (.ok _, w, b) => (.ok (), { s with world := w, bounceBuffer := b })
  | (.error e, w, _) => (.error (.hipRuntimeError e), { s with world := w })

def hipStreamSynchronize (env : Env) : Round Unit := fun s =>
  match s.world.hipStreamSynchronize env.hip with
  | (.ok _, w) => (.ok (), { s with world := w })
  | (.error e, w) => (.error (.hipRuntimeError e), { s with world := w })

/-- The `switch` of a round: `io_bytes`. -/
def transfer (env : Env) (file : IFile) (type : IoType) (devicePos count : ℕ) (offset : ℤ) :
    Round ℕ :=
  match type with
  | .read => do
    let ioBytes ← pread env file.bufferedFd count offset
    if 0 < ioBytes then
      hipMemcpyHostToDevice env devicePos ioBytes
    return ioBytes
  | .write => do
    hipMemcpyDeviceToHost env devicePos count
    hipStreamSynchronize env
    let ioBytes ← pwrite env file.bufferedFd count offset
    fdatasync env file.bufferedFd
    return ioBytes

/-- How a request ends: with a byte count or an exception, in a world. -/
abbrev Outcome := Except Exn ℕ × World

/-- The test of the `do … while`. -/
def loopTest (size : ℕ) (s : LoopState) : LoopState ⊕ Outcome :=
  if s.totalIoBytes < size then .inl s else .inr (.ok s.totalIoBytes, s.world)

/-- The test decides between the state the loop goes on with and what it leaves with. -/
theorem loopTest_spec {P : LoopState → Prop} {Q : Outcome → Prop} {size : ℕ} {s : LoopState}
    (hgo : s.totalIoBytes < size → P s)
    (hleave : ¬ s.totalIoBytes < size → Q (.ok s.totalIoBytes, s.world)) :
    (∀ s', loopTest size s = .inl s' → P s') ∧ ∀ r, loopTest size s = .inr r → Q r := by
  unfold loopTest
  by_cases h : s.totalIoBytes < size
  · rw [if_pos h]
    exact Loop.goesOn (hgo h)
  · rw [if_neg h]
    exact Loop.leaves (hleave h)

/-- One round of the `do … while`. -/
def round (env : Env) (file : IFile) (type : IoType) (buffer : IBuffer) (size : ℕ)
    (fileOffset bufferOffset : ℤ) (chunkSize : ℕ) (s : LoopState) : LoopState ⊕ Outcome :=
  let count := min chunkSize (size - s.totalIoBytes)
  let offset := fileOffset + s.totalIoBytes
  let devicePos := devicePosition buffer bufferOffset s.totalIoBytes
  match transfer env file type devicePos count offset s with
  | (.ok ioBytes, s') =>
    let s' := { s' with totalIoBytes := s'.totalIoBytes + ioBytes }
    if ioBytes = 0 then .inr (.ok s'.totalIoBytes, s'.world) else loopTest size s'
  -- `continue` goes to the test, with what the interrupted round has written uncounted
  | (.error (.systemError e), s') =>
    if e = EINTR then loopTest size s' else .inr (.error (.systemError e), s'.world)
  | (.error e, s') => .inr (.error e, s'.world)

/-- The checks of `_io_impl`, up to the region to move. -/
def accept (env : Env) (buffer : IBuffer) (size : ℕ) (fileOffset bufferOffset : ℤ) :
    Except Exn Region :=
  if ¬ env.config.fallback then .error .backendDisabled
  else
    let size := min size env.maxRwCount
    if ¬ paramsValid buffer size fileOffset bufferOffset then .error invalidRegion
    else .ok ⟨devicePosition buffer bufferOffset 0, fileOffset, size⟩

/-- An accepted request, when the fallback is enabled. -/
theorem accept_ok {env : Env} (hfb : env.config.fallback = true) {buffer : IBuffer} {size : ℕ}
    {fileOffset bufferOffset : ℤ}
    (hv : paramsValid buffer (min size env.maxRwCount) fileOffset bufferOffset = true) :
    accept env buffer size fileOffset bufferOffset =
      .ok ⟨devicePosition buffer bufferOffset 0, fileOffset, min size env.maxRwCount⟩ := by
  simp [accept, hfb, hv]

/-- `Fallback::_io_impl`, allowed `rounds` rounds of its loop. The deleter of the
bounce buffer moves no byte and is left out. -/
def ioImpl (env : Env) (rounds : ℕ) (type : IoType) (file : IFile) (buffer : IBuffer) (size : ℕ)
    (fileOffset bufferOffset : ℤ) (chunkSize : ℕ) (w : World) : LoopState ⊕ Outcome :=
  match accept env buffer size fileOffset bufferOffset with
  | .error e => .inr (.error e, w)
  | .ok region =>
    match w.mmap env.sys with
    | (.error e, w) => .inr (.error (.systemError e), w)
    | (.ok _, w) =>
      match Loop.iter (round env file type buffer region.size fileOffset bufferOffset chunkSize)
          rounds ⟨w, fun _ => 0, 0⟩ with
      | .inl s => .inl s
      | .inr (.ok total, w) => .inr (.ok total, w.statsAddFallbackPath env.config type total)
      | .inr (.error e, w) => .inr (.error e, w)

/-- `Fallback::_io_impl` without a chunk size, as `Backend::io` calls it. -/
def ioImplDefault (env : Env) (rounds : ℕ) (type : IoType) (file : IFile) (buffer : IBuffer)
    (size : ℕ) (fileOffset bufferOffset : ℤ) (w : World) : LoopState ⊕ Outcome :=
  ioImpl env rounds type file buffer size fileOffset bufferOffset DefaultChunkSize w

/-- `Fallback::score` -/
def score (env : Env) (buffer : IBuffer) : ℤ :=
  if env.config.fallback ∧ buffer.getType = .device then 0 else -1

end Fallback

end HipFile
