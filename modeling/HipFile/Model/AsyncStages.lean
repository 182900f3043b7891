import HipFile.Lib.Loop
import HipFile.Lib.Strided
import HipFile.Model.AsyncIo
import HipFile.Model.World

/-!
# Asynchronous requests: the stages in stream order

The stages of an op run one after the other: `async_io_bind_params`,
`async_io_cpu_copy`, the kernel `hipFileMemcpyKernel` and `async_io_cleanup`.

The bounce buffer has `submittedSize` bytes. An access beyond them is recorded like
any other; what it writes is lost and what it reads is arbitrary. The kernel's
threads copy words and bytes in an arbitrary order. The loop of the copy may run
for ever if interrupted for ever, so that it takes the number of rounds allowed.
-/

namespace HipFile

open Bytes

/-- What the stages of one op find: the system calls, what the client's parameters hold
when they are bound, the bytes beyond the bounce buffer, the order of the kernel's
copies, and the address of the op. -/
structure StreamEnv where
  maxRwCount : ℕ
  sys : Sys
  client : Params
  stray : Mem
  order : List Span → List Span
  addr : ℕ
  order_perm : ∀ l, (order l).Perm l

/-- What the stages of one op change, and the bytes of the bounce buffer and of the GPU
buffer (as offsets from its start) that they have accessed. -/
structure StreamState where
  op : AsyncOpFallback
  world : World
  bounce : Mem
  monitor : AsyncMonitor
  bytesTransferred : ℤ
  bounceAccesses : List Span
  gpuAccesses : List Span

/-- Where a stage is: done, out of rounds, or stopped at a `std::get` of a variant that is
not bound. -/
inductive Progress
  | finished
  | running
  | fault
  deriving DecidableEq, Repr

namespace StreamState

/-- The bounce buffer as it is read. -/
def view (env : StreamEnv) (s : StreamState) : Mem := fun i =>
  if i < s.op.submittedSize then s.bounce i else env.stray i

/-- Set `op->bytes_transferred_internal`. -/
def setInternal (s : StreamState) (value : ℤ) : StreamState :=
  { s with op := { s.op with bytesTransferredInternal := value } }

end StreamState

/-- `-hipFileInvalidValue` -/
def invalidValueStatus : ℤ := -HipFileOpError.invalidValue.code

/-- `async_io_bind_params` -/
def asyncIoBindParams (env : StreamEnv) (s : StreamState) : StreamState :=
  let bufferOffset := s.op.bufferOffset.deref env.client.bufferOffset.val
  let fileOffset := s.op.fileOffset.deref env.client.fileOffset.val
  let size := min (s.op.size.deref env.client.size) env.maxRwCount
  let s := { s with op := { s.op with
    bufferOffset := .value bufferOffset
    fileOffset := .value fileOffset
    size := .value size } }
  -- larger than the bounce buffer, which was allocated at the submission
  if s.op.submittedSize < size then s.setInternal invalidValueStatus
  else if ¬ paramsValid s.op.buffer size fileOffset bufferOffset then
    s.setInternal invalidValueStatus
  else s

/-- `async_io_cleanup` -/
def asyncIoCleanup (env : StreamEnv) (s : StreamState) : StreamState :=
  match s.monitor.completeOp env.addr with
  | .error _ => { s with bytesTransferred := -HipFileOpError.internalError.code }
  | .ok monitor => { s with monitor := monitor, bytesTransferred := s.op.bytesTransferredInternal }

/-! ## The copy between the file and the bounce buffer -/

/-- The stream's state with the local `bytes_transferred` of the copy. -/
structure CopyState where
  state : StreamState
  bytesTransferred : ℕ

/-- The bytes that a `pread` or `pwrite` has moved. -/
def retBytes : Except Errno ℕ → ℕ
  | .ok n => n
  | .error _ => 0

@[simp] theorem retBytes_ok (n : ℕ) : retBytes (.ok n) = n := rfl
@[simp] theorem retBytes_error (e : Errno) : retBytes (.error e) = 0 := rfl

/-- The system call of a round: `ret`, or the `errno`. -/
def copyCall (env : StreamEnv) (s : StreamState) (pos count : ℕ) (offset : ℤ) :
    Except Errno ℕ × StreamState :=
  match s.op.ioType with
  | .read =>
    let r := s.world.pread env.sys s.op.file.bufferedFd s.bounce pos count offset
    (r.1, { s with
      world := r.2.1
      bounce := r.2.2
      bounceAccesses := s.bounceAccesses ++ [⟨pos, retBytes r.1⟩] })
  | .write =>
    let r := s.world.pwrite env.sys s.op.file.bufferedFd (s.view env) pos count offset
    (r.1, { s with
      world := r.2
      bounceAccesses := s.bounceAccesses ++ [⟨pos, retBytes r.1⟩] })

/-- One round of the `while` loop. -/
def copyRound (env : StreamEnv) (size : ℕ) (fileOffset : ℤ) (c : CopyState) :
    CopyState ⊕ StreamState :=
  if c.bytesTransferred < size then
    match copyCall env c.state c.bytesTransferred (size - c.bytesTransferred)
        (fileOffset + c.bytesTransferred) with
    | (.error e, s) => if e = EINTR then .inl { c with state := s } else .inr (s.setInternal (-1))
    | (.ok ret, s) =>
      -- the end of the file, or nothing written
      if ret = 0 then .inr (s.setInternal (toSsizeT c.bytesTransferred))
      else .inl ⟨s, c.bytesTransferred + ret⟩
  else .inr (c.state.setInternal (toSsizeT c.bytesTransferred))

/-- `async_io_cpu_copy`, allowed `rounds` rounds of its loop. -/
def asyncIoCpuCopy (env : StreamEnv) (rounds : ℕ) (s : StreamState) : Progress × StreamState :=
  match s.op.size, s.op.fileOffset with
  | .value size, .value fileOffset =>
    -- an earlier stage has failed: nothing is copied
    if s.op.bytesTransferredInternal < 0 then (.finished, s)
    else
      match Loop.iter (copyRound env size fileOffset) rounds ⟨s, 0⟩ with
      | .inl c => (.running, c.state)
      | .inr s => (.finished, s)
  | _, _ => (.fault, s)

/-! ## The kernel -/

/-- The copies of one thread: the words at its stride, and in thread 0 the last bytes. -/
def threadSpans (blockDim size thread : ℕ) : List Span :=
  ((List.range (size / 8)).filter fun idx => idx % blockDim = thread).map
      (fun idx => Span.mk (8 * idx) 8) ++
    if thread = 0 then (List.range (size % 8)).map fun i => Span.mk (8 * (size / 8) + i) 1 else []

/-- The two loops of a thread, as the kernel has them: `idx += blockDim.x` over the words, and
in thread 0 `idx++` over the last bytes. -/
def threadLoops (blockDim size thread : ℕ) : List Span :=
  (Loop.strided blockDim (size / 8) thread).map (fun idx => Span.mk (8 * idx) 8) ++
    if thread = 0 then (Loop.strided 1 size (size / 8 * 8)).map fun idx => Span.mk idx 1 else []

/-- **The loops of a thread make its copies.** -/
theorem threadLoops_eq {blockDim thread : ℕ} (size : ℕ) (h : thread < blockDim) :
    threadLoops blockDim size thread = threadSpans blockDim size thread := by
  have htail : Loop.strided 1 size (size / 8 * 8) =
      (List.range (size % 8)).map (size / 8 * 8 + ·) := by
    rw [← Loop.strided_one, Nat.div_add_mod']
  unfold threadLoops threadSpans
  rw [Loop.strided_eq_filter h, htail, List.map_map, Nat.mul_comm (size / 8)]
  rfl

/-- The copies of all threads. -/
def kernelSpans (blockDim size : ℕ) : List Span :=
  (List.range blockDim).flatMap (threadSpans blockDim size)

/-- `hipFileMemcpyKernel`, in one block of `blockDim` threads. -/
def hipFileMemcpyKernel (env : StreamEnv) (blockDim : ℕ) (s : StreamState) : StreamState :=
  if s.op.bytesTransferredInternal < 0 then s
  else
    match s.op.size, s.op.bufferOffset with
    | .value opSize, .value bufferOffset =>
      if s.op.bounceBufferDevPtr = 0 ∨ s.op.gpuBuffer = 0 then s.setInternal invalidValueStatus
      else
        -- a read has as many bytes as its copy has counted
        let size := match s.op.ioType with
          | .read => toSizeT s.op.bytesTransferredInternal
          | .write => opSize
        let region := (s.op.gpuBuffer + toSizeT bufferOffset) % wordModulus
        let spans := env.order (kernelSpans blockDim size)
        let s := { s with
          bounceAccesses := s.bounceAccesses ++ spans
          gpuAccesses := s.gpuAccesses ++ spans.map (Span.shift (toSizeT bufferOffset)) }
        match s.op.ioType with
        | .read =>
          { s with world := { s.world with
              dev := copySpans s.world.dev region (s.view env) 0 spans } }
        | .write => { s with bounce := copySpans s.bounce 0 s.world.dev region spans }
    | _, _ => s.setInternal invalidValueStatus

/-! ## Runs -/

/-- Run a stage. -/
def Stage.run (env : StreamEnv) (rounds : ℕ) (s : StreamState) : Stage → Progress × StreamState
  | .bindParams => (.finished, asyncIoBindParams env s)
  | .cpuCopy => asyncIoCpuCopy env rounds s
  | .memcpyKernel blockDim => (.finished, hipFileMemcpyKernel env blockDim s)
  | .cleanup => (.finished, asyncIoCleanup env s)

/-- Run stages in stream order, up to the first that does not finish. -/
def runStages (env : StreamEnv) (rounds : ℕ) : List Stage → StreamState → Progress × StreamState
  | [], s => (.finished, s)
  | stage :: stages, s =>
    match stage.run env rounds s with
    | (.finished, s) => runStages env rounds stages s
    | r => r

/-- The stream's state when the first stage of a submitted op runs. -/
def Submission.streamState (sub : Submission) (op : AsyncOpFallback) (world : World)
    (bounce : Mem) : StreamState :=
  ⟨op, world, bounce, sub.monitor, sub.bytesTransferred, [], []⟩

/-- Everything that a request does once `async_io` has accepted it: its stages, in stream
order. Without an op, nothing runs. -/
def Submission.run (env : StreamEnv) (rounds : ℕ) (sub : Submission) (world : World)
    (bounce : Mem) : Option (Progress × StreamState) :=
  sub.op.map fun op =>
    runStages env rounds (sub.launches.map Launch.stage) (sub.streamState op world bounce)

end HipFile
