import HipFile.Lib.Prog
import HipFile.Model.AsyncMonitor
import HipFile.Model.Stream

/-!
# Asynchronous requests: the op and its submission

`Fallback.asyncIo` is `Fallback::async_io`: it checks the request, allocates the op
and its bounce buffer, hands the op to the monitor and enqueues its stages on the
stream. Every HIP call that may throw has its outcome in `HipAsync`; a launch that
throws enqueues nothing.
-/

namespace HipFile

/-- `std::variant<T, T *>`: a value, or a pointer into the client's memory. -/
inductive Variant (α : Type)
  | value (a : α)
  | pointer
  deriving DecidableEq, Repr

/-- `*get_variant_ptr(v)`, where the client's memory holds `client`. -/
def Variant.deref {α : Type} (client : α) : Variant α → α
  | .value a => a
  | .pointer => client

/-- `std::get_if<T>(&v)` -/
def Variant.get? {α : Type} : Variant α → Option α
  | .value a => some a
  | .pointer => none

/-- The client's `*size_p`, `*file_offset_p`, `*buffer_offset_p`. -/
structure Params where
  size : ℕ
  fileOffset : HoffT
  bufferOffset : HoffT

/-- Nothing is bound later: the three stream flags are set. -/
def IStream.allFixed (stream : IStream) : Bool :=
  stream.fixedBufferOffset && stream.fixedFileOffset && stream.fixedIOSize

/-- A request for asynchronous IO, with what the lookup gave. -/
structure AsyncRequest where
  type : IoType
  file : IFile
  buffer : Buffer
  stream : IStream
  params : Params

/-- `AsyncOpFallback`, with the fields of `AsyncOp`. -/
structure AsyncOpFallback where
  ioType : IoType
  file : IFile
  buffer : IBuffer
  stream : IStream
  size : Variant ℕ
  fileOffset : Variant ℤ
  bufferOffset : Variant ℤ
  submittedSize : ℕ
  bytesTransferredInternal : ℤ
  gpuBuffer : ℕ
  bounceBufferDevPtr : ℕ
  deriving DecidableEq, Repr

/-- `AsyncOp::AsyncOp` and `AsyncOpFallback::AsyncOpFallback`, when the bounce buffer
has been allocated. -/
def AsyncOpFallback.construct (maxRwCount : ℕ) (req : AsyncRequest) (bounceBufferDevPtr : ℕ) :
    AsyncOpFallback where
  ioType := req.type
  file := req.file
  buffer := req.buffer.toIBuffer
  stream := req.stream
  size := if req.stream.fixedIOSize then .value req.params.size else .pointer
  fileOffset := if req.stream.fixedFileOffset then .value req.params.fileOffset else .pointer
  bufferOffset := if req.stream.fixedBufferOffset then .value req.params.bufferOffset else .pointer
  submittedSize := min req.params.size maxRwCount
  bytesTransferredInternal := 0
  gpuBuffer := req.buffer.getBuffer
  bounceBufferDevPtr := bounceBufferDevPtr

/-- What is enqueued on a stream for an op. -/
inductive Stage
  | bindParams
  | cpuCopy
  | memcpyKernel (blockDim : ℕ)
  | cleanup
  deriving DecidableEq, Repr

/-- A stage of the op at an address. -/
structure Launch where
  op : ℕ
  stage : Stage
  deriving DecidableEq, Repr

/-- The places in `async_io` that launch something. -/
inductive LaunchSite
  | bindParams
  | cpuCopy
  | memcpyKernel
  | cleanup
  | cleanupAfterFailure
  deriving DecidableEq, Repr

/-- The outcomes of the HIP calls of `async_io`, by the place of the call. A device
pointer is not null, and a block holds at least one thread. -/
structure HipAsync where
  hipHostMallocOp : Except HipError Unit
  hipHostMallocBounce : Except HipError Unit
  hipHostGetDevicePointerBounce : Except HipError ℕ
  hipHostGetDevicePointerOp : Except HipError ℕ
  maxThreadsPerBlock : Except HipError ℕ
  launch : LaunchSite → Except HipError Unit
  bounce_nonnull : ∀ {p}, hipHostGetDevicePointerBounce = .ok p → p ≠ 0
  maxThreads_range : ∀ {n}, maxThreadsPerBlock = .ok n → 0 < n ∧ n < 2 ^ 31

/-- What a submission changes: the monitor, the op, the launches made and messages
logged by this call, and the client's `*bytes_transferred_p`. -/
structure Submission where
  monitor : AsyncMonitor
  op : Option AsyncOpFallback
  launches : List Launch
  syslog : List String
  bytesTransferred : ℤ

/-- Before the call. -/
def Submission.start (monitor : AsyncMonitor) (bytesTransferred : ℤ) : Submission :=
  ⟨monitor, none, [], [], bytesTransferred⟩

/-- A part of `async_io`. -/
abbrev Submit := Prog Exn Submission

namespace Fallback

/-- The outcome of a HIP call: `throwOnHipError`. -/
def hipCall {α : Type} (outcome : Except HipError α) : Submit α := fun s =>
  match outcome with
  | .ok a => (.ok a, s)
  | .error e => (.error (.hipRuntimeError e), s)

/-- `new AsyncOpFallback(...)` -/
def newOp (maxRwCount : ℕ) (hip : HipAsync) (req : AsyncRequest) : Submit AsyncOpFallback :=
  fun s =>
    match hip.hipHostMallocOp with
    | .error _ => (.error .badAlloc, s)
    | .ok _ =>
      (do
        hipCall hip.hipHostMallocBounce
        let devPtr ← hipCall hip.hipHostGetDevicePointerBounce
        return AsyncOpFallback.construct maxRwCount req devPtr : Submit AsyncOpFallback) s

/-- `AsyncMonitor::addOp` -/
def addOp (addr : ℕ) (op : AsyncOpFallback) : Submit Unit :=
  Prog.update fun s => { s with monitor := s.monitor.addOp addr, op := some op }

/-- `hipLaunchHostFunc`, `hipLaunchKernel` on the op's stream. -/
def launch (hip : HipAsync) (addr : ℕ) (site : LaunchSite) (stage : Stage) : Submit Unit := do
  hipCall (hip.launch site)
  Prog.update fun s => { s with launches := s.launches ++ [⟨addr, stage⟩] }

/-- The `try` block of `async_io`, without the lock of the stream. -/
def launchAll (hip : HipAsync) (addr : ℕ) (req : AsyncRequest) : Submit Unit := do
  let maxThreads ← hipCall hip.maxThreadsPerBlock
  -- `dim3` takes a `uint32_t`
  let blockDim := maxThreads % 2 ^ 32
  if ¬ req.stream.fixedBufferOffset ∨ ¬ req.stream.fixedFileOffset ∨ ¬ req.stream.fixedIOSize then
    launch hip addr .bindParams .bindParams
  match req.type with
  | .read =>
    launch hip addr .cpuCopy .cpuCopy
    launch hip addr .memcpyKernel (.memcpyKernel blockDim)
  | .write =>
    launch hip addr .memcpyKernel (.memcpyKernel blockDim)
    launch hip addr .cpuCopy .cpuCopy
  launch hip addr .cleanup .cleanup

/-- The launches of the `try` block before the cleanup, each with its place. -/
def transferLaunches (blockDim : ℕ) (req : AsyncRequest) : List (LaunchSite × Stage) :=
  (if req.stream.allFixed then [] else [(.bindParams, .bindParams)]) ++
    match req.type with
    | .read => [(.cpuCopy, .cpuCopy), (.memcpyKernel, .memcpyKernel blockDim)]
    | .write => [(.memcpyKernel, .memcpyKernel blockDim), (.cpuCopy, .cpuCopy)]

/-- The launches of the `try` block. -/
def pipeline (blockDim : ℕ) (req : AsyncRequest) : List (LaunchSite × Stage) :=
  transferLaunches blockDim req ++ [(.cleanup, .cleanup)]

/-- The message logged when the cleanup cannot be enqueued. -/
def leakMessage : String := "Unable to enqueue async cleanup function. This will leak memory."

/-- The inner `catch` clause. -/
def logLeak (_ : Exn) : Submit Unit :=
  Prog.update fun s => { s with syslog := s.syslog ++ [leakMessage] }

/-- The `catch` clause of `async_io`: it enqueues the cleanup, or logs, and rethrows. -/
def launchCleanupAfterFailure (hip : HipAsync) (addr : ℕ) (e : Exn) : Submit Unit := do
  Prog.catching (launch hip addr .cleanupAfterFailure .cleanup) logLeak
  Prog.throw e

/-- The part of `async_io` after the checks. `op->devPtr()` is called between the
`addOp` and the `try` block. -/
def submit (maxRwCount : ℕ) (hip : HipAsync) (addr : ℕ) (req : AsyncRequest) : Submit Unit := do
  let op ← newOp maxRwCount hip req
  addOp addr op
  -- outside the `try` block: a failure leaves the op with the monitor
  let _ ← hipCall hip.hipHostGetDevicePointerOp
  Prog.catching (launchAll hip addr req) (launchCleanupAfterFailure hip addr)

/-- The checks of `async_io`. -/
def asyncAccept (maxRwCount : ℕ) (req : AsyncRequest) : Except Exn Unit :=
  let limitedSize := min req.params.size maxRwCount
  if ¬ paramsValid req.buffer.toIBuffer limitedSize req.params.fileOffset
      req.params.bufferOffset then .error invalidRegion
  else if req.buffer.getGpuId ≠ req.stream.hipDevice then
    .error (.invalidArgument "Buffer GPU ID does not match Stream GPU ID")
  else .ok ()

/-- `Fallback::async_io`, whose op, if it is allocated, is at the address `addr`. -/
def asyncIo (maxRwCount : ℕ) (hip : HipAsync) (addr : ℕ) (req : AsyncRequest) : Submit Unit :=
  fun s =>
    match asyncAccept maxRwCount req with
    | .error e => (.error e, s)
    | .ok _ =>
      -- `*bytes_transferred_p` is written before the size is tested
      let s := { s with bytesTransferred := 0 }
      if req.params.size = 0 then (.ok (), s) else submit maxRwCount hip addr req s

end Fallback

end HipFile
