import HipFile.Lib.Machine
import HipFile.Model.AsyncIo

/-!
# Threads that submit to the same streams

The stream map, the `Stream` objects with their mutexes and the queues of the HIP
streams, under any number of calls of `async_io` that run at the same time. A call is
cut where another thread can come between: a lookup, each HIP call, taking the lock and
releasing it are one step each.

* `Streams.advance`: the next step of a call.
* `Streams.machine`: the streams under any interleaving.
-/

namespace HipFile

/-- A `Stream` object. Its address stands for its `mutex`. -/
structure StreamObject where
  addr : ℕ
  stream : IStream
  deriving DecidableEq, Repr

/-- What a call of `async_io` is made with, and the outcomes of its HIP calls. -/
structure SubmittedCall where
  queries : HipQueries
  hip : HipAsync
  type : IoType
  file : IFile
  buffer : Buffer
  params : Params
  hipStream : ℕ

/-- Where a call of `async_io` is. -/
inductive Phase
  /-- The lookup has given the stream. -/
  | found
  /-- In the `try` block, before the lock. -/
  | inTry
  | locking (launches : List (LaunchSite × Stage))
  /-- The lock is held, and these launches are still to be made. -/
  | launching (launches : List (LaunchSite × Stage))
  /-- A launch has thrown, and the lock is still held. -/
  | unwinding
  /-- In the `catch` clause. -/
  | failed
  | returned
  deriving DecidableEq, Repr

/-- A call of `async_io` that has looked up its stream. -/
structure SubmittedOp where
  object : StreamObject
  call : SubmittedCall
  phase : Phase

namespace SubmittedOp

/-- The request, with what the lookup gave. -/
def request (op : SubmittedOp) : AsyncRequest :=
  ⟨op.call.type, op.call.file, op.call.buffer, op.object.stream, op.call.params⟩

/-- `op->stream->getHipStream()` -/
def hipStream (op : SubmittedOp) : ℕ := op.object.stream.hipStream

/-- The request is accepted and asks for something, and the op is allocated. -/
def reachesTry (maxRwCount : ℕ) (op : SubmittedOp) : Bool :=
  (Fallback.asyncAccept maxRwCount op.request).isOk && decide (op.call.params.size ≠ 0) &&
    op.call.hip.hipHostMallocOp.isOk && op.call.hip.hipHostMallocBounce.isOk &&
    op.call.hip.hipHostGetDevicePointerBounce.isOk && op.call.hip.hipHostGetDevicePointerOp.isOk

end SubmittedOp

/-- The stream map, the number of `Stream` objects constructed so far, the owners of their
mutexes, the calls of `async_io` and what has been enqueued on each HIP stream. -/
structure Streams where
  fromPtr : ℕ → Option StreamObject
  constructed : ℕ
  owner : ℕ → Option ℕ
  ops : ℕ → Option SubmittedOp
  queue : ℕ → List Launch

namespace Streams

def init : Streams := ⟨fun _ => none, 0, fun _ => none, fun _ => none, fun _ => []⟩

def setPhase (s : Streams) (o : ℕ) (op : SubmittedOp) (p : Phase) : Streams :=
  { s with ops := Function.update s.ops o (some { op with phase := p }) }

def setOwner (s : Streams) (mutex : ℕ) (o : Option ℕ) : Streams :=
  { s with owner := Function.update s.owner mutex o }

def enqueue (s : Streams) (hipStream : ℕ) (launch : Launch) : Streams :=
  { s with queue := Function.update s.queue hipStream (s.queue hipStream ++ [launch]) }

/-- `new Stream(hip_stream, flags, ...)` -/
def construct (s : Streams) (hip : HipQueries) (hipStream flags : ℕ) :
    Except Exn (StreamObject × Streams) :=
  match Stream.construct hip hipStream flags with
  | .error e => .error e
  | .ok stream => .ok (⟨s.constructed, stream⟩, { s with constructed := s.constructed + 1 })

/-- `StreamMap::registerStream` -/
def registerStream (s : Streams) (hip : HipQueries) (hipStream flags : ℕ) : Streams :=
  if (s.fromPtr hipStream).isSome then s
  else
    match s.construct hip hipStream flags with
    | .error _ => s
    | .ok (object, s) => { s with fromPtr := Function.update s.fromPtr hipStream (some object) }

/-- `StreamMap::deregisterStream`. Calls that have the object keep it. -/
def deregisterStream (s : Streams) (hipStream : ℕ) : Streams :=
  { s with fromPtr := Function.update s.fromPtr hipStream none }

/-- `StreamMap::getStream`: for a stream that is not registered, each lookup constructs an
object of its own. -/
def getStream (s : Streams) (hip : HipQueries) (hipStream : ℕ) :
    Except Exn (StreamObject × Streams) :=
  match s.fromPtr hipStream with
  | none => s.construct hip hipStream 0
  | some object => .ok (object, s)

/-- The lookup of a call of `async_io`, in `getFileBufferAndStream`. -/
def submit (s : Streams) (o : ℕ) (call : SubmittedCall) : Option Streams :=
  if (s.ops o).isSome then none
  else
    match s.getStream call.queries call.hipStream with
    | .error _ => some s
    | .ok (object, s) =>
      some { s with ops := Function.update s.ops o (some ⟨object, call, .found⟩) }

/-- `Fallback::async_io`: the next step of a call. -/
def advance (maxRwCount : ℕ) (s : Streams) (o : ℕ) : Option Streams :=
  match s.ops o with
  | none => none
  | some op =>
    match op.phase with
    | .found =>
      some (s.setPhase o op (if op.reachesTry maxRwCount then .inTry else .returned))
    | .inTry =>
      match op.call.hip.maxThreadsPerBlock with
      | .ok n => some (s.setPhase o op (.locking (Fallback.pipeline (n % 2 ^ 32) op.request)))
      | .error _ => some (s.setPhase o op .failed)
    | .locking launches =>
      -- `stream->getLock()` waits until the mutex is free
      if s.owner op.object.addr = none then
        some ((s.setOwner op.object.addr (some o)).setPhase o op (.launching launches))
      else none
    | .launching (p :: launches) =>
      match op.call.hip.launch p.1 with
      | .ok _ => some ((s.enqueue op.hipStream ⟨o, p.2⟩).setPhase o op (.launching launches))
      | .error _ => some (s.setPhase o op .unwinding)
    | .launching [] => some ((s.setOwner op.object.addr none).setPhase o op .returned)
    -- `stream_lock` is destroyed before the `catch` clause is entered
    | .unwinding => some ((s.setOwner op.object.addr none).setPhase o op .failed)
    | .failed =>
      match op.call.hip.launch .cleanupAfterFailure with
      | .ok _ => some ((s.enqueue op.hipStream ⟨o, .cleanup⟩).setPhase o op .returned)
      | .error _ => some (s.setPhase o op .returned)
    | .returned => none

/-- The steps that any thread may take. -/
inductive Call
  | registerStream (hip : HipQueries) (hipStream flags : ℕ)
  | deregisterStream (hipStream : ℕ)
  | submit (o : ℕ) (call : SubmittedCall)
  | advance (o : ℕ)

def step (maxRwCount : ℕ) (s : Streams) : Call → Option Streams
  | .registerStream hip hipStream flags => some (s.registerStream hip hipStream flags)
  | .deregisterStream hipStream => some (s.deregisterStream hipStream)
  | .submit o call => s.submit o call
  | .advance o => s.advance maxRwCount o

/-- The streams under any interleaving of any number of calls. -/
def machine (maxRwCount : ℕ) : Machine Streams Call where
  init := init
  step := step maxRwCount

/-! ## Where the lock does not help -/

/-- The op has enqueued something. -/
def HasLaunched (s : Streams) (o : ℕ) (op : SubmittedOp) : Prop :=
  ∃ launch ∈ s.queue op.hipStream, launch.op = o

end Streams

/-- The lock is held and a launch is still to be made. -/
def Phase.Launching (p : Phase) : Prop := ∃ q l, p = .launching (q :: l)

/-- A HIP call of the `try` block has thrown, and the `catch` clause is still to be run. -/
def Phase.Thrown (p : Phase) : Prop := p = .unwinding ∨ p = .failed

namespace Streams

/-- What may go on when a call takes the lock of its `Stream` object: no other op of the
same HIP stream launches under the lock of another object, and none that has enqueued
something still has its `catch` clause to run. -/
def MayLock (s : Streams) (o : ℕ) (op : SubmittedOp) : Prop :=
  ∀ o' op', o' ≠ o → s.ops o' = some op' → op'.hipStream = op.hipStream →
    (op'.phase.Launching → op'.object.addr = op.object.addr) ∧
      ¬ (op'.phase.Thrown ∧ s.HasLaunched o' op')

/-- What may go on when a `catch` clause enqueues the cleanup: no other op of the same HIP
stream that has enqueued something has more to enqueue. -/
def MayCleanUp (s : Streams) (o : ℕ) (op : SubmittedOp) : Prop :=
  ∀ o' op', o' ≠ o → s.ops o' = some op' → op'.hipStream = op.hipStream →
    ¬ ((op'.phase.Launching ∨ op'.phase.Thrown) ∧ s.HasLaunched o' op')

/-- A lock is taken only when `MayLock` holds, and a `catch` clause is run only when
`MayCleanUp` does. -/
def LockSuffices (s : Streams) : Call → Prop
  | .advance o => ∀ op, s.ops o = some op →
      (∀ l, op.phase = .locking l → s.MayLock o op) ∧ (op.phase = .failed → s.MayCleanUp o op)
  | _ => True

end Streams

end HipFile
