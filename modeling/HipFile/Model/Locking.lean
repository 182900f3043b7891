import HipFile.Lib.Parties
import HipFile.Lib.Waiting

/-!
# The locks of the library, and what its threads wait for

Of every function, what may block: the locks that it takes and gives back, the work that it
launches on a stream, the HIP calls that wait for the streams, and the condition variable of the
`AsyncMonitor`. The callers, the streams of the device and the completion thread are parties
that share the locks and the queues; the outcomes of the other calls decide which of its ways a
function takes, and are part of the call.
-/

namespace HipFile.Locking

open Waiting

/-- `BatchContextMap::batch_mutex`, `BatchContext::context_mutex`, `DriverState::state_mutex`,
`Stream::mutex` and `AsyncMonitor::mutex`. -/
inductive Lock
  | batch
  | context (c : ℕ)
  | state
  | stream (s : ℕ)
  | monitor
  deriving DecidableEq, Repr

inductive Mode
  | shared
  | exclusive
  deriving DecidableEq, Repr

/-- What is launched on a stream. `compute` is the kernel, `async_io_bind_params` or
`async_io_cpu_copy`, which take no lock. A cleanup may leave the completion thread the last to
hold its op, or find that the op is not in `submitted_ops`. -/
inductive Work
  | compute
  | cleanup (last : Bool)
  | cleanupUnknown
  deriving DecidableEq, Repr

/-- The operations of the parties, on streams `τ`. -/
inductive Op (τ : Type)
  | lock (l : Lock) (m : Mode)
  | unlock (l : Lock)
  | launch (t : τ) (w : Work)
  /-- `hipHostFree`, `hipMemcpy`, `hipStreamSynchronize`: they wait for the streams. -/
  | synchronize
  | pushCompleted (last : Bool)
  | setFinished
  | notifyOne
  | join
  /-- A stream has done the first work of its queue. -/
  | done (t : τ)
  /-- The completion thread at the top of its loop, with the lock. -/
  | check
  /-- The completion thread in `cv.wait`, without the lock and with it. -/
  | sleep
  | recheck
  /-- The completion thread returns. -/
  | exit
  deriving DecidableEq, Repr

variable {τ : Type}

/-! ## The functions -/

/-- The scope of a `unique_lock`, `shared_lock` or `lock_guard`. -/
def withLock (l : Lock) (m : Mode) (body : List (Op τ)) : List (Op τ) :=
  .lock l m :: (body ++ [.unlock l])

namespace DriverState

/-- The functions that change the state under its lock. -/
def exclusive : List (Op τ) := withLock .state .exclusive []

/-- The functions that look something up. -/
def shared : List (Op τ) := withLock .state .shared []

def registerBuffer : List (Op τ) := exclusive
def deregisterBuffer : List (Op τ) := exclusive
def registerFile : List (Op τ) := exclusive
def deregisterFile : List (Op τ) := exclusive
def registerStream : List (Op τ) := exclusive
def deregisterStream : List (Op τ) := exclusive
def incrRefCount : List (Op τ) := exclusive
def decrRefCount : List (Op τ) := exclusive
def ensureInitialized : List (Op τ) := exclusive
def getFileAndBuffer : List (Op τ) := shared
def getFileBufferAndStream : List (Op τ) := shared
def getRefCount : List (Op τ) := shared

end DriverState

namespace BatchContextMap

def createContext : List (Op τ) := withLock .batch .exclusive []
def get : List (Op τ) := withLock .batch .shared []

end BatchContextMap

/-- `BatchContext::submit_operations` of the context `c`, which looks `n` operations up before it
returns or throws. -/
def BatchContext.submitOperations (c n : ℕ) : List (Op τ) :=
  withLock (.context c) .exclusive (List.replicate n DriverState.getFileAndBuffer).flatten

namespace AsyncMonitor

def addOp : List (Op τ) := withLock .monitor .exclusive []

/-- `AsyncMonitor::completeOp`, which notifies after the scope of its lock. -/
def completeOp (last : Bool) : List (Op τ) :=
  withLock .monitor .exclusive [.pushCompleted last] ++ [.notifyOne]

/-- `AsyncMonitor::completeOp` of an op that is not in `submitted_ops`. -/
def completeOpThrows : List (Op τ) := withLock .monitor .exclusive []

/-- `AsyncMonitor::~AsyncMonitor` -/
def destructor : List (Op τ) :=
  withLock .monitor .exclusive [.setFinished] ++ [.notifyOne, .join]

/-- `AsyncMonitor::completion_thread`, from the top of its loop. -/
def completionThread : List (Op τ) := [.lock .monitor .exclusive, .check]

end AsyncMonitor

/-- What a stream does for a work of its queue. -/
def Work.ops : Work → List (Op τ)
  | .compute => []
  | .cleanup last => AsyncMonitor.completeOp last
  | .cleanupUnknown => AsyncMonitor.completeOpThrows

/-- The ways of `Fallback::async_io`. -/
inductive AsyncPath (τ : Type)
  /-- It throws or returns before it has an op. -/
  | noOp
  /-- The bounce buffer has no device address, and is freed. -/
  | noBounceBuffer
  /-- The op is added, and has no device address. -/
  | noDevPtr
  /-- `hipDeviceGetAttribute` throws: the cleanup is launched, or not. -/
  | noAttribute (t : τ) (cleanup : List Work) (last : Bool)
  /-- Work is launched under the lock of the stream. If a launch throws, the cleanup is launched
  after the lock is given back, or not. -/
  | launched (s : ℕ) (t : τ) (works cleanup : List Work) (last : Bool)

/-- The end of the scope of `op`, which frees it if nobody else holds it. One wait stands for the
two calls of `hipHostFree`, that of its bounce buffer and that of the op itself. -/
def dropOp (last : Bool) : List (Op τ) := if last then [.synchronize] else []

/-- `Fallback::async_io` -/
def Fallback.asyncIo : AsyncPath τ → List (Op τ)
  | .noOp => []
  | .noBounceBuffer => [.synchronize]
  | .noDevPtr => AsyncMonitor.addOp
  | .noAttribute t cleanup last => AsyncMonitor.addOp ++ cleanup.map (.launch t) ++ dropOp last
  | .launched s t works cleanup last =>
    AsyncMonitor.addOp ++ withLock (.stream s) .exclusive (works.map (.launch t)) ++
      cleanup.map (.launch t) ++ dropOp last

/-- The calls of the public functions, with the ways they take. -/
inductive ApiCall (τ : Type)
  | hipFileHandleRegister (constructed : Bool)
  | hipFileHandleDeregister
  | hipFileBufRegister
  | hipFileBufDeregister
  | hipFileDriverOpen
  | hipFileDriverClose (isOpen : Bool)
  | hipFileUseCount
  /-- `hipFileRead`, `hipFileWrite`, whose backend makes so many calls that wait for streams. -/
  | hipFileIo (waits : ℕ)
  /-- `hipFileReadAsync`, `hipFileWriteAsync` on a driver that is not initialised, with a null
  pointer, with a lookup that throws, and with one that does not. -/
  | asyncUninitialised
  | asyncNull
  | asyncNotFound
  | async (path : AsyncPath τ)
  | hipFileStreamRegister
  | hipFileStreamDeregister
  | hipFileBatchIOSetUp (accepted : Bool)
  | hipFileBatchIOSubmit (context : Option ℕ) (lookups : ℕ)
  /-- The end of the process. -/
  | endOfProcess

/-- What a call does. -/
def ApiCall.ops : ApiCall τ → List (Op τ)
  | .hipFileHandleRegister constructed => if constructed then DriverState.registerFile else []
  | .hipFileHandleDeregister => DriverState.deregisterFile
  | .hipFileBufRegister => DriverState.registerBuffer
  | .hipFileBufDeregister => DriverState.deregisterBuffer
  | .hipFileDriverOpen => DriverState.incrRefCount
  | .hipFileDriverClose isOpen =>
    DriverState.getRefCount ++ if isOpen then DriverState.decrRefCount else []
  | .hipFileUseCount => DriverState.getRefCount
  | .hipFileIo waits => DriverState.getFileAndBuffer ++ List.replicate waits .synchronize
  | .asyncUninitialised => DriverState.getRefCount ++ DriverState.ensureInitialized
  | .asyncNull => DriverState.getRefCount
  | .asyncNotFound => DriverState.getRefCount ++ DriverState.getFileBufferAndStream
  | .async path =>
    DriverState.getRefCount ++ DriverState.getFileBufferAndStream ++ Fallback.asyncIo path
  | .hipFileStreamRegister => DriverState.registerStream
  | .hipFileStreamDeregister => DriverState.deregisterStream
  | .hipFileBatchIOSetUp accepted => if accepted then BatchContextMap.createContext else []
  | .hipFileBatchIOSubmit none _ => BatchContextMap.get
  | .hipFileBatchIOSubmit (some c) lookups =>
    BatchContextMap.get ++ BatchContext.submitOperations c lookups
  | .endOfProcess => AsyncMonitor.destructor

/-! ## The parties -/

inductive Party (ι τ : Type)
  | caller (i : ι)
  | stream (t : τ)
  | completionThread
  deriving DecidableEq, Repr

/-- What a party has to do, and the locks that it holds, the last one taken first. -/
structure Agent (τ : Type) where
  ops : List (Op τ)
  held : List Lock

/-- The locks with the parties that hold them, the queues of the streams, `completed_ops` from
its back, `is_finished`, whether the completion thread sleeps and has been notified, and whether
it has returned. -/
structure Shared (ι τ : Type) where
  owners : Lock → List (Party ι τ × Mode)
  queues : τ → List Work
  completedOps : List Bool
  isFinished : Bool
  asleep : Bool
  notified : Bool
  exited : Bool

/-- How many works a queue takes before a launch waits, whom a lock that is held lets in, and
whether the completion thread gives its lock back before it frees an op, as the source does. -/
structure Policy where
  capacity : ℕ
  admits : Mode → List Mode → Bool
  unlocksFirst : Bool

variable {ι : Type} [DecidableEq ι] [DecidableEq τ] [Fintype τ]

/-- A lock without the holds of a party. -/
def Shared.release (s : Shared ι τ) (p : Party ι τ) (l : Lock) : Shared ι τ :=
  { s with owners := Function.update s.owners l ((s.owners l).filter fun o => o.1 ≠ p) }

/-- The completion thread goes to sleep: it gives the lock back with that. -/
def Shared.sleep (s : Shared ι τ) (p : Party ι τ) : Shared ι τ :=
  { s.release p .monitor with asleep := true, notified := false }

/-- The completion thread, with the lock, at the top of its loop. -/
def Shared.check (pol : Policy) (p : Party ι τ) (s : Shared ι τ) :
    Shared ι τ × Agent τ :=
  match s.completedOps with
  | last :: rest =>
    let free : List (Op τ) := dropOp last
    let unlock : List (Op τ) := [.unlock .monitor]
    ({ s with completedOps := rest },
      ⟨(if pol.unlocksFirst then unlock ++ free else free ++ unlock) ++
        AsyncMonitor.completionThread, [.monitor]⟩)
  | [] =>
    if s.isFinished then (s, ⟨[.unlock .monitor, .exit], [.monitor]⟩)
    else (s.sleep p, ⟨[.sleep], []⟩)

/-- The completion thread, with the lock, at the predicate of `cv.wait`. -/
def Shared.recheck (p : Party ι τ) (s : Shared ι τ) : Shared ι τ × Agent τ :=
  if s.isFinished ∨ s.completedOps ≠ [] then
    (s, ⟨.unlock .monitor :: AsyncMonitor.completionThread, [.monitor]⟩)
  else (s.sleep p, ⟨[.sleep], []⟩)

/-- An operation of a party, with what it has to do after it. -/
def Op.step (pol : Policy) (p : Party ι τ) (s : Shared ι τ) (ops : List (Op τ))
    (held : List Lock) : Op τ → Option (Shared ι τ × Agent τ)
  | .lock l m =>
    if pol.admits m ((s.owners l).map Prod.snd) then
      some ({ s with owners := Function.update s.owners l ((p, m) :: s.owners l) },
        ⟨ops, l :: held⟩)
    else none
  | .unlock l => some (s.release p l, ⟨ops, held.tail⟩)
  | .launch t w =>
    if (s.queues t).length < pol.capacity then
      some ({ s with queues := Function.update s.queues t (s.queues t ++ [w]) }, ⟨ops, held⟩)
    else none
  | .synchronize => if ∀ t, s.queues t = [] then some (s, ⟨ops, held⟩) else none
  | .pushCompleted last => some ({ s with completedOps := last :: s.completedOps }, ⟨ops, held⟩)
  | .setFinished => some ({ s with isFinished := true }, ⟨ops, held⟩)
  | .notifyOne => some ({ s with notified := s.asleep || s.notified }, ⟨ops, held⟩)
  | .join => if s.exited then some (s, ⟨ops, held⟩) else none
  | .done t => some ({ s with queues := Function.update s.queues t (s.queues t).tail }, ⟨ops, held⟩)
  | .check => some (s.check pol p)
  | .sleep =>
    if s.notified then
      some ({ s with asleep := false, notified := false },
        ⟨[.lock .monitor .exclusive, .recheck], held⟩)
    else none
  | .recheck => some (s.recheck p)
  | .exit => some ({ s with exited := true }, ⟨ops, held⟩)

/-- A move of a party. A stream without anything to do starts with the first work of its queue. -/
def step (pol : Policy) (p : Party ι τ) (s : Shared ι τ) (a : Agent τ) :
    Option (Shared ι τ × Agent τ) :=
  match a.ops with
  | op :: ops => op.step pol p s ops a.held
  | [] =>
    match p with
    | .stream t =>
      match s.queues t with
      | w :: _ => some (s, ⟨w.ops ++ [.done t], a.held⟩)
      | [] => none
    | _ => none

/-- What the parties have to do at first, for the calls that each caller makes. -/
def start (calls : ι → List (ApiCall τ)) : Party ι τ → Agent τ
  | .caller i => ⟨(calls i).flatMap ApiCall.ops, []⟩
  | .stream _ => ⟨[], []⟩
  | .completionThread => ⟨AsyncMonitor.completionThread, []⟩

/-- **Callers, streams and the completion thread.** -/
def parties (pol : Policy) (calls : ι → List (ApiCall τ)) :
    Parties (Party ι τ) (Shared ι τ) (Agent τ) where
  init := ⟨fun _ => [], fun _ => [], [], false, false, false, false⟩
  start := start calls
  step := step pol

end HipFile.Locking
