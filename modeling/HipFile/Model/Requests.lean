import HipFile.Lib.Interleaving
import HipFile.Lib.Machine
import HipFile.Model.AsyncStages
import HipFile.Model.Backend

/-!
# Requests of any callers, synchronous and asynchronous

`Requests.machine`: callers make synchronous requests, which are served by the backends
of the driver, and asynchronous ones, whose stages run later on streams. The actions of
all of them come in any order. The settings and the page size are those of the process.
-/

namespace HipFile

/-! ## Synchronous requests -/

/-- A call of `hipFileRead` or `hipFileWrite`, with the driver's state at its lookup, the
outcomes of the calls made for it, and what its backends find. -/
structure SyncRequest where
  type : IoType
  fh : ℕ
  bufferBase : ℕ
  size : ℕ
  fileOffset : ℤ
  bufferOffset : ℤ
  driver : DriverState
  queries : HipQueries
  sys : Sys
  hip : HipIo
  file : FileData
  dev : Mem
  hipInited : Bool

/-- The settings and the page size. -/
structure Process where
  pageSize : ℕ
  config : Configuration

namespace SyncRequest

variable (req : SyncRequest)

def env (p : Process) : Env := ⟨p.pageSize, p.config, req.sys, req.hip⟩

/-- The request before its backends. -/
def start : Served := ⟨⟨req.file, req.dev, .zero, [], req.hipInited⟩, [], none, false⟩

/-- What the function returns, and the request served. -/
def serve (p : Process) (rounds : ℕ) : IoResult × Served :=
  hipFileReadWrite req.queries req.driver req.type req.fh req.bufferBase req.size req.fileOffset
    req.bufferOffset (getBackends (req.env p) rounds) req.start

/-- What the request does: if it runs on after so many rounds, it does not return. -/
def actions (p : Process) (rounds : ℕ) : List Action :=
  let r := req.serve p rounds
  r.2.actions ++ if r.2.running then [] else [.returned r.2.path req.type r.1.ret]

end SyncRequest

/-! ## Asynchronous requests -/

/-- A call of `hipFileReadAsync` or `hipFileWriteAsync`: the driver's count, whether a
pointer is null, what the lookup gives, the outcomes of the HIP calls, and the address
that a new op gets. -/
structure AsyncCall where
  refCount : ℤ
  nullPointer : Bool
  lookup : Except Exn AsyncRequest
  hip : HipAsync
  addr : ℕ

/-- The `catch` clauses of `hipFileIOAsync`. -/
def ioAsyncCatch : Exn → HipFileError
  | .hipFileError e => e.error
  | .invalidArgument _ => ⟨.invalidValue, none⟩
  | .badAlloc => ⟨.hipDriverError, some .outOfMemory⟩
  | .fileNotRegistered => ⟨.handleNotRegistered, none⟩
  | e => handleException e

/-- `checkNull` -/
def checkNull (nullPointer : Bool) : Submit Unit :=
  if nullPointer then Prog.throw (.hipFileError ⟨⟨.invalidValue, none⟩, by decide⟩) else pure ()

/-- The lookup, which throws or finds the request's objects. -/
def lookupAsync (lookup : Except Exn AsyncRequest) : Submit AsyncRequest := fun s => (lookup, s)

/-- The `try` block of `hipFileIOAsync`, for an initialised driver. The fallback backend
is made on the spot, whatever the settings. -/
def hipFileIOAsyncTry (maxRwCount : ℕ) (c : AsyncCall) : Submit Unit := do
  checkNull c.nullPointer
  let req ← lookupAsync c.lookup
  Fallback.asyncIo maxRwCount c.hip c.addr req

/-- `hipFileIOAsync` -/
def hipFileIOAsync (maxRwCount : ℕ) (c : AsyncCall) (s : Submission) : HipFileError × Submission :=
  -- the driver is initialised for later calls, and this one is refused
  if c.refCount = 0 then (⟨.invalidValue, none⟩, s)
  else
    match hipFileIOAsyncTry maxRwCount c s with
    | (.ok _, s) => (hipFileSuccess, s)
    | (.error e, s) => (ioAsyncCatch e, s)

/-- An op on its stream, with the stages that are still to run. -/
structure OpStream where
  env : StreamEnv
  stages : List Stage
  state : StreamState

/-- The stream of a submission, if it has made an op. -/
def Submission.opStream (sub : Submission) (env : StreamEnv) (world : World) (bounce : Mem) :
    Option OpStream :=
  sub.op.map fun op => ⟨env, sub.launches.map Launch.stage, sub.streamState op world bounce⟩

/-- What a stage does that goes from one state to another. -/
def Stage.actions (stage : Stage) (s s' : StreamState) : List Action :=
  newCalls s.world s'.world ++ newCounts s.world s'.world ++
    match stage with
    | .memcpyKernel _ => [.kernel]
    | .cleanup => [.published s.op.ioType s'.bytesTransferred]
    | _ => []

/-! ## Runs -/

/-- Who performs actions: a caller in a function, or an op's stream. -/
inductive Party
  | caller (t : ℕ)
  | stream (o : ℕ)
  deriving DecidableEq, Repr

/-- The actions of all parties, the ops on their streams, the byte counters, and the
monitor. -/
structure Requests where
  actions : Interleaving Party Action
  streams : Table ℕ OpStream
  stats : Stats
  monitor : AsyncMonitor

namespace Requests

def init : Requests := ⟨.init, ∅, .zero, .init⟩

/-- The calls of the functions, the stages of the ops, the actions of the parties, and the
completion thread. -/
inductive Step
  | sync (t : ℕ) (req : SyncRequest) (rounds : ℕ)
  | async (t o : ℕ) (c : AsyncCall) (env : StreamEnv) (world : World) (bounce : Mem)
      (bytesTransferred : ℤ)
  | stage (o rounds : ℕ)
  | act (party : Party)
  | release

/-- The party has performed what it had to. -/
def idle (s : Requests) (party : Party) : Bool :=
  ((s.actions.pending.lookup party).getD []).isEmpty

/-- The call of an asynchronous function. -/
def submit (p : Process) (s : Requests) (t o : ℕ) (c : AsyncCall) (env : StreamEnv)
    (world : World) (bounce : Mem) (bytesTransferred : ℤ) : Requests :=
  let maxRwCount := getMaxRwCount p.pageSize
  let r := hipFileIOAsync maxRwCount c (.start s.monitor bytesTransferred)
  let env := { env with maxRwCount := maxRwCount, addr := c.addr }
  { s with
    actions := s.actions.put (.caller t) [.submitted r.1]
    streams :=
      match r.2.opStream env world bounce with
      | none => s.streams
      | some stream => s.streams.insert o stream
    monitor := r.2.monitor }

/-- The next stage of an op. A stage that does not finish is the last. -/
def runStage (s : Requests) (o : ℕ) (stream : OpStream) (stage : Stage) (stages : List Stage)
    (rounds : ℕ) : Requests :=
  let state := { stream.state with monitor := s.monitor }
  let r := stage.run stream.env rounds state
  { s with
    actions := s.actions.put (.stream o) (stage.actions state r.2)
    streams := s.streams.insert o { stream with
      stages := if r.1 = .finished then stages else []
      state := r.2 }
    monitor := r.2.monitor }

/-- One step, if it can be made. -/
def step (p : Process) (s : Requests) : Step → Option Requests
  | .sync t req rounds =>
    if s.idle (.caller t) then
      some { s with actions := s.actions.put (.caller t) (req.actions p rounds) }
    else none
  | .async t o c env world bounce bytesTransferred =>
    -- a new op gets an address that no op has
    if s.idle (.caller t) ∧ (s.streams.lookup o).isNone ∧ c.addr ∉ s.monitor.submittedOps then
      some (s.submit p t o c env world bounce bytesTransferred)
    else none
  | .stage o rounds =>
    match s.streams.lookup o with
    | none => none
    | some stream =>
      match stream.stages with
      | [] => none
      | stage :: stages =>
        if s.idle (.stream o) then some (s.runStage o stream stage stages rounds) else none
  | .act party =>
    (s.actions.perform party).map fun r =>
      { s with actions := r.2, stats := r.1.apply s.stats }
  | .release =>
    match s.monitor.completionThread with
    | .extract _ m => some { s with monitor := m }
    | _ => none

/-- **The requests of a process.** -/
def machine (p : Process) : Machine Requests Step := ⟨init, step p⟩

variable {p : Process} {s s' : Requests} {l : Step} {party : Party}

theorem idle_iff : s.idle party = true ↔ s.actions.Idle party := by
  unfold idle Interleaving.Idle
  cases s.actions.pending.lookup party with
  | none => simp
  | some acts => simp [List.isEmpty_iff]

/-- **What a step does**, by its label. -/
inductive Stepped (p : Process) (s : Requests) : Step → Requests → Prop
  | sync {t : ℕ} {req : SyncRequest} {rounds : ℕ} (hidle : s.actions.Idle (.caller t)) :
      Stepped p s (.sync t req rounds)
        { s with actions := s.actions.put (.caller t) (req.actions p rounds) }
  | async {t o : ℕ} {c : AsyncCall} {env : StreamEnv} {world : World} {bounce : Mem}
      {bytesTransferred : ℤ} (hidle : s.actions.Idle (.caller t)) :
      Stepped p s (.async t o c env world bounce bytesTransferred)
        (s.submit p t o c env world bounce bytesTransferred)
  | stage {o rounds : ℕ} {stream : OpStream} {stage : Stage} {stages : List Stage}
      (hstream : s.streams.lookup o = some stream) (hstages : stream.stages = stage :: stages)
      (hidle : s.actions.Idle (.stream o)) :
      Stepped p s (.stage o rounds) (s.runStage o stream stage stages rounds)
  | act {party : Party} {a : Action} {actions : Interleaving Party Action}
      (hperform : s.actions.perform party = some (a, actions)) :
      Stepped p s (.act party) { s with actions := actions, stats := a.apply s.stats }
  | release {m : AsyncMonitor} : Stepped p s .release { s with monitor := m }

theorem step_stepped (h : step p s l = some s') : Stepped p s l s' := by
  cases l with
  | sync t req rounds =>
    simp only [step, Option.ite_none_right_eq_some, Option.some.injEq] at h
    obtain ⟨hidle, rfl⟩ := h
    exact .sync (idle_iff.1 hidle)
  | async t o c env world bounce bytesTransferred =>
    simp only [step, Option.ite_none_right_eq_some, Option.some.injEq] at h
    obtain ⟨⟨hidle, -, -⟩, rfl⟩ := h
    exact .async (idle_iff.1 hidle)
  | stage o rounds =>
    simp only [step] at h
    split at h
    · cases h
    · rename_i stream hstream
      split at h
      · cases h
      · rename_i stage stages hstages
        simp only [Option.ite_none_right_eq_some, Option.some.injEq] at h
        obtain ⟨hidle, rfl⟩ := h
        exact .stage hstream hstages (idle_iff.1 hidle)
  | act party =>
    simp only [step, Option.map_eq_some_iff] at h
    obtain ⟨⟨a, actions⟩, hperform, rfl⟩ := h
    exact .act hperform
  | release =>
    simp only [step] at h
    split at h
    · cases h
      exact .release
    · cases h

end Requests

end HipFile
