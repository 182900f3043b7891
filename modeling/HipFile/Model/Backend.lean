import HipFile.Model.Fallback
import HipFile.Model.Fastpath
import HipFile.Model.HipFile

/-!
# The backends of a request, and what a request does

`getBackends` are the backends of `DriverState::getBackends`: the fallback, and the fast
path, which hands a failed request over to the fallback.

A request is run on a world of its own. What of it others can see is its actions: the
calls made for it, the additions to the byte counters, and what is reported to the caller.
-/

namespace HipFile

def ENODEV : Errno := 19
def EREMOTEIO : Errno := 121

/-- The backend that bytes go through. -/
inductive Path
  | fastPath
  | fallbackPath
  deriving DecidableEq, Repr

/-! ## Counters -/

namespace Stats

/-- `Stats::getCounter` -/
def getCounter (st : Stats) : Path → IoType → ℕ
  | .fastPath, .read => st.totalFastPathReadBytes
  | .fastPath, .write => st.totalFastPathWriteBytes
  | .fallbackPath, .read => st.totalFallbackPathReadBytes
  | .fallbackPath, .write => st.totalFallbackPathWriteBytes

/-- The addition to a counter. -/
def add (st : Stats) (path : Path) (type : IoType) (bytes : ℕ) : Stats :=
  let sum := (st.getCounter path type + bytes) % wordModulus
  match path, type with
  | .fastPath, .read => { st with totalFastPathReadBytes := sum }
  | .fastPath, .write => { st with totalFastPathWriteBytes := sum }
  | .fallbackPath, .read => { st with totalFallbackPathReadBytes := sum }
  | .fallbackPath, .write => { st with totalFallbackPathWriteBytes := sum }

def zero : Stats := ⟨0, 0, 0, 0⟩

theorem getCounter_add (st : Stats) (path path' : Path) (type type' : IoType) (bytes : ℕ) :
    (st.add path type bytes).getCounter path' type' =
      if path = path' ∧ type = type' then (st.getCounter path' type' + bytes) % wordModulus
      else st.getCounter path' type' := by
  cases path <;> cases path' <;> cases type <;> cases type' <;> rfl

end Stats

/-! ## Actions -/

/-- What others can see of a request: a call made for it, a kernel that copies between its
buffers, an addition to a byte counter, and what is reported: the value that a synchronous
function returns, with the backend that it is from, the result of an asynchronous
function, and the `*bytes_transferred_p` of a completed op. -/
inductive Action
  | call (e : Event)
  | kernel
  | count (path : Path) (type : IoType) (bytes : ℕ)
  | returned (path : Option Path) (type : IoType) (ret : ℤ)
  | submitted (err : HipFileError)
  | published (type : IoType) (value : ℤ)

/-- What an action does to the counters. -/
def Action.apply (st : Stats) : Action → Stats
  | .count path type bytes => st.add path type bytes
  | _ => st

/-- The calls made on the way from one world to another. -/
def newCalls (w w' : World) : List Action := (w'.trace.drop w.trace.length).map Action.call

/-- The counters. -/
def counters : List (Path × IoType) :=
  [(.fastPath, .read), (.fastPath, .write), (.fallbackPath, .read), (.fallbackPath, .write)]

/-- What has been added to a counter on the way. -/
def added (w w' : World) (path : Path) (type : IoType) : ℕ :=
  toSizeT ((w'.stats.getCounter path type : ℤ) - w.stats.getCounter path type)

/-- The additions made to the counters on the way. -/
def newCounts (w w' : World) : List Action :=
  (counters.filter fun c => added w w' c.1 c.2 ≠ 0).map fun c =>
    .count c.1 c.2 (added w w' c.1 c.2)

/-- A request that is being served: its world, its actions, the backend that has returned,
and whether it is still running. -/
structure Served where
  world : World
  actions : List Action
  path : Option Path
  running : Bool

/-- A backend has gone from the world of the request to `w`. -/
def Served.after (v : Served) (w : World) : Served :=
  { v with world := w, actions := v.actions ++ (newCalls v.world w ++ newCounts v.world w) }

/-! ## Backends -/

/-- The fallback with `Backend::io`. Out of rounds, the request is still running. -/
def Fallback.backend (env : Env) (rounds : ℕ) : Backend Served where
  score _ buffer _ _ _ := Fallback.score env buffer
  io type file buffer size fileOffset bufferOffset v :=
    match Fallback.ioImplDefault env rounds type file buffer size fileOffset bufferOffset
        v.world with
    | .inl s => (.error (.runtimeError ""), { v.after s.world with running := true })
    | .inr (.ok n, w) => (.ok n, { v.after w with path := some .fallbackPath })
    | .inr (.error e, w) => (.error e, v.after w)

/-- `Fastpath::is_fallback_eligible` -/
def Fastpath.isFallbackEligible : Exn → Bool
  | .systemError code => code = ENODEV ∨ code = EREMOTEIO
  | _ => false

/-- `static_cast<int>` -/
def toInt (i : ℤ) : ℤ := (i + 2 ^ 31) % 2 ^ 32 - 2 ^ 31

/-- `Fastpath::_io_impl` on a request. -/
def Fastpath.serve (env : Env) (type : IoType) (file : IFile) (buffer : IBuffer) (size : ℕ)
    (fileOffset bufferOffset : ℤ) : Prog Exn Served ℤ := fun v =>
  match Fastpath.ioImpl env type file buffer size fileOffset bufferOffset v.world with
  | (.ok nbytes, w) => (.ok nbytes, { v.after w with path := some .fastPath })
  | (.error e, w) => (.error e, v.after w)

/-- A negative count is thrown. -/
def throwNegative (nbytes : ℤ) : Except Exn ℕ :=
  if nbytes < 0 then .error (.systemError (-toInt nbytes)) else .ok nbytes.toNat

/-- The fast path with `BackendWithFallback::io`, where `fallbackBackend` is registered. -/
def Fastpath.backend (env : Env) (fallbackBackend : Backend Served) : Backend Served where
  score file buffer size fileOffset bufferOffset :=
    Fastpath.score env file buffer size fileOffset bufferOffset
  io type file buffer size fileOffset bufferOffset v :=
    let r := Fastpath.serve env type file buffer size fileOffset bufferOffset v
    match r.1 >>= throwNegative with
    | .ok n => (.ok n, r.2)
    | .error e =>
      if Fastpath.isFallbackEligible e = true ∧
          0 ≤ fallbackBackend.score file buffer size fileOffset bufferOffset then
        fallbackBackend.io type file buffer size fileOffset bufferOffset r.2
      else (.error e, r.2)

/-- `DriverState::getBackends` -/
def getBackends (env : Env) (rounds : ℕ) : List (Backend Served) :=
  let fallbackBackend := Fallback.backend env rounds
  [fallbackBackend, Fastpath.backend env fallbackBackend]

end HipFile
