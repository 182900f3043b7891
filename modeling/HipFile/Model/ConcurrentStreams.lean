import HipFile.Lib.Separate
import HipFile.Model.StreamExecution

/-!
# Streams that execute at the same time

Every HIP stream executes its launches in their order, and several streams do so at the same
time. They share the files, the device memory and the monitor; the ops and their bounce buffers
are of one stream each, and so is the order of its calls.

A stage is cut where another stream can come between: a round of the copy makes one system call,
and the kernel copies one word, or one byte, at a time.
-/

namespace HipFile

open Bytes

/-- What a stream is doing with the first of its launches, with the locals of the stage. -/
inductive Activity
  | idle
  | copying (size : ℕ) (fileOffset : ℤ) (bytesTransferred : ℕ)
  | kernel (bufferOffset : ℤ) (spans : List Span)

/-! ## A stage, step by step -/

/-- `async_io_cpu_copy`, up to its loop. -/
def copyStart (s : StreamState) : Option (StreamState × Option Activity) :=
  match s.op.size, s.op.fileOffset with
  | .value size, .value fileOffset =>
    if s.op.bytesTransferredInternal < 0 then some (s, none)
    else some (s, some (.copying size fileOffset 0))
  -- `std::get` of a variant that is not bound
  | _, _ => none

/-- A round of the loop of `async_io_cpu_copy`. -/
def copyNext (env : StreamEnv) (size : ℕ) (fileOffset : ℤ) (bytesTransferred : ℕ)
    (s : StreamState) : StreamState × Option Activity :=
  match copyRound env size fileOffset ⟨s, bytesTransferred⟩ with
  | .inl c => (c.state, some (.copying size fileOffset c.bytesTransferred))
  | .inr s => (s, none)

/-- `hipFileMemcpyKernel`, up to its loops. -/
def kernelStart (env : StreamEnv) (blockDim : ℕ) (s : StreamState) :
    StreamState × Option Activity :=
  if s.op.bytesTransferredInternal < 0 then (s, none)
  else
    match s.op.size, s.op.bufferOffset with
    | .value opSize, .value bufferOffset =>
      if s.op.bounceBufferDevPtr = 0 ∨ s.op.gpuBuffer = 0 then
        (s.setInternal invalidValueStatus, none)
      else
        let size := match s.op.ioType with
          | .read => toSizeT s.op.bytesTransferredInternal
          | .write => opSize
        (s, some (.kernel bufferOffset (env.order (kernelSpans blockDim size))))
    | _, _ => (s.setInternal invalidValueStatus, none)

/-- A thread of `hipFileMemcpyKernel` copies a word or a byte. -/
def kernelCopy (env : StreamEnv) (bufferOffset : ℤ) (sp : Span) (s : StreamState) : StreamState :=
  let region := (s.op.gpuBuffer + toSizeT bufferOffset) % wordModulus
  let s := { s with
    bounceAccesses := s.bounceAccesses ++ [sp]
    gpuAccesses := s.gpuAccesses ++ [sp.shift (toSizeT bufferOffset)] }
  match s.op.ioType with
  | .read =>
    { s with world := { s.world with
        dev := copySpans s.world.dev region (s.view env) 0 [sp] } }
  | .write => { s with bounce := copySpans s.bounce 0 s.world.dev region [sp] }

/-- A stage goes on: with what is left of it, or `none` at its end. -/
def Stage.next (env : StreamEnv) (stage : Stage) (activity : Activity) (s : StreamState) :
    Option (StreamState × Option Activity) :=
  match stage, activity with
  | .bindParams, _ => some (asyncIoBindParams env s, none)
  | .cleanup, _ => some (asyncIoCleanup env s, none)
  | .cpuCopy, .copying size fileOffset bytesTransferred =>
    some (copyNext env size fileOffset bytesTransferred s)
  | .cpuCopy, _ => copyStart s
  | .memcpyKernel _, .kernel bufferOffset (sp :: spans) =>
    some (kernelCopy env bufferOffset sp s, some (.kernel bufferOffset spans))
  | .memcpyKernel _, .kernel _ [] => some (s, none)
  | .memcpyKernel blockDim, _ => some (kernelStart env blockDim s)

/-! ## Streams -/

/-- What the streams share. -/
structure SharedState where
  memory : Memory
  stats : Stats
  monitor : AsyncMonitor

/-- What is a stream's own: the launches that are still to be executed, and the rest. -/
structure StreamThread where
  queue : List Launch
  activity : Activity
  trace : List Event
  hipInited : Bool
  ops : ℕ → Option OpMemory

namespace DeviceState

def shared (d : DeviceState) : SharedState := ⟨d.memory, d.stats, d.monitor⟩

/-- A stream with these launches left. -/
def thread (d : DeviceState) (queue : List Launch) (activity : Activity) : StreamThread :=
  ⟨queue, activity, d.trace, d.hipInited, d.ops⟩

end DeviceState

namespace StreamThread

/-- What a stream sees. -/
def device (t : StreamThread) (u : SharedState) : DeviceState :=
  ⟨u.memory, u.stats, t.trace, t.hipInited, u.monitor, t.ops⟩

/-- A stream goes on with the first of its launches. -/
def step (rt : Runtime) (u : SharedState) (t : StreamThread) :
    Option (SharedState × StreamThread) :=
  match t.queue with
  | [] => none
  | x :: xs =>
    match t.ops x.op with
    | none => none
    | some m =>
      (x.stage.next (rt.env x.op) t.activity ((t.device u).streamState (rt.inode x.op) m)).map
        fun r =>
          let d := (t.device u).put (rt.inode x.op) x.op r.1
          match r.2 with
          | some activity => (d.shared, d.thread (x :: xs) activity)
          | none => (d.shared, d.thread xs .idle)

/-- The client's `*bytes_transferred_p` of an op. -/
def reported (t : StreamThread) (o : ℕ) : Option ℤ := (t.ops o).map OpMemory.bytesTransferred

end StreamThread

/-- **All streams at once**, from what they find. -/
def Streams.parties (st : Streams) (rt : Runtime) (d : DeviceState) :
    Parties ℕ SharedState StreamThread where
  init := d.shared
  start hipStream := d.thread (st.queue hipStream) .idle
  step _ := StreamThread.step rt

end HipFile
