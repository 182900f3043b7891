import HipFile.Model.AsyncStages
import HipFile.Model.StreamQueue

/-!
# What a HIP stream executes

The launches of a stream run one after the other, in the order in which they have been enqueued.
The stages of all ops work on the same files and on the same device memory; an op, its bounce
buffer and the client's `*bytes_transferred_p` are its own.

`Serial` is what the requests are for: one after another, each transferred as a whole.
-/

namespace HipFile

open Bytes Fallback

/-- What is an op's own: the op, its bounce buffer and the client's `*bytes_transferred_p`, with
the bytes that its stages have accessed. -/
structure OpMemory where
  op : AsyncOpFallback
  bounce : Mem
  bytesTransferred : ℤ
  bounceAccesses : List Span
  gpuAccesses : List Span

/-- The files by inode and the device memory. -/
structure Memory where
  files : ℕ → FileData
  dev : Mem

/-- What a stream finds and leaves. -/
structure DeviceState where
  memory : Memory
  stats : Stats
  trace : List Event
  hipInited : Bool
  monitor : AsyncMonitor
  ops : ℕ → Option OpMemory

/-- What the stages of each op find, and the inode of its file. -/
structure Runtime where
  env : ℕ → StreamEnv
  inode : ℕ → ℕ

namespace DeviceState

/-- What the stages of an op see. -/
def streamState (d : DeviceState) (inode : ℕ) (m : OpMemory) : StreamState where
  op := m.op
  world := ⟨d.memory.files inode, d.memory.dev, d.stats, d.trace, d.hipInited⟩
  bounce := m.bounce
  monitor := d.monitor
  bytesTransferred := m.bytesTransferred
  bounceAccesses := m.bounceAccesses
  gpuAccesses := m.gpuAccesses

/-- What a stage of an op leaves. -/
def put (d : DeviceState) (inode o : ℕ) (s : StreamState) : DeviceState where
  memory := ⟨Function.update d.memory.files inode s.world.file, s.world.dev⟩
  stats := s.world.stats
  trace := s.world.trace
  hipInited := s.world.hipInited
  monitor := s.monitor
  ops := Function.update d.ops o
    (some ⟨s.op, s.bounce, s.bytesTransferred, s.bounceAccesses, s.gpuAccesses⟩)

/-- The client's `*bytes_transferred_p` of an op. -/
def reported (d : DeviceState) (o : ℕ) : Option ℤ := (d.ops o).map OpMemory.bytesTransferred

end DeviceState

/-- Run a launch. -/
def runLaunch (rt : Runtime) (rounds : ℕ) (d : DeviceState) (x : Launch) : Progress × DeviceState :=
  match d.ops x.op with
  | none => (.fault, d)
  | some m =>
    let r := x.stage.run (rt.env x.op) rounds (d.streamState (rt.inode x.op) m)
    (r.1, d.put (rt.inode x.op) x.op r.2)

/-- Run the launches of a stream, up to the first that does not finish. -/
def runQueue (rt : Runtime) (rounds : ℕ) : List Launch → DeviceState → Progress × DeviceState
  | [], d => (.finished, d)
  | x :: xs, d =>
    match runLaunch rt rounds d x with
    | (.finished, d) => runQueue rt rounds xs d
    | r => r

/-- What `async_io` has left of an op. The bytes of a new bounce buffer are arbitrary. -/
def Streams.opMemory (maxRwCount : ℕ) (s : Streams) (bounce : ℕ → Mem) (o : ℕ) : Option OpMemory :=
  (s.ops o).bind fun op =>
    let sub := (asyncIo maxRwCount op.call.hip o op.request (.start .init 0)).2
    sub.op.map fun a => ⟨a, bounce o, sub.bytesTransferred, [], []⟩

end HipFile
