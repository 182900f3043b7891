import HipFile.Lib.Parties
import HipFile.Model.Fallback

/-!
# Requests of several threads, call by call

Threads serve requests by `Fallback::_io_impl` at the same time. They share the files, the
device memory, the byte counters and the order of the calls; a bounce buffer and the bytes
counted so far are a thread's own. Between two calls of one thread any number of calls of the
others may come.

`step` is `_io_impl` from one call to the next: `Point` names the next call.
-/

namespace HipFile.Fallback

/-- A request to the fallback, with the file that its descriptor stands for. -/
structure Request where
  type : IoType
  file : IFile
  inode : ℕ
  buffer : Buffer
  size : ℕ
  fileOffset : HoffT
  bufferOffset : HoffT
  chunkSize : ℕ

/-- The size after `min(size, hipFile::getMaxRwCount())`. -/
def Request.limit (req : Request) (env : Env) : ℕ := min req.size env.maxRwCount

/-- The next call of a thread: at `first` a round starts, with its `pread` or its copy from the
device. -/
inductive Point
  | mmap
  | first
  | hostToDevice (ioBytes : ℕ)
  | streamSynchronize
  | pwrite
  | fdatasync (ioBytes : ℕ)
  | count
  | ended (result : Except Exn ℕ)
  deriving DecidableEq

/-- The test of the `do … while`. -/
def test (size : ℕ) (s : LoopState) : LoopState × Point :=
  (s, if s.totalIoBytes < size then .first else .count)

/-- The end of a round whose transfer has moved `ioBytes`. -/
def counted (size ioBytes : ℕ) (s : LoopState) : LoopState × Point :=
  let s := { s with totalIoBytes := s.totalIoBytes + ioBytes }
  if ioBytes = 0 then (s, .count) else test size s

/-- The `catch` of a round. -/
def caught (size : ℕ) (e : Exn) (s : LoopState) : LoopState × Point :=
  if e = .systemError EINTR then test size s else (s, .ended (.error e))

/-- Go on after a call of a round, unless it has thrown. -/
def after {α : Type} (size : ℕ) (r : Except Exn α × LoopState)
    (k : α → LoopState → LoopState × Point) : LoopState × Point :=
  match r with
  | (.ok a, s) => k a s
  | (.error e, s) => caught size e s

/-- The count of the round that the state is in. -/
def Request.roundCount (req : Request) (env : Env) (s : LoopState) : ℕ :=
  min req.chunkSize (req.limit env - s.totalIoBytes)

/-- The file offset of the round that the state is in. -/
def Request.roundOffset (req : Request) (s : LoopState) : ℤ :=
  req.fileOffset.val + s.totalIoBytes

/-- The device address of the round that the state is in. -/
def Request.roundDevice (req : Request) (s : LoopState) : ℕ :=
  devicePosition req.buffer.toIBuffer req.bufferOffset s.totalIoBytes

/-- The first call of a round. -/
def firstCall (env : Env) (req : Request) (s : LoopState) : LoopState × Point :=
  let size := req.limit env
  let count := req.roundCount env s
  match req.type with
  | .read =>
    after size (pread env req.file.bufferedFd count (req.roundOffset s) s) fun ioBytes s =>
      if 0 < ioBytes then (s, .hostToDevice ioBytes) else counted size ioBytes s
  | .write =>
    after size (hipMemcpyDeviceToHost env (req.roundDevice s) count s) fun _ s =>
      (s, .streamSynchronize)

/-- `_io_impl`, from one call to the next. -/
def step (env : Env) (req : Request) (s : LoopState) : Point → LoopState × Point
  | .mmap =>
    match s.world.mmap env.sys with
    | (.ok _, w) => ({ s with world := w }, .first)
    | (.error e, w) => ({ s with world := w }, .ended (.error (.systemError e)))
  | .first => firstCall env req s
  | .hostToDevice ioBytes =>
    after (req.limit env) (hipMemcpyHostToDevice env (req.roundDevice s) ioBytes s) fun _ s =>
      counted (req.limit env) ioBytes s
  | .streamSynchronize =>
    after (req.limit env) (hipStreamSynchronize env s) fun _ s => (s, .pwrite)
  | .pwrite =>
    after (req.limit env)
      (pwrite env req.file.bufferedFd (req.roundCount env s) (req.roundOffset s) s)
      fun ioBytes s => (s, .fdatasync ioBytes)
  | .fdatasync ioBytes =>
    after (req.limit env) (fdatasync env req.file.bufferedFd s) fun _ s =>
      counted (req.limit env) ioBytes s
  | .count =>
    ({ s with world := s.world.statsAddFallbackPath env.config req.type s.totalIoBytes },
      .ended (.ok s.totalIoBytes))
  | .ended result => (s, .ended result)

/-! ## Threads -/

/-- What the threads share: the files by inode, the device memory, the counters and the calls. -/
structure Shared where
  files : ℕ → FileData
  dev : Mem
  stats : Stats
  trace : List Event

/-- What a thread sees that works on one file. -/
def Shared.world (s : Shared) (inode : ℕ) : World :=
  ⟨s.files inode, s.dev, s.stats, s.trace, false⟩

/-- What a thread leaves that works on one file. -/
def Shared.put (s : Shared) (inode : ℕ) (w : World) : Shared :=
  ⟨Function.update s.files inode w.file, w.dev, w.stats, w.trace⟩

/-- What is a thread's own. -/
structure Thread where
  point : Point
  bounceBuffer : Mem
  totalIoBytes : ℕ

/-- The locals of a thread, with what it sees of the rest. -/
def Thread.loopState (t : Thread) (s : Shared) (inode : ℕ) : LoopState :=
  ⟨s.world inode, t.bounceBuffer, t.totalIoBytes⟩

/-- A thread before its first call: the checks make none. -/
def Request.start (env : Env) (req : Request) : Thread :=
  match accept env req.buffer.toIBuffer req.size req.fileOffset req.bufferOffset with
  | .error e => ⟨.ended (.error e), fun _ => 0, 0⟩
  | .ok _ => ⟨.mmap, fun _ => 0, 0⟩

/-- A thread makes its next call. -/
def Request.advance (env : Env) (req : Request) (s : Shared) (t : Thread) : Shared × Thread :=
  let r := step env req (t.loopState s req.inode) t.point
  (s.put req.inode r.1.world, ⟨r.2, r.1.bounceBuffer, r.1.totalIoBytes⟩)

/-- **Threads that serve requests at the same time.** -/
def threads {ι : Type} (env : Env) (reqs : ι → Request) (init : Shared) :
    Parties ι Shared Thread where
  init := init
  start i := (reqs i).start env
  step i s t :=
    match t.point with
    | .ended _ => none
    | _ => some ((reqs i).advance env s t)

/-- What a `pread` may return of a file that ends at `eof`: bytes that the file has, and none
only when asked for none or at the end of the file. -/
def PreadReturns (count : ℕ) (offset : ℤ) (eof : ℕ) : Except Errno ℕ → Prop
  | .ok n => (0 < n → offset + n ≤ eof) ∧ (n = 0 → count = 0 ∨ (eof : ℤ) ≤ offset)
  | .error _ => True

instance (count : ℕ) (offset : ℤ) (eof : ℕ) : DecidablePred (PreadReturns count offset eof)
  | .ok _ => inferInstanceAs (Decidable (_ ∧ _))
  | .error _ => isTrue trivial

/-- The kernel does so at the next call of a thread, with the file as it is at that moment. -/
def Lawful (env : Env) (req : Request) (s : LoopState) : Point → Prop
  | .first => req.type = .read →
      PreadReturns (req.roundCount env s) (req.roundOffset s) s.world.file.eof
        (env.sys.pread s.world.calls (req.roundCount env s) (req.roundOffset s))
  | _ => True

instance (env : Env) (req : Request) (s : LoopState) : DecidablePred (Lawful env req s)
  | .first => inferInstanceAs (Decidable (_ → _))
  | .mmap | .hostToDevice _ | .streamSynchronize | .pwrite | .fdatasync _ | .count | .ended _ =>
    isTrue trivial

/-- A run of the threads in which the kernel does so. -/
def Reached {ι : Type} [DecidableEq ι] (env : Env) (reqs : ι → Request) (init : Shared)
    (s : Shared × (ι → Thread)) : Prop :=
  (threads env reqs init).machine.Reaches
    (fun s i => Lawful env (reqs i) ((s.2 i).loopState s.1 (reqs i).inode) (s.2 i).point) s

end HipFile.Fallback
