import HipFile.Model.AsyncStages
import HipFile.Model.Fallback

/-!
# What each stage of an asynchronous request does

* `Bound`: the op has its parameters; nothing but its status changes after that.
* `covers_kernelSpans`: the kernel's threads cover the bytes they should.
* `CopyInv`, `copyRound_step`: the invariant of the copy loop and what a round does.
* `cpuCopy_spec`, `cpuCopy_total`: what the copy leaves.
* `kernel_spec`, `KernelRun.read`, `KernelRun.write`: what the kernel leaves.
-/

namespace HipFile

open Bytes

variable {env : StreamEnv} {maxRwCount : ℕ} {req : AsyncRequest} {params : Params} {size : ℕ}
  {fileOffset : ℤ} {s s' : StreamState}

/-! ## Bound ops -/

/-- **The op of the request, with `params` bound.** -/
structure Bound (maxRwCount : ℕ) (req : AsyncRequest) (params : Params) (op : AsyncOpFallback) :
    Prop where
  ioType : op.ioType = req.type
  file : op.file = req.file
  buffer : op.buffer = req.buffer.toIBuffer
  submittedSize : op.submittedSize = min req.params.size maxRwCount
  gpuBuffer : op.gpuBuffer = req.buffer.getBuffer
  devPtr : op.bounceBufferDevPtr ≠ 0
  size : op.size = .value params.size
  fileOffset : op.fileOffset = .value params.fileOffset
  bufferOffset : op.bufferOffset = .value params.bufferOffset

theorem Bound.setInternal (h : Bound maxRwCount req params s.op) (value : ℤ) :
    Bound maxRwCount req params (s.setInternal value).op :=
  ⟨h.ioType, h.file, h.buffer, h.submittedSize, h.gpuBuffer, h.devPtr, h.size, h.fileOffset,
    h.bufferOffset⟩

/-- The bound region fits the bounce buffer and the GPU buffer. -/
def RegionOk (maxRwCount : ℕ) (req : AsyncRequest) (params : Params) : Prop :=
  params.size ≤ min req.params.size maxRwCount ∧
    paramsValid req.buffer.toIBuffer params.size params.fileOffset params.bufferOffset = true

/-- The bound region starts inside the file and the GPU buffer. -/
structure OffsetsOk (req : AsyncRequest) (params : Params) : Prop where
  fileOffset : 0 ≤ params.fileOffset.val
  bufferOffset : 0 ≤ params.bufferOffset.val
  lt : params.bufferOffset.val.toNat < req.buffer.getLength

theorem offsetsOk_of_paramsValid {size : ℕ} (h : paramsValid req.buffer.toIBuffer size
    params.fileOffset params.bufferOffset = true) : OffsetsOk req params := by
  obtain ⟨hf, hb, hlt, -⟩ := (paramsValid_iff params.bufferOffset.2).1 h
  exact ⟨hf, hb, hlt⟩

/-! ## The spans of the kernel -/

theorem mem_threadSpans {blockDim thread : ℕ} {sp : Span} :
    sp ∈ threadSpans blockDim size thread ↔
      (∃ idx < size / 8, idx % blockDim = thread ∧ sp = ⟨8 * idx, 8⟩) ∨
        thread = 0 ∧ ∃ i < size % 8, sp = ⟨8 * (size / 8) + i, 1⟩ := by
  unfold threadSpans
  rw [List.mem_append, List.mem_map]
  refine or_congr ?_ ?_
  · simp only [List.mem_filter, List.mem_range, decide_eq_true_eq]
    constructor
    · rintro ⟨idx, ⟨hlt, hmod⟩, rfl⟩
      exact ⟨idx, hlt, hmod, rfl⟩
    · rintro ⟨idx, hlt, hmod, rfl⟩
      exact ⟨idx, ⟨hlt, hmod⟩, rfl⟩
  · by_cases h : thread = 0
    · rw [if_pos h, List.mem_map]
      simp only [List.mem_range, h, true_and]
      constructor
      · rintro ⟨i, hi, rfl⟩
        exact ⟨i, hi, rfl⟩
      · rintro ⟨i, hi, rfl⟩
        exact ⟨i, hi, rfl⟩
    · rw [if_neg h]
      simp [h]

/-- No thread leaves the region. -/
theorem lt_of_covers_kernelSpans {blockDim i : ℕ} {sp : Span} (hsp : sp ∈ kernelSpans blockDim size)
    (hi : sp.Covers i) : i < size := by
  obtain ⟨thread, -, hmem⟩ := List.mem_flatMap.1 hsp
  unfold Span.Covers at hi
  rcases mem_threadSpans.1 hmem with ⟨idx, hlt, -, rfl⟩ | ⟨-, j, hj, rfl⟩
  · simp only at hi
    omega
  · simp only at hi
    omega

/-- **The threads cover the region**: each word at its stride, the last bytes in thread 0. -/
theorem covers_kernelSpans {blockDim : ℕ} (hB : 0 < blockDim) (i : ℕ) :
    (∃ sp ∈ kernelSpans blockDim size, sp.Covers i) ↔ i < size := by
  refine ⟨fun ⟨sp, hsp, hi⟩ => lt_of_covers_kernelSpans hsp hi, fun hi => ?_⟩
  by_cases hword : i / 8 < size / 8
  · refine ⟨⟨8 * (i / 8), 8⟩, List.mem_flatMap.2 ⟨i / 8 % blockDim, ?_, ?_⟩, ?_⟩
    · exact List.mem_range.2 (Nat.mod_lt _ hB)
    · exact mem_threadSpans.2 (Or.inl ⟨i / 8, hword, rfl, rfl⟩)
    · unfold Span.Covers
      simp only
      omega
  · refine ⟨⟨8 * (size / 8) + (i - 8 * (size / 8)), 1⟩, List.mem_flatMap.2 ⟨0, ?_, ?_⟩, ?_⟩
    · exact List.mem_range.2 hB
    · exact mem_threadSpans.2 (Or.inr ⟨rfl, i - 8 * (size / 8), by omega, rfl⟩)
    · unfold Span.Covers
      simp only
      omega

/-- **The kernel's copies are one block copy**, in whatever order they are made. -/
theorem copySpans_kernelSpans (env : StreamEnv) {blockDim : ℕ} (hB : 0 < blockDim) (m : Mem) (a : ℕ)
    (src : Mem) (f size : ℕ) :
    copySpans m a src f (env.order (kernelSpans blockDim size)) = splice m a src f size := by
  refine copySpans_eq_splice m a src f size fun i => ?_
  rw [← covers_kernelSpans hB i]
  have hperm := env.order_perm (kernelSpans blockDim size)
  exact ⟨fun ⟨sp, hsp, hi⟩ => ⟨sp, hperm.mem_iff.1 hsp, hi⟩,
    fun ⟨sp, hsp, hi⟩ => ⟨sp, hperm.mem_iff.2 hsp, hi⟩⟩

/-! ## The copy loop -/

/-- A `pread` or `pwrite` that failed with anything but `EINTR`. -/
def Event.IoFailed : Event → Prop
  | .pread _ _ _ (.error e) => e ≠ EINTR
  | .pwrite _ _ _ (.error e) => e ≠ EINTR
  | _ => False

/-- Among the calls there is a `pread` or `pwrite` that failed. -/
def AnyIoFailed (tr : List Event) : Prop := ∃ ev ∈ tr, ev.IoFailed

/-- The outcome of the system call of a round. -/
def StreamEnv.ioOutcome (env : StreamEnv) : IoType → ℕ → ℕ → ℤ → Except Errno ℕ
  | .read => env.sys.pread
  | .write => env.sys.pwrite

theorem StreamEnv.ioOutcome_le {type : IoType} {i count n : ℕ} {offset : ℤ}
    (h : env.ioOutcome type i count offset = .ok n) : n ≤ count := by
  cases type with
  | read => exact env.sys.pread_le h
  | write => exact env.sys.pwrite_le h

/-- **What has been copied** after `done` bytes: on a read the bounce buffer has the file's
bytes and the file is as before; on a write the file has the bytes of the bounce buffer,
and nothing outside the region has changed. -/
def Copied (env : StreamEnv) (s₀ : StreamState) (size : ℕ) (fileOffset : ℤ) (s : StreamState)
    (done : ℕ) : Prop :=
  match s₀.op.ioType with
  | .read => s.world.file = s₀.world.file ∧
      s.bounce = splice s₀.bounce 0 s₀.world.file.data fileOffset.toNat done
  | .write => s.bounce = s₀.bounce ∧
      Agree done s.world.file.data fileOffset.toNat (s₀.view env) 0 ∧
      SameOutside fileOffset.toNat size s₀.world.file.data s.world.file.data

/-- What the copy never changes, and the bytes of the bounce buffer that it may access. -/
structure CopyFrame (size : ℕ) (s₀ s : StreamState) : Prop where
  dev : s.world.dev = s₀.world.dev
  monitor : s.monitor = s₀.monitor
  bytesTransferred : s.bytesTransferred = s₀.bytesTransferred
  gpuAccesses : s.gpuAccesses = s₀.gpuAccesses
  bounceAccesses : ∀ sp ∈ s.bounceAccesses, sp ∈ s₀.bounceAccesses ∨ ∀ i, sp.Covers i → i < size

/-- **The copy loop's invariant**, from the state `s₀` it starts in. -/
structure CopyInv (env : StreamEnv) (s₀ : StreamState) (size : ℕ) (fileOffset : ℤ)
    (c : CopyState) : Prop where
  op : c.state.op = s₀.op
  frame : CopyFrame size s₀ c.state
  trace : ∃ tr, c.state.world.trace = s₀.world.trace ++ tr ∧ ¬ AnyIoFailed tr
  done_le : c.bytesTransferred ≤ size
  copied : Copied env s₀ size fileOffset c.state c.bytesTransferred

/-- **What the copy leaves**: the status is `-1` after a call that failed, and otherwise
the number of bytes copied. -/
structure CopyDone (env : StreamEnv) (s₀ : StreamState) (size : ℕ) (fileOffset : ℤ)
    (s : StreamState) : Prop where
  frame : CopyFrame size s₀ s
  status : ∃ status tr, s.op = { s₀.op with bytesTransferredInternal := status } ∧
    s.world.trace = s₀.world.trace ++ tr ∧
    ((status = -1 ∧ AnyIoFailed tr ∧ ∃ done ≤ size, Copied env s₀ size fileOffset s done) ∨
      ∃ n ≤ size, status = toSsizeT n ∧ ¬ AnyIoFailed tr ∧ Copied env s₀ size fileOffset s n)

variable {s₀ : StreamState} {c c' : CopyState} {pos count : ℕ} {offset : ℤ}

/-- A `pread`, whatever its outcome: the bytes it returns have been copied. -/
theorem pread_eq (w : World) (sys : Sys) (fd : ℤ) (buf : Mem) (pos count : ℕ) (offset : ℤ) :
    w.pread sys fd buf pos count offset =
      (sys.pread w.calls count offset,
        w.log (.pread fd count offset (sys.pread w.calls count offset)),
        splice buf pos w.file.data offset.toNat (retBytes (sys.pread w.calls count offset))) := by
  unfold World.pread
  cases sys.pread w.calls count offset with
  | error e => simp
  | ok n => simp

/-- A `pwrite`, whatever its outcome: the bytes it returns have been written. -/
theorem pwrite_eq (w : World) (sys : Sys) (fd : ℤ) (buf : Mem) (pos count : ℕ) (offset : ℤ) :
    ∃ w', w.pwrite sys fd buf pos count offset = (sys.pwrite w.calls count offset, w') ∧
      w'.dev = w.dev ∧
      w'.trace = w.trace ++ [.pwrite fd count offset (sys.pwrite w.calls count offset)] ∧
      w'.file.data =
        splice w.file.data offset.toNat buf pos (retBytes (sys.pwrite w.calls count offset)) := by
  unfold World.pwrite
  cases sys.pwrite w.calls count offset with
  | error e => exact ⟨_, rfl, by simp⟩
  | ok n => exact ⟨_, rfl, by simp⟩

/-- **What the system call of a round does**, to a state `s` whose outcome is `ret`. -/
structure CopyCalled (env : StreamEnv) (s : StreamState) (pos : ℕ) (offset : ℤ)
    (ret : Except Errno ℕ) (s' : StreamState) : Prop where
  op : s'.op = s.op
  dev : s'.world.dev = s.world.dev
  monitor : s'.monitor = s.monitor
  bytesTransferred : s'.bytesTransferred = s.bytesTransferred
  gpuAccesses : s'.gpuAccesses = s.gpuAccesses
  bounceAccesses : s'.bounceAccesses = s.bounceAccesses ++ [⟨pos, retBytes ret⟩]
  trace : ∃ ev, s'.world.trace = s.world.trace ++ [ev] ∧
    (ev.IoFailed ↔ ∃ e, ret = .error e ∧ e ≠ EINTR)
  bytes : match s.op.ioType with
    | .read => s'.world.file = s.world.file ∧
        s'.bounce = splice s.bounce pos s.world.file.data offset.toNat (retBytes ret)
    | .write => s'.bounce = s.bounce ∧
        s'.world.file.data =
          splice s.world.file.data offset.toNat (s.view env) pos (retBytes ret)

theorem copyCall_spec (env : StreamEnv) (s : StreamState) (pos count : ℕ) (offset : ℤ) :
    ∃ s', copyCall env s pos count offset =
        (env.ioOutcome s.op.ioType s.world.calls count offset, s') ∧
      CopyCalled env s pos offset (env.ioOutcome s.op.ioType s.world.calls count offset) s' := by
  unfold copyCall
  cases htype : s.op.ioType with
  | read =>
    simp only [StreamEnv.ioOutcome, pread_eq]
    refine ⟨_, rfl, ⟨rfl, rfl, rfl, rfl, rfl, rfl, ⟨_, rfl, ?_⟩, ?_⟩⟩
    · cases env.sys.pread s.world.calls count offset <;> simp [Event.IoFailed]
    · rw [htype]
      exact ⟨rfl, rfl⟩
  | write =>
    obtain ⟨w', hcall, hdev, htrace, hfile⟩ :=
      pwrite_eq s.world env.sys s.op.file.bufferedFd (s.view env) pos count offset
    simp only [StreamEnv.ioOutcome, hcall]
    refine ⟨_, rfl, ⟨rfl, hdev, rfl, rfl, rfl, rfl, ⟨_, htrace, ?_⟩, ?_⟩⟩
    · cases env.sys.pwrite s.world.calls count offset <;> simp [Event.IoFailed]
    · rw [htype]
      exact ⟨rfl, hfile⟩

theorem StreamState.view_congr (hop : s'.op = s.op) (hb : s'.bounce = s.bounce) :
    s'.view env = s.view env := by
  unfold StreamState.view
  rw [hop, hb]

/-- The call of a round, made where the copy stands, extends what has been copied by the
bytes it moves. -/
theorem Copied.call (h0 : 0 ≤ fileOffset) {done n : ℕ} (hop : s.op = s₀.op)
    (hc : Copied env s₀ size fileOffset s done) (hn : done + n ≤ size)
    (hcall : match s.op.ioType with
      | .read => s'.world.file = s.world.file ∧
          s'.bounce = splice s.bounce done s.world.file.data (fileOffset + done).toNat n
      | .write => s'.bounce = s.bounce ∧
          s'.world.file.data = splice s.world.file.data (fileOffset + done).toNat (s.view env) done
            n) :
    Copied env s₀ size fileOffset s' (done + n) := by
  have hoff : (fileOffset + (done : ℤ)).toNat = fileOffset.toNat + done := by omega
  rw [hoff] at hcall
  unfold Copied at hc ⊢
  rw [hop] at hcall
  cases htype : s₀.op.ioType with
  | read =>
    simp only [htype] at hc hcall ⊢
    refine ⟨hcall.1.trans hc.1, ?_⟩
    have happ := splice_append s₀.bounce 0 s₀.world.file.data fileOffset.toNat done n
    rw [Nat.zero_add] at happ
    rw [hcall.2, hc.1, hc.2, happ]
  | write =>
    simp only [htype] at hc hcall ⊢
    obtain ⟨hb, hagree, hout⟩ := hc
    have hview : s.view env = s₀.view env := StreamState.view_congr hop hb
    rw [hview] at hcall
    have hnext := hagree.splice_next (k := n)
    rw [Nat.zero_add] at hnext
    refine ⟨hcall.1.trans hb, ?_, ?_⟩
    · rw [hcall.2]
      exact hnext
    · rw [hcall.2]
      exact hout.trans (sameOutside_splice (by omega) (by omega))

theorem not_anyIoFailed_snoc {tr : List Event} {ev : Event} (htr : ¬ AnyIoFailed tr)
    (hev : ¬ ev.IoFailed) : ¬ AnyIoFailed (tr ++ [ev]) := by
  rintro ⟨e, he, hf⟩
  rcases List.mem_append.1 he with he | he
  · exact htr ⟨e, he, hf⟩
  · exact hev (List.mem_singleton.1 he ▸ hf)

theorem StreamEnv.retBytes_le (env : StreamEnv) (type : IoType) (i count : ℕ) (offset : ℤ) :
    retBytes (env.ioOutcome type i count offset) ≤ count := by
  cases h : env.ioOutcome type i count offset with
  | error e => simp
  | ok n => simpa using StreamEnv.ioOutcome_le h

/-- A call whose bytes lie in the first `size` of the bounce buffer keeps the frame. -/
theorem CopyFrame.call {ret : Except Errno ℕ} (hF : CopyFrame size s₀ s)
    (hcalled : CopyCalled env s pos offset ret s') (hle : pos + retBytes ret ≤ size) :
    CopyFrame size s₀ s' := by
  refine ⟨hcalled.dev.trans hF.dev, hcalled.monitor.trans hF.monitor,
    hcalled.bytesTransferred.trans hF.bytesTransferred,
    hcalled.gpuAccesses.trans hF.gpuAccesses, fun sp hsp => ?_⟩
  rw [hcalled.bounceAccesses] at hsp
  rcases List.mem_append.1 hsp with hsp | hsp
  · exact hF.bounceAccesses sp hsp
  · refine Or.inr fun i hi => ?_
    rw [List.mem_singleton.1 hsp] at hi
    have hlt := hi.2
    simp only at hlt
    omega

/-- The end of the copy, which sets the status, keeps the frame. -/
theorem CopyFrame.setInternal (hF : CopyFrame size s₀ s) (status : ℤ) :
    CopyFrame size s₀ (s.setInternal status) :=
  ⟨hF.dev, hF.monitor, hF.bytesTransferred, hF.gpuAccesses, hF.bounceAccesses⟩

/-- A copy that stops after `n` bytes, with no call that failed, has done its work. -/
theorem CopyInv.stopped (hI : CopyInv env s₀ size fileOffset c) :
    CopyDone env s₀ size fileOffset (c.state.setInternal (toSsizeT c.bytesTransferred)) := by
  obtain ⟨tr, htr, hfail⟩ := hI.trace
  have hop : (c.state.setInternal (toSsizeT c.bytesTransferred)).op =
      { s₀.op with bytesTransferredInternal := toSsizeT c.bytesTransferred } := by
    rw [← hI.op]
    rfl
  exact ⟨hI.frame.setInternal _, _, tr, hop, htr,
    Or.inr ⟨_, hI.done_le, rfl, hfail, hI.copied⟩⟩

/-- The system call of a round, unless it fails, keeps the invariant with the bytes it
returns counted; if it fails, the copy is done with status `-1`. -/
theorem CopyInv.call (h0 : 0 ≤ fileOffset) (hI : CopyInv env s₀ size fileOffset c)
    {ret : Except Errno ℕ}
    (hcalled : CopyCalled env c.state c.bytesTransferred (fileOffset + c.bytesTransferred) ret s)
    (hle : c.bytesTransferred + retBytes ret ≤ size) :
    ((∀ e, ret = .error e → e = EINTR) →
      CopyInv env s₀ size fileOffset ⟨s, c.bytesTransferred + retBytes ret⟩) ∧
    ((∃ e, ret = .error e ∧ e ≠ EINTR) →
      CopyDone env s₀ size fileOffset (s.setInternal (-1))) := by
  obtain ⟨tr, htr, hfail⟩ := hI.trace
  obtain ⟨ev, htrace, hev⟩ := hcalled.trace
  have hop : s.op = s₀.op := hcalled.op.trans hI.op
  have hframe : CopyFrame size s₀ s := hI.frame.call hcalled hle
  have hcopied : Copied env s₀ size fileOffset s (c.bytesTransferred + retBytes ret) :=
    Copied.call h0 hI.op hI.copied hle hcalled.bytes
  have htrace₁ : s.world.trace = s₀.world.trace ++ (tr ++ [ev]) := by
    rw [htrace, htr, List.append_assoc]
  constructor
  · intro hok
    have hevok : ¬ ev.IoFailed := fun hf => by
      obtain ⟨e, he, hne⟩ := hev.1 hf
      exact hne (hok e he)
    exact ⟨hop, hframe, ⟨_, htrace₁, not_anyIoFailed_snoc hfail hevok⟩, hle, hcopied⟩
  · intro hbad
    have hstatus : (s.setInternal (-1)).op = { s₀.op with bytesTransferredInternal := -1 } := by
      rw [← hop]
      rfl
    exact ⟨hframe.setInternal _, -1, tr ++ [ev], hstatus, htrace₁,
      Or.inl ⟨rfl, ⟨ev, List.mem_append_right _ (List.mem_singleton.2 rfl), hev.2 hbad⟩, _, hle,
        hcopied⟩⟩

/-- **One round of the copy keeps the invariant**: a round that goes on has been
interrupted or has moved bytes, and a round that leaves has done the copy. -/
theorem copyRound_step (h0 : 0 ≤ fileOffset) (hI : CopyInv env s₀ size fileOffset c) :
    (∀ c', copyRound env size fileOffset c = .inl c' → CopyInv env s₀ size fileOffset c' ∧
      c.state.world.calls < c'.state.world.calls ∧
      (c.bytesTransferred < c'.bytesTransferred ∨ c'.bytesTransferred = c.bytesTransferred ∧
        ∃ count offset, env.ioOutcome s₀.op.ioType c.state.world.calls count offset =
          .error EINTR)) ∧
    ∀ s', copyRound env size fileOffset c = .inr s' → CopyDone env s₀ size fileOffset s' := by
  unfold copyRound
  by_cases hlt : c.bytesTransferred < size
  · rw [if_pos hlt]
    obtain ⟨s₁, hcall, hcalled⟩ := copyCall_spec env c.state c.bytesTransferred
      (size - c.bytesTransferred) (fileOffset + c.bytesTransferred)
    have hle := env.retBytes_le c.state.op.ioType c.state.world.calls (size - c.bytesTransferred)
      (fileOffset + c.bytesTransferred)
    rw [hcall]
    rw [hI.op] at hcalled hle ⊢
    have hcalls : c.state.world.calls < s₁.world.calls := by
      obtain ⟨ev, htrace, -⟩ := hcalled.trace
      unfold World.calls
      rw [htrace, List.length_append]
      exact Nat.lt_succ_self _
    obtain ⟨hkeeps, hfails⟩ := hI.call h0 hcalled (by omega)
    cases hr : env.ioOutcome s₀.op.ioType c.state.world.calls (size - c.bytesTransferred)
        (fileOffset + c.bytesTransferred) with
    | error e =>
      simp only
      by_cases he : e = EINTR
      · -- interrupted: nothing has moved
        rw [if_pos he]
        rw [hr] at hkeeps
        have hI₁ := hkeeps fun e' he' => (Except.error.inj he').symm.trans he
        exact Loop.goesOn ⟨hI₁, hcalls, Or.inr ⟨rfl, _, _, hr.trans (by rw [he])⟩⟩
      · rw [if_neg he]
        exact Loop.leaves (hfails ⟨e, hr, he⟩)
    | ok n =>
      rw [hr] at hkeeps
      have hI₁ := hkeeps fun e he => by cases he
      simp only
      by_cases hn : n = 0
      · -- the end of the file, or a write of nothing
        rw [if_pos hn]
        have hstop := hI₁.stopped
        simp only [hn, retBytes_ok, Nat.add_zero] at hstop
        exact Loop.leaves hstop
      · rw [if_neg hn]
        exact Loop.goesOn ⟨hI₁, hcalls, Or.inl (by simp only; omega)⟩
  · -- the whole size has been copied
    rw [if_neg hlt]
    exact Loop.leaves hI.stopped

/-- The copy of a bound op that has no error yet is its loop. -/
theorem asyncIoCpuCopy_eq (rounds : ℕ) (hb : Bound maxRwCount req params s.op)
    (hst : 0 ≤ s.op.bytesTransferredInternal) :
    asyncIoCpuCopy env rounds s =
      match Loop.iter (copyRound env params.size params.fileOffset) rounds ⟨s, 0⟩ with
      | .inl c => (.running, c.state)
      | .inr s => (.finished, s) := by
  simp only [asyncIoCpuCopy, hb.size, hb.fileOffset]
  refine (if_neg (by omega)).trans ?_
  cases Loop.iter (copyRound env params.size params.fileOffset) rounds ⟨s, 0⟩ with
  | inl c => rfl
  | inr s => rfl

theorem CopyInv.start (env : StreamEnv) (s : StreamState) (size : ℕ) (fileOffset : ℤ) :
    CopyInv env s size fileOffset ⟨s, 0⟩ := by
  refine ⟨rfl, ⟨rfl, rfl, rfl, rfl, fun sp hsp => Or.inl hsp⟩,
    ⟨[], (List.append_nil _).symm, fun ⟨_, h, _⟩ => absurd h List.not_mem_nil⟩, Nat.zero_le _, ?_⟩
  unfold Copied
  cases s.op.ioType with
  | read => exact ⟨rfl, (splice_zero _ _ _ _).symm⟩
  | write => exact ⟨rfl, agree_zero, SameOutside.refl _ _ _⟩

/-- **What the copy does, for any number of rounds**: it is still running, or done. -/
theorem cpuCopy_spec (env : StreamEnv) (rounds : ℕ) (hb : Bound maxRwCount req params s.op)
    (h0 : 0 ≤ params.fileOffset.val) (hst : 0 ≤ s.op.bytesTransferredInternal) :
    ∃ s', asyncIoCpuCopy env rounds s = (.running, s') ∧ s'.op = s.op ∧
        CopyFrame params.size s s' ∨
      asyncIoCpuCopy env rounds s = (.finished, s') ∧
        CopyDone env s params.size params.fileOffset s' := by
  obtain ⟨hrun, hdone⟩ := Loop.iter_inv (fun c c' hI h => ((copyRound_step h0 hI).1 c' h).1)
    (fun c s' hI h => (copyRound_step h0 hI).2 s' h) rounds _
    (CopyInv.start env s params.size params.fileOffset)
  rw [asyncIoCpuCopy_eq rounds hb hst]
  cases hit : Loop.iter (copyRound env params.size params.fileOffset) rounds ⟨s, 0⟩ with
  | inl c => exact ⟨c.state, Or.inl ⟨rfl, (hrun c hit).op, (hrun c hit).frame⟩⟩
  | inr s' => exact ⟨s', Or.inr ⟨rfl, hdone s' hit⟩⟩

/-- **With finitely many interruptions the copy is done**, in a state that does not depend on
the number of rounds. -/
theorem cpuCopy_total {N : ℕ} (hb : Bound maxRwCount req params s.op)
    (h0 : 0 ≤ params.fileOffset.val) (hst : 0 ≤ s.op.bytesTransferredInternal)
    (hN : ∀ i, N ≤ i → ∀ count offset, env.ioOutcome s.op.ioType i count offset ≠ .error EINTR) :
    ∃ s' R, CopyDone env s params.size params.fileOffset s' ∧
      ∀ rounds, R ≤ rounds → asyncIoCpuCopy env rounds s = (.finished, s') := by
  set μ : CopyState → ℕ := fun c =>
    (N - c.state.world.calls) + (params.size - c.bytesTransferred) with hμ
  have hstep : ∀ c c', CopyInv env s params.size params.fileOffset c →
      copyRound env params.size params.fileOffset c = .inl c' →
      CopyInv env s params.size params.fileOffset c' ∧ μ c' < μ c := by
    intro c c' hI h
    obtain ⟨hI', hcalls, hmove⟩ := (copyRound_step h0 hI).1 c' h
    have hle' := hI'.done_le
    refine ⟨hI', ?_⟩
    simp only [hμ]
    rcases hmove with hlt | ⟨heq, count, offset, hintr⟩
    · omega
    · have hcallN : c.state.world.calls < N := by
        by_contra hge
        exact hN _ (by omega) _ _ hintr
      omega
  obtain ⟨s', hdone, hrun⟩ := Loop.total μ hstep (fun c s' hI h => (copyRound_step h0 hI).2 s' h)
    (CopyInv.start env s params.size params.fileOffset)
  refine ⟨s', μ ⟨s, 0⟩ + 1, hdone, fun rounds hr => ?_⟩
  rw [asyncIoCpuCopy_eq rounds hb hst, hrun rounds (Nat.lt_of_succ_le hr)]

/-! ## The kernel -/

/-- The kernel's address computation does not wrap inside the GPU buffer. -/
theorem region_eq_regionStart (h : OffsetsOk req params) :
    (req.buffer.getBuffer + toSizeT params.bufferOffset.val) % wordModulus =
      regionStart req.buffer params.bufferOffset ∧
      toSizeT params.bufferOffset.val = params.bufferOffset.val.toNat := by
  have hspace := req.buffer.inSpace
  have hlt := h.lt
  unfold regionStart
  rw [toSizeT_of_nonneg h.bufferOffset params.bufferOffset.2.lt_wordModulus,
    Nat.mod_eq_of_lt (by omega)]
  exact ⟨rfl, rfl⟩

/-- The number of bytes that the kernel copies, of an op whose status is `n`. -/
def kernelSize (type : IoType) (size n : ℕ) : ℕ :=
  match type with
  | .read => n
  | .write => size

/-- **What the kernel does** to a state `s` with a bound op whose status is `n`. -/
structure KernelRun (env : StreamEnv) (req : AsyncRequest) (params : Params) (blockDim n : ℕ)
    (s s' : StreamState) : Prop where
  op : s'.op = s.op
  monitor : s'.monitor = s.monitor
  bytesTransferred : s'.bytesTransferred = s.bytesTransferred
  file : s'.world.file = s.world.file
  trace : s'.world.trace = s.world.trace
  bounceAccesses : s'.bounceAccesses = s.bounceAccesses ++
    env.order (kernelSpans blockDim (kernelSize req.type params.size n))
  gpuAccesses : s'.gpuAccesses = s.gpuAccesses ++
    (env.order (kernelSpans blockDim (kernelSize req.type params.size n))).map
      (Span.shift params.bufferOffset.val.toNat)
  bytes : match req.type with
    | .read => s'.bounce = s.bounce ∧
        s'.world.dev = copySpans s.world.dev (regionStart req.buffer params.bufferOffset)
          (s.view env) 0 (env.order (kernelSpans blockDim n))
    | .write => s'.world.dev = s.world.dev ∧
        s'.bounce = copySpans s.bounce 0 s.world.dev (regionStart req.buffer params.bufferOffset)
          (env.order (kernelSpans blockDim params.size))

theorem kernel_spec {n : ℕ} (env : StreamEnv) (blockDim : ℕ) (hb : Bound maxRwCount req params s.op)
    (hok : OffsetsOk req params) (hst : s.op.bytesTransferredInternal = n) (hn : n < wordModulus) :
    KernelRun env req params blockDim n s (hipFileMemcpyKernel env blockDim s) := by
  obtain ⟨hregion, hoff⟩ := region_eq_regionStart hok
  have hptr : ¬ (s.op.bounceBufferDevPtr = 0 ∨ req.buffer.getBuffer = 0) := by
    rintro (h | h)
    · exact hb.devPtr h
    · exact req.buffer.nonnull h
  have hnat : toSizeT (n : ℤ) = n := by rw [toSizeT_natCast, Nat.mod_eq_of_lt hn]
  unfold hipFileMemcpyKernel
  rw [if_neg (by omega)]
  simp only [hb.size, hb.bufferOffset, hb.ioType, hb.gpuBuffer, hst, hnat, hregion, if_neg hptr]
  rw [hoff]
  cases htype : req.type with
  | read =>
    constructor
    case bytes =>
      rw [htype]
      exact ⟨rfl, rfl⟩
    all_goals simp [kernelSize, htype]
  | write =>
    constructor
    case bytes =>
      rw [htype]
      exact ⟨rfl, rfl⟩
    all_goals simp [kernelSize, htype]

/-- The kernel of an op that has moved no byte and has no error yet. -/
theorem kernel_spec_zero (env : StreamEnv) (blockDim : ℕ) (hb : Bound maxRwCount req params s.op)
    (hok : OffsetsOk req params) (hst : s.op.bytesTransferredInternal = 0) :
    KernelRun env req params blockDim 0 s (hipFileMemcpyKernel env blockDim s) :=
  kernel_spec env blockDim hb hok hst (by decide)

variable {blockDim n : ℕ}

/-- **The kernel of a read** copies the bounce buffer's first `n` bytes to the GPU. -/
theorem KernelRun.read (h : KernelRun env req params blockDim n s s') (hB : 0 < blockDim)
    (htype : req.type = .read) :
    s'.world.dev =
      splice s.world.dev (regionStart req.buffer params.bufferOffset) (s.view env) 0 n := by
  have hmem := h.bytes
  simp only [htype] at hmem
  rw [hmem.2, copySpans_kernelSpans env hB]

/-- **The kernel of a write** copies the GPU's bytes to the bounce buffer. -/
theorem KernelRun.write (h : KernelRun env req params blockDim n s s') (hB : 0 < blockDim)
    (htype : req.type = .write) : s'.world.dev = s.world.dev ∧
      s'.bounce = splice s.bounce 0 s.world.dev (regionStart req.buffer params.bufferOffset)
        params.size := by
  have hmem := h.bytes
  simp only [htype] at hmem
  refine ⟨hmem.1, ?_⟩
  rw [hmem.2, copySpans_kernelSpans env hB]

/-! ## Errors -/

/-- With an error, the copy and the kernel do nothing. -/
theorem cpuCopy_of_error (env : StreamEnv) (rounds : ℕ) (hb : Bound maxRwCount req params s.op)
    (h : s.op.bytesTransferredInternal < 0) : asyncIoCpuCopy env rounds s = (.finished, s) := by
  simp only [asyncIoCpuCopy, hb.size, hb.fileOffset]
  rw [if_pos h]

theorem kernel_of_error (env : StreamEnv) (blockDim : ℕ) (h : s.op.bytesTransferredInternal < 0) :
    hipFileMemcpyKernel env blockDim s = s := by
  unfold hipFileMemcpyKernel
  rw [if_pos h]

end HipFile
