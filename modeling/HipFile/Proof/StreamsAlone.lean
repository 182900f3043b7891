import HipFile.Proof.ConcurrentStreams

/-!
# A stream by itself, step by step

* `stage_ends`: the steps of a stage come to the end that the stage has as a whole.
* `alone_queue`: the steps of a stream, with no step of another between them, execute its launches.
* `sound_start`: what holds of every stream before anything is executed.
* `stream_alone`: a stream by itself serves its requests one after another.
-/

namespace HipFile

open Bytes Fallback

variable {maxRwCount hipStream rounds : ℕ} {rt : Runtime} {st : Streams} {d d' d₀ : DeviceState}
  {env : StreamEnv} {req : AsyncRequest} {s s' : StreamState} {stage : Stage} {a : Activity}
  {a' : Option Activity} {x : Launch} {xs : List Launch} {m : OpMemory}

/-! ## A stage, to its end -/

/-- The steps of a stage, up to its end. -/
inductive Stage.Ends (env : StreamEnv) (stage : Stage) : Activity → StreamState → StreamState → Prop
  | last {a : Activity} {s s' : StreamState} (h : stage.next env a s = some (s', none)) :
      Ends env stage a s s'
  | more {a b : Activity} {s s₁ s' : StreamState} (h : stage.next env a s = some (s₁, some b))
      (hrest : Ends env stage b s₁ s') : Ends env stage a s s'

/-- The loop of the copy. -/
theorem copy_ends {size : ℕ} {fileOffset : ℤ} : ∀ {rounds : ℕ} {c : CopyState},
    Loop.iter (copyRound env size fileOffset) rounds c = .inr s' →
      Stage.cpuCopy.Ends env (.copying size fileOffset c.bytesTransferred) c.state s' := by
  intro rounds
  induction rounds with
  | zero =>
    intro c h
    cases h
  | succ rounds ih =>
    intro c h
    cases hround : copyRound env size fileOffset c with
    | inl c' =>
      rw [Loop.iter_succ_inl hround] at h
      refine .more ?_ (ih h)
      unfold Stage.next copyNext
      simp only [hround]
    | inr s₁ =>
      rw [Loop.iter_succ_inr hround] at h
      cases h
      refine .last ?_
      unfold Stage.next copyNext
      simp only [hround]

/-- The copies of the kernel, one after another. -/
def kernelCopies (env : StreamEnv) (bufferOffset : ℤ) (spans : List Span) (s : StreamState) :
    StreamState :=
  spans.foldl (fun s sp => kernelCopy env bufferOffset sp s) s

theorem kernel_ends {blockDim : ℕ} {bufferOffset : ℤ} : ∀ {spans : List Span} {s : StreamState},
    (Stage.memcpyKernel blockDim).Ends env (.kernel bufferOffset spans) s
      (kernelCopies env bufferOffset spans s) := by
  intro spans
  induction spans with
  | nil =>
    intro s
    exact .last rfl
  | cons sp spans ih =>
    intro s
    exact .more rfl ih

/-- The copies of a read. -/
theorem kernelCopies_read {bufferOffset : ℤ} : ∀ {spans : List Span} {s : StreamState},
    s.op.ioType = .read → kernelCopies env bufferOffset spans s = { s with
      bounceAccesses := s.bounceAccesses ++ spans
      gpuAccesses := s.gpuAccesses ++ spans.map (Span.shift (toSizeT bufferOffset))
      world := { s.world with
        dev := copySpans s.world.dev ((s.op.gpuBuffer + toSizeT bufferOffset) % wordModulus)
          (s.view env) 0 spans } } := by
  intro spans
  induction spans with
  | nil =>
    intro s _
    simp only [kernelCopies, copySpans, List.foldl_nil, List.append_nil, List.map_nil]
  | cons sp spans ih =>
    intro s hio
    -- the bounce buffer, which the copies read, stays as it is
    have hfirst : kernelCopy env bufferOffset sp s = { s with
      bounceAccesses := s.bounceAccesses ++ [sp]
      gpuAccesses := s.gpuAccesses ++ [sp.shift (toSizeT bufferOffset)]
      world := { s.world with
        dev := copySpans s.world.dev ((s.op.gpuBuffer + toSizeT bufferOffset) % wordModulus)
          (s.view env) 0 [sp] } } := by
      unfold kernelCopy
      simp only [hio]
      rfl
    have hrest : kernelCopies env bufferOffset (sp :: spans) s =
      kernelCopies env bufferOffset spans (kernelCopy env bufferOffset sp s) := rfl
    have hnext := ih (s := kernelCopy env bufferOffset sp s) (by rw [hfirst]; exact hio)
    rw [hrest, hnext, hfirst]
    simp only [List.append_assoc, List.singleton_append, List.map_cons]
    rfl

/-- The copies of a write. -/
theorem kernelCopies_write {bufferOffset : ℤ} : ∀ {spans : List Span} {s : StreamState},
    s.op.ioType = .write → kernelCopies env bufferOffset spans s = { s with
      bounceAccesses := s.bounceAccesses ++ spans
      gpuAccesses := s.gpuAccesses ++ spans.map (Span.shift (toSizeT bufferOffset))
      bounce := copySpans s.bounce 0 s.world.dev
        ((s.op.gpuBuffer + toSizeT bufferOffset) % wordModulus) spans } := by
  intro spans
  induction spans with
  | nil =>
    intro s _
    simp only [kernelCopies, copySpans, List.foldl_nil, List.append_nil, List.map_nil]
  | cons sp spans ih =>
    intro s hio
    -- and so does the device memory in a write
    have hfirst : kernelCopy env bufferOffset sp s = { s with
      bounceAccesses := s.bounceAccesses ++ [sp]
      gpuAccesses := s.gpuAccesses ++ [sp.shift (toSizeT bufferOffset)]
      bounce := copySpans s.bounce 0 s.world.dev
        ((s.op.gpuBuffer + toSizeT bufferOffset) % wordModulus) [sp] } := by
      unfold kernelCopy
      simp only [hio]
    have hrest : kernelCopies env bufferOffset (sp :: spans) s =
      kernelCopies env bufferOffset spans (kernelCopy env bufferOffset sp s) := rfl
    have hnext := ih (s := kernelCopy env bufferOffset sp s) (by rw [hfirst]; exact hio)
    rw [hrest, hnext, hfirst]
    simp only [List.append_assoc, List.singleton_append, List.map_cons]
    rfl

/-- The kernel as a whole. -/
theorem memcpyKernel_ends (blockDim : ℕ) (s : StreamState) :
    (Stage.memcpyKernel blockDim).Ends env .idle s (hipFileMemcpyKernel env blockDim s) := by
  have hnext : (Stage.memcpyKernel blockDim).next env .idle s =
    some (kernelStart env blockDim s) := rfl
  unfold kernelStart at hnext
  unfold hipFileMemcpyKernel
  by_cases hst : s.op.bytesTransferredInternal < 0
  · rw [if_pos hst] at hnext ⊢
    exact .last hnext
  rw [if_neg hst] at hnext ⊢
  cases hsize : s.op.size with
  | pointer =>
    simp only [hsize] at hnext ⊢
    exact .last hnext
  | value size =>
    cases hoffset : s.op.bufferOffset with
    | pointer =>
      simp only [hsize, hoffset] at hnext ⊢
      exact .last hnext
    | value bufferOffset =>
      simp only [hsize, hoffset] at hnext ⊢
      by_cases hptr : s.op.bounceBufferDevPtr = 0 ∨ s.op.gpuBuffer = 0
      · rw [if_pos hptr] at hnext ⊢
        exact .last hnext
      · rw [if_neg hptr] at hnext ⊢
        refine .more hnext ?_
        cases hio : s.op.ioType with
        | read =>
          simp only
          have hends : (Stage.memcpyKernel blockDim).Ends env (.kernel bufferOffset
              (env.order (kernelSpans blockDim (toSizeT s.op.bytesTransferredInternal)))) s _ :=
            kernel_ends
          rw [kernelCopies_read hio] at hends
          exact hends
        | write =>
          simp only
          have hends : (Stage.memcpyKernel blockDim).Ends env (.kernel bufferOffset
              (env.order (kernelSpans blockDim size))) s _ := kernel_ends
          rw [kernelCopies_write hio] at hends
          exact hends

/-- **A stage that is done comes to that end step by step.** -/
theorem stage_ends (h : stage.run env rounds s = (.finished, s')) :
    stage.Ends env .idle s s' := by
  cases stage with
  | bindParams =>
    cases h
    exact .last rfl
  | cleanup =>
    cases h
    exact .last rfl
  | memcpyKernel blockDim =>
    cases h
    exact memcpyKernel_ends blockDim s
  | cpuCopy =>
    -- a variant that is not bound is a fault, and out of rounds is no end
    have hrun : asyncIoCpuCopy env rounds s = (.finished, s') := h
    have hnext : Stage.cpuCopy.next env .idle s = copyStart s := rfl
    unfold copyStart at hnext
    unfold asyncIoCpuCopy at hrun
    cases hsize : s.op.size with
    | pointer =>
      simp only [hsize] at hrun
      cases hrun
    | value size =>
      cases hoffset : s.op.fileOffset with
      | pointer =>
        simp only [hsize, hoffset] at hrun
        cases hrun
      | value fileOffset =>
        simp only [hsize, hoffset] at hrun hnext
        by_cases hst : s.op.bytesTransferredInternal < 0
        · rw [if_pos hst] at hrun hnext
          cases hrun
          exact .last hnext
        · rw [if_neg hst] at hrun hnext
          cases hloop : Loop.iter (copyRound env size fileOffset) rounds ⟨s, 0⟩ with
          | inl c =>
            rw [hloop] at hrun
            cases hrun
          | inr s₁ =>
            rw [hloop] at hrun
            cases hrun
            exact .more hnext (copy_ends hloop)

/-! ## A stream by itself -/

@[simp] theorem device_thread (d : DeviceState) (l : List Launch) (a : Activity) :
    (d.thread l a).device d.shared = d := rfl

/-- A step of a stage is a step of the stream. -/
theorem thread_step (hm : d.ops x.op = some m)
    (h : x.stage.next (rt.env x.op) a (d.streamState (rt.inode x.op) m) = some (s', a')) :
    StreamThread.step rt d.shared (d.thread (x :: xs) a) =
      some ((d.put (rt.inode x.op) x.op s').shared,
        (d.put (rt.inode x.op) x.op s').thread (launchesLeft x xs a') (a'.getD .idle)) := by
  have hm' : (d.thread (x :: xs) a).ops x.op = some m := hm
  have hqueue : (d.thread (x :: xs) a).queue = x :: xs := rfl
  have hactivity : (d.thread (x :: xs) a).activity = a := rfl
  unfold StreamThread.step
  rw [hqueue]
  simp only [hm', hactivity, device_thread, h, Option.map_some]
  cases a' with
  | some b => rfl
  | none => rfl

/-- **A stage by itself.** -/
theorem alone_of_ends (h : x.stage.Ends (rt.env x.op) a s s') : ∀ {d : DeviceState} {m : OpMemory},
    d.ops x.op = some m → d.streamState (rt.inode x.op) m = s →
    ∃ n, (st.parties rt d₀).alone hipStream n (d.shared, d.thread (x :: xs) a) =
      some ((d.put (rt.inode x.op) x.op s').shared,
        (d.put (rt.inode x.op) x.op s').thread xs .idle) := by
  induction h with
  | last h =>
    rintro d m hm rfl
    exact ⟨1, Parties.alone_one (thread_step hm h)⟩
  | @more a b s s₁ s' h hrest ih =>
    rintro d m hm rfl
    -- the stage goes on from what its first step has left of the op
    obtain ⟨n, hn⟩ := @ih (d.put (rt.inode x.op) x.op s₁) _ (put_ops_self (rt.inode x.op))
      (streamState_put (rt.inode x.op))
    rw [put_put] at hn
    exact ⟨1 + n, Parties.alone_trans (Parties.alone_one (thread_step hm h)) hn⟩

/-- **The launches of a stream by itself.** -/
theorem alone_queue : ∀ {l : List Launch} {d : DeviceState},
    runQueue rt rounds l d = (.finished, d') →
    ∃ n, (st.parties rt d₀).alone hipStream n (d.shared, d.thread l .idle) =
      some (d'.shared, d'.thread [] .idle) := by
  intro l
  induction l with
  | nil =>
    intro d h
    obtain rfl := (Prod.mk.inj h).2
    exact ⟨0, rfl⟩
  | cons x l ih =>
    intro d h
    rw [runQueue] at h
    cases hm : d.ops x.op with
    | none =>
      simp only [runLaunch, hm] at h
      cases h
    | some m =>
      simp only [runLaunch, hm] at h
      cases hrun : x.stage.run (rt.env x.op) rounds (d.streamState (rt.inode x.op) m) with
      | mk p s =>
        rw [hrun] at h
        cases p with
        | finished =>
          obtain ⟨n, hn⟩ : ∃ n, (st.parties rt d₀).alone hipStream n
              (d.shared, d.thread (x :: l) .idle) =
                some ((d.put (rt.inode x.op) x.op s).shared,
                  (d.put (rt.inode x.op) x.op s).thread l .idle) :=
            alone_of_ends (stage_ends hrun) hm rfl
          obtain ⟨k, hk⟩ := ih h
          exact ⟨n + k, Parties.alone_trans hn hk⟩
        | running | fault => cases (Prod.mk.inj h).1

/-! ## All streams at once -/

namespace Streams

/-- What a stream starts with, before anything is executed. -/
theorem sound_start (hs : (machine maxRwCount).Reaches Registered st) {bounce : ℕ → Mem}
    (hops : d.ops = st.opMemory maxRwCount bounce) (hquiet : Quiet maxRwCount st hipStream) :
    Sound maxRwCount st rt hipStream (d.thread (st.queue hipStream) .idle) where
  queued _ hx := hx
  activity _ _ _ _ _ _ _ := doing_idle _ _ _
  op := by
    intro x hx
    obtain ⟨op, devPtr, blockDim, hop, hacc, hptr, -, hm, hblock, -⟩ :=
      pipeline_of_queued hs hops hx (hquiet.returned x hx)
    have hrequest : st.requests x.op = some op.request := by
      unfold requests
      rw [hop]
      rfl
    have hstages : stagesOf (st.queue hipStream) x.op =
        bindStages op.request ++ copyStages blockDim op.request.type ++ [Stage.cleanup] := by
      have hmap := congrArg (List.map Launch.stage) hblock
      rw [List.map_map] at hmap
      exact hmap.trans (List.map_id _)
    -- the op waits for its parameters, or has had them since it was constructed
    refine ⟨op.request, _, hrequest, hm, ?_⟩
    show OpSound maxRwCount op.request (rt.env x.op).client _ (stagesOf (st.queue hipStream) x.op)
    rw [hstages]
    have hrest : Stage.bindParams ∉ copyStages blockDim op.request.type ++ [Stage.cleanup] := by
      cases op.request.type <;> simp [copyStages]
    cases hfix : op.request.stream.allFixed with
    | false =>
      have hbind : bindStages op.request = [.bindParams] := if_neg (by rw [hfix]; decide)
      rw [hbind]
      exact .unbound hptr rfl hfix hrest
    | true =>
      have hbind : bindStages op.request = [] := if_pos hfix
      rw [hbind]
      have hlimited := hquiet.limited x hx op hop
      have hsettled := fixed_settled (s := d.streamState 0
        ⟨AsyncOpFallback.construct maxRwCount op.request devPtr, bounce x.op, 0, [], []⟩)
        (rt.env x.op).client hacc hfix hlimited hptr rfl
      exact .bound hsettled hrest

/-- A stream without launches has nothing to do. -/
theorem step_of_empty {u : SharedState} {t : StreamThread} (h : t.queue = []) :
    t.step rt u = none := by
  unfold StreamThread.step
  rw [h]

/-- What all streams start with: each is ready, and their requests do not overlap. -/
structure AllReady (maxRwCount : ℕ) (st : Streams) (rt : Runtime) (d : DeviceState) : Prop where
  ready : ∀ hipStream, Ready maxRwCount st hipStream rt d
  quiet : ∀ hipStream, Quiet maxRwCount st hipStream
  apart : st.Apart maxRwCount rt

theorem AllReady.separate (hall : AllReady maxRwCount st rt d) :
    Parties.Separate (st.parties rt d) (Sound maxRwCount st rt) (SameView maxRwCount st rt) :=
  HipFile.separate (fun o => ((hall.ready 0).env o).1) hall.apart

theorem AllReady.sound (hs : (machine maxRwCount).Reaches Registered st)
    (hall : AllReady maxRwCount st rt d) (hipStream : ℕ) :
    Sound maxRwCount st rt hipStream (d.thread (st.queue hipStream) .idle) := by
  obtain ⟨bounce, hops⟩ := (hall.ready hipStream).ops
  exact sound_start hs hops (hall.quiet hipStream)

/-- **A stream by itself** serves its requests one after another, whatever it finds in the files
and in the memory. -/
theorem stream_alone (hs : (machine maxRwCount).Reaches Registered st) (hlt : maxRwCount < 2 ^ 63)
    (hall : AllReady maxRwCount st rt d) (u : SharedState)
    (hmonitor : u.monitor.submittedOps = d.monitor.submittedOps) (hipStream : ℕ) :
    ∃ (os : List ℕ) (d' : DeviceState) (n : ℕ), os.Nodup ∧
      (∀ o, o ∈ os ↔ ∃ x ∈ st.queue hipStream, x.op = o) ∧
      st.queue hipStream = os.flatMap (st.block hipStream) ∧
      Serial maxRwCount st.requests rt d'.reported os u.memory d'.memory ∧
      (st.parties rt d).alone hipStream n (u, d.thread (st.queue hipStream) .idle) =
        some (d'.shared, d'.thread [] .idle) := by
  -- what the other streams have left makes no difference to its ops
  have hready := hall.ready hipStream
  obtain ⟨os, d', R, hnodup, hmem, hqueue, hfinish, hserial⟩ :=
    serial_of_registered (d := (d.thread (st.queue hipStream) .idle).device u) hs hlt
      ⟨hready.env, hready.interrupted, hready.ops, fun x hx => hmonitor ▸ hready.monitor x hx⟩
      (hall.quiet hipStream)
  have halone : ∃ n, (st.parties rt d).alone hipStream n
      (u, d.thread (st.queue hipStream) .idle) = some (d'.shared, d'.thread [] .idle) :=
    alone_queue (hfinish R (Nat.le_refl R))
  obtain ⟨n, hn⟩ := halone
  exact ⟨os, d', n, hnodup, hmem, hqueue, hserial, hn⟩

end Streams

end HipFile
