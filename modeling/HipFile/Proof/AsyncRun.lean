import HipFile.Proof.AsyncStages

/-!
# Runs of the stages

* `runStages_append`, `runStages_inv`: the rules for runs.
* `asyncIoBindParams_spec`: what is bound, and with which status.
* `Staged`: what the copy and the kernel keep, in whatever order they run.
* `copyStages_spec`, `copyStages_total`: what the copy and the kernel leave together.
-/

namespace HipFile

open Bytes

variable {env : StreamEnv} {rounds maxRwCount : ℕ} {req : AsyncRequest} {params : Params}
  {s s' s₀ s₁ s₂ : StreamState}

/-! ## Rules for runs -/

theorem runStages_singleton (env : StreamEnv) (rounds : ℕ) (stage : Stage) (s : StreamState) :
    runStages env rounds [stage] s = stage.run env rounds s := by
  unfold runStages runStages
  rcases stage.run env rounds s with ⟨p, s'⟩
  cases p <;> rfl

theorem runStages_append (env : StreamEnv) (rounds : ℕ) (l' : List Stage) :
    ∀ (l : List Stage) (s : StreamState), runStages env rounds (l ++ l') s =
      match runStages env rounds l s with
      | (.finished, s) => runStages env rounds l' s
      | r => r := by
  intro l
  induction l with
  | nil => intro s; rfl
  | cons stage l ih =>
    intro s
    rw [List.cons_append, runStages, runStages]
    rcases stage.run env rounds s with ⟨p, s'⟩
    cases p with
    | finished => exact ih s'
    | running => rfl
    | fault => rfl

/-- What holds wherever the first part stands, and is kept by the second, holds of the run. -/
theorem runStages_append_keeps {I : StreamState → Prop} {l l' : List Stage}
    (hl : I (runStages env rounds l s).2)
    (hkeep : ∀ s, I s → I (runStages env rounds l' s).2) :
    I (runStages env rounds (l ++ l') s).2 := by
  rw [runStages_append]
  rcases hr : runStages env rounds l s with ⟨p, s'⟩
  rw [hr] at hl
  cases p with
  | finished => exact hkeep s' hl
  | running => exact hl
  | fault => exact hl

theorem runStages_append_finished {l l' : List Stage}
    (h : runStages env rounds l s = (.finished, s')) :
    runStages env rounds (l ++ l') s = runStages env rounds l' s' := by
  rw [runStages_append, h]

/-- A run that has finished has finished each of its parts. -/
theorem finished_of_append {l l' : List Stage}
    (h : runStages env rounds (l ++ l') s = (.finished, s')) :
    ∃ s₁, runStages env rounds l s = (.finished, s₁) ∧
      runStages env rounds l' s₁ = (.finished, s') := by
  rw [runStages_append] at h
  rcases hl : runStages env rounds l s with ⟨p, s₁⟩
  rw [hl] at h
  cases p with
  | finished => exact ⟨s₁, rfl, h⟩
  | running => cases h
  | fault => cases h

/-- **The invariant rule for runs**: what every stage keeps holds wherever the run stands. -/
theorem runStages_inv (env : StreamEnv) (rounds : ℕ) {I : StreamState → Prop} {l : List Stage}
    (hstep : ∀ stage ∈ l, ∀ s, I s → (stage.run env rounds s).1 ≠ .fault ∧
      I (stage.run env rounds s).2) :
    ∀ s, I s → (runStages env rounds l s).1 ≠ .fault ∧ I (runStages env rounds l s).2 := by
  induction l with
  | nil => exact fun s hs => ⟨by simp [runStages], hs⟩
  | cons stage l ih =>
    intro s hs
    obtain ⟨hp, hI⟩ := hstep stage List.mem_cons_self s hs
    unfold runStages
    rcases hr : stage.run env rounds s with ⟨p, s'⟩
    rw [hr] at hp hI
    cases p with
    | finished => exact ih (fun st hst => hstep st (List.mem_cons_of_mem _ hst)) s' hI
    | running => exact ⟨hp, hI⟩
    | fault => exact absurd rfl hp

/-! ## Binding the parameters -/

/-- The size that the client asks for: the submitted one, if it is fixed. -/
def AsyncRequest.requestedSize (req : AsyncRequest) (client : Params) : ℕ :=
  if req.stream.fixedIOSize then req.params.size else client.size

/-- **The parameters that the stages work with**, where the client's memory holds `client`
when they are bound. The size is limited only by the binding stage. -/
def AsyncRequest.bound (maxRwCount : ℕ) (req : AsyncRequest) (client : Params) : Params where
  size := if req.stream.allFixed then req.params.size
    else min (req.requestedSize client) maxRwCount
  fileOffset := if req.stream.fixedFileOffset then req.params.fileOffset else client.fileOffset
  bufferOffset :=
    if req.stream.fixedBufferOffset then req.params.bufferOffset else client.bufferOffset

/-- The size is fixed, larger than the limit, and no stage will limit it. -/
def Oversized (maxRwCount : ℕ) (req : AsyncRequest) : Prop :=
  req.stream.allFixed = true ∧ maxRwCount < req.params.size

/-- **What the binding leaves**: the op with its parameters and its status, and nothing else
changed. -/
structure ParamsBound (maxRwCount : ℕ) (req : AsyncRequest) (client : Params)
    (s₀ s : StreamState) : Prop where
  bound : Bound maxRwCount req (req.bound maxRwCount client) s.op
  others : s = { s₀ with op := s.op }
  status : (s.op.bytesTransferredInternal = 0 ∧ OffsetsOk req (req.bound maxRwCount client) ∧
      (RegionOk maxRwCount req (req.bound maxRwCount client) ∨ Oversized maxRwCount req)) ∨
    (s.op.bytesTransferredInternal = invalidValueStatus ∧
      ¬ RegionOk maxRwCount req (req.bound maxRwCount client) ∧ req.stream.allFixed = false)

/-- The stage that binds the parameters, if it is enqueued. -/
def bindStages (req : AsyncRequest) : List Stage :=
  if req.stream.allFixed then [] else [.bindParams]

theorem paramsValid_of_accept (h : Fallback.asyncAccept maxRwCount req = .ok ()) :
    paramsValid req.buffer.toIBuffer (min req.params.size maxRwCount) req.params.fileOffset
      req.params.bufferOffset = true := by
  unfold Fallback.asyncAccept at h
  simp only at h
  by_contra hv
  rw [if_pos hv] at h
  cases h

theorem invalidValueStatus_neg : invalidValueStatus < 0 := by decide

/-- With everything fixed, the op is constructed with its parameters. -/
theorem paramsBound_fixed {devPtr : ℕ} (client : Params)
    (hacc : Fallback.asyncAccept maxRwCount req = .ok ()) (hfix : req.stream.allFixed = true)
    (hptr : devPtr ≠ 0) (hop : s.op = AsyncOpFallback.construct maxRwCount req devPtr) :
    ParamsBound maxRwCount req client s s := by
  have hall := hfix
  simp only [IStream.allFixed, Bool.and_eq_true] at hall
  obtain ⟨⟨hbo, hfo⟩, hsz⟩ := hall
  have hparams : req.bound maxRwCount client = req.params := by
    simp [AsyncRequest.bound, hfix, hbo, hfo]
  have hvalid := paramsValid_of_accept hacc
  refine ⟨?_, rfl, Or.inl ?_⟩
  · rw [hparams, hop]
    exact ⟨rfl, rfl, rfl, rfl, rfl, hptr, if_pos hsz, if_pos hfo, if_pos hbo⟩
  · rw [hparams, hop]
    refine ⟨rfl, offsetsOk_of_paramsValid hvalid, ?_⟩
    by_cases hle : req.params.size ≤ maxRwCount
    · rw [Nat.min_eq_left hle] at hvalid
      exact Or.inl ⟨by rw [Nat.min_eq_left hle], hvalid⟩
    · exact Or.inr ⟨hfix, Nat.lt_of_not_le hle⟩

/-- **What `async_io_bind_params` does** with an op as it has been constructed. -/
theorem asyncIoBindParams_spec {devPtr : ℕ} (hM : env.maxRwCount = maxRwCount)
    (hfix : req.stream.allFixed = false) (hptr : devPtr ≠ 0)
    (hop : s.op = AsyncOpFallback.construct maxRwCount req devPtr) :
    ParamsBound maxRwCount req env.client s (asyncIoBindParams env s) := by
  have hsize : (req.bound maxRwCount env.client).size =
      min (s.op.size.deref env.client.size) env.maxRwCount := by
    rw [hop, hM]
    simp only [AsyncRequest.bound, hfix, AsyncOpFallback.construct, AsyncRequest.requestedSize]
    cases req.stream.fixedIOSize <;> rfl
  have hfo : (req.bound maxRwCount env.client).fileOffset.val =
      s.op.fileOffset.deref env.client.fileOffset.val := by
    rw [hop]
    simp only [AsyncRequest.bound, AsyncOpFallback.construct]
    cases req.stream.fixedFileOffset <;> rfl
  have hbo : (req.bound maxRwCount env.client).bufferOffset.val =
      s.op.bufferOffset.deref env.client.bufferOffset.val := by
    rw [hop]
    simp only [AsyncRequest.bound, AsyncOpFallback.construct]
    cases req.stream.fixedBufferOffset <;> rfl
  have hsub : s.op.submittedSize = min req.params.size maxRwCount := by rw [hop]; rfl
  have hbuf : s.op.buffer = req.buffer.toIBuffer := by rw [hop]; rfl
  have hbound : Bound maxRwCount req (req.bound maxRwCount env.client)
      { s.op with
        bufferOffset := .value (req.bound maxRwCount env.client).bufferOffset.val
        fileOffset := .value (req.bound maxRwCount env.client).fileOffset.val
        size := .value (req.bound maxRwCount env.client).size } := by
    rw [hop]
    exact ⟨rfl, rfl, rfl, rfl, rfl, hptr, rfl, rfl, rfl⟩
  have hstatus : s.op.bytesTransferredInternal = 0 := by rw [hop]; rfl
  unfold asyncIoBindParams
  simp only [← hsize, ← hfo, ← hbo]
  -- the two checks: the size against the bounce buffer, and the region
  by_cases hlt : s.op.submittedSize < (req.bound maxRwCount env.client).size
  · rw [if_pos hlt]
    exact ⟨hbound.setInternal (s := { s with op := _ }) _, rfl, Or.inr ⟨rfl,
      fun h => Nat.not_lt.2 h.1 (hsub ▸ hlt), hfix⟩⟩
  · rw [if_neg hlt]
    by_cases hv : paramsValid s.op.buffer (req.bound maxRwCount env.client).size
        (req.bound maxRwCount env.client).fileOffset
        (req.bound maxRwCount env.client).bufferOffset = true
    · rw [if_neg (not_not.2 hv)]
      rw [hbuf] at hv
      exact ⟨hbound, rfl, Or.inl ⟨hstatus, offsetsOk_of_paramsValid hv,
        Or.inl ⟨hsub ▸ Nat.not_lt.1 hlt, hv⟩⟩⟩
    · rw [if_pos hv]
      rw [hbuf] at hv
      exact ⟨hbound.setInternal (s := { s with op := _ }) _, rfl, Or.inr ⟨rfl,
        fun h => hv h.2, hfix⟩⟩

/-- **The binding, in a run**: it leaves the op with its parameters and its status. -/
theorem bindStages_spec {devPtr : ℕ} (hacc : Fallback.asyncAccept maxRwCount req = .ok ())
    (hM : env.maxRwCount = maxRwCount) (hptr : devPtr ≠ 0)
    (hop : s.op = AsyncOpFallback.construct maxRwCount req devPtr) :
    ∃ s', (∀ rounds, runStages env rounds (bindStages req) s = (.finished, s')) ∧
      ParamsBound maxRwCount req env.client s s' := by
  unfold bindStages
  by_cases hfix : req.stream.allFixed = true
  · rw [if_pos hfix]
    exact ⟨s, fun _ => rfl, paramsBound_fixed env.client hacc hfix hptr hop⟩
  · rw [if_neg hfix]
    exact ⟨_, fun _ => rfl,
      asyncIoBindParams_spec hM (Bool.eq_false_iff.2 hfix) hptr hop⟩

/-! ## The copy and the kernel -/

/-- The stages that move bytes. -/
def Stage.Moves : Stage → Prop
  | .cpuCopy => True
  | .memcpyKernel _ => True
  | .bindParams => False
  | .cleanup => False

/-- **What the copy and the kernel keep**, from a state `s₀` with no accesses. -/
structure Staged (maxRwCount : ℕ) (req : AsyncRequest) (params : Params) (s₀ s : StreamState) :
    Prop where
  bound : Bound maxRwCount req params s.op
  status_le : s.op.bytesTransferredInternal ≤ params.size
  status_lt : s.op.bytesTransferredInternal < wordModulus
  monitor : s.monitor = s₀.monitor
  bytesTransferred : s.bytesTransferred = s₀.bytesTransferred
  bounceAccesses : ∀ sp ∈ s.bounceAccesses, ∀ i, sp.Covers i → i < params.size
  gpuAccesses : ∀ sp ∈ s.gpuAccesses, ∀ i, sp.Covers i →
    params.bufferOffset.val.toNat ≤ i ∧ i < params.bufferOffset.val.toNat + params.size

theorem toSsizeT_le (n : ℕ) : toSsizeT n ≤ n := by
  unfold toSsizeT
  have := Nat.mod_le n wordModulus
  split <;> omega

theorem toSsizeT_lt (n : ℕ) : toSsizeT n < wordModulus := by
  unfold toSsizeT
  have := Nat.mod_lt n (show 0 < wordModulus by decide)
  split <;> omega

theorem Staged.cpuCopy (env : StreamEnv) (rounds : ℕ) (hok : OffsetsOk req params)
    (hs : Staged maxRwCount req params s₀ s) : (asyncIoCpuCopy env rounds s).1 ≠ .fault ∧
      Staged maxRwCount req params s₀ (asyncIoCpuCopy env rounds s).2 := by
  by_cases hst : s.op.bytesTransferredInternal < 0
  · rw [cpuCopy_of_error env rounds hs.bound hst]
    exact ⟨by simp, hs⟩
  -- the bytes of the bounce buffer that the copy has accessed are inside the size
  have hacc : ∀ {s' : StreamState}, CopyFrame params.size s s' →
      ∀ sp ∈ s'.bounceAccesses, ∀ i, sp.Covers i → i < params.size := by
    intro s' hf sp hsp
    rcases hf.bounceAccesses sp hsp with h | h
    · exact hs.bounceAccesses sp h
    · exact h
  obtain ⟨s', ⟨hrun, hop, hf⟩ | ⟨hrun, hdone⟩⟩ :=
    cpuCopy_spec env rounds hs.bound hok.fileOffset (Int.not_lt.1 hst)
  · rw [hrun]
    refine ⟨by simp, ?_⟩
    refine ⟨hop ▸ hs.bound, hop ▸ hs.status_le, hop ▸ hs.status_lt, hf.monitor.trans hs.monitor,
      hf.bytesTransferred.trans hs.bytesTransferred, hacc hf, ?_⟩
    rw [hf.gpuAccesses]
    exact hs.gpuAccesses
  · rw [hrun]
    refine ⟨by simp, ?_⟩
    have hf := hdone.frame
    obtain ⟨status, tr, hop, -, hstatus⟩ := hdone.status
    have hle : status ≤ params.size ∧ status < wordModulus := by
      rcases hstatus with ⟨rfl, -, -⟩ | ⟨n, hn, rfl, -, -⟩
      · exact ⟨by omega, by decide⟩
      · have := toSsizeT_le n
        exact ⟨by omega, toSsizeT_lt n⟩
    refine ⟨?_, ?_, ?_, hf.monitor.trans hs.monitor, hf.bytesTransferred.trans hs.bytesTransferred,
      hacc hf, ?_⟩
    · rw [hop]
      exact hs.bound.setInternal status
    · rw [hop]
      exact hle.1
    · rw [hop]
      exact hle.2
    · rw [hf.gpuAccesses]
      exact hs.gpuAccesses

theorem Staged.kernel (env : StreamEnv) (blockDim : ℕ) (hok : OffsetsOk req params)
    (hs : Staged maxRwCount req params s₀ s) :
    Staged maxRwCount req params s₀ (hipFileMemcpyKernel env blockDim s) := by
  by_cases hst : s.op.bytesTransferredInternal < 0
  · rw [kernel_of_error env blockDim hst]
    exact hs
  obtain ⟨n, hn⟩ := Int.eq_ofNat_of_zero_le (Int.not_lt.1 hst)
  have hle := hs.status_le
  have hlt := hs.status_lt
  rw [hn] at hle hlt
  have hker := kernel_spec env blockDim hs.bound hok hn (by omega)
  have hop := hker.op
  have hsize : kernelSize req.type params.size n ≤ params.size := by
    unfold kernelSize
    cases req.type with
    | read => simp only; omega
    | write => exact Nat.le_refl _
  -- the kernel's copies are inside its size, in the bounce buffer and in the region
  have hspans : ∀ sp ∈ env.order (kernelSpans blockDim (kernelSize req.type params.size n)), ∀ i,
      sp.Covers i → i < params.size := by
    intro sp hsp i hi
    have hmem := (env.order_perm _).mem_iff.1 hsp
    exact Nat.lt_of_lt_of_le (lt_of_covers_kernelSpans hmem hi) hsize
  refine ⟨hop ▸ hs.bound, hop ▸ hs.status_le, hop ▸ hs.status_lt, hker.monitor.trans hs.monitor,
    hker.bytesTransferred.trans hs.bytesTransferred, fun sp hsp i hi => ?_, fun sp hsp i hi => ?_⟩
  · rw [hker.bounceAccesses] at hsp
    rcases List.mem_append.1 hsp with hsp | hsp
    · exact hs.bounceAccesses sp hsp i hi
    · exact hspans sp hsp i hi
  · rw [hker.gpuAccesses] at hsp
    rcases List.mem_append.1 hsp with hsp | hsp
    · exact hs.gpuAccesses sp hsp i hi
    · obtain ⟨sp', hsp', rfl⟩ := List.mem_map.1 hsp
      obtain ⟨hge, hcov⟩ := Span.covers_shift.1 hi
      have := hspans sp' hsp' _ hcov
      omega

/-- **A stage that moves bytes keeps `Staged`.** -/
theorem Staged.run {stage : Stage} (env : StreamEnv) (rounds : ℕ) (hok : OffsetsOk req params)
    (hs : Staged maxRwCount req params s₀ s) (hm : stage.Moves) :
    (stage.run env rounds s).1 ≠ .fault ∧
      Staged maxRwCount req params s₀ (stage.run env rounds s).2 := by
  cases stage with
  | cpuCopy => exact hs.cpuCopy env rounds hok
  | memcpyKernel blockDim => exact ⟨by simp [Stage.run], hs.kernel env blockDim hok⟩
  | bindParams => exact hm.elim
  | cleanup => exact hm.elim

/-- **A negative status stays**: the stages after it change nothing. -/
theorem runStages_of_error (env : StreamEnv) (rounds : ℕ) (hb : Bound maxRwCount req params s.op)
    (hst : s.op.bytesTransferredInternal < 0) :
    ∀ l : List Stage, (∀ stage ∈ l, stage.Moves) → runStages env rounds l s = (.finished, s) := by
  intro l
  induction l with
  | nil => intro _; rfl
  | cons stage l ih =>
    intro hl
    have hstage : stage.run env rounds s = (.finished, s) := by
      have hm := hl stage List.mem_cons_self
      cases stage with
      | cpuCopy => exact cpuCopy_of_error env rounds hb hst
      | memcpyKernel blockDim =>
        have hker := kernel_of_error env blockDim hst
        exact congrArg (Prod.mk Progress.finished) hker
      | bindParams => exact hm.elim
      | cleanup => exact hm.elim
    rw [runStages, hstage]
    exact ih fun st hst => hl st (List.mem_cons_of_mem _ hst)

/-- **The cleanup publishes the status** of an op that is with the monitor. -/
theorem asyncIoCleanup_spec (h : env.addr ∈ s.monitor.submittedOps) :
    ∃ monitor, asyncIoCleanup env s =
      { s with monitor := monitor, bytesTransferred := s.op.bytesTransferredInternal } := by
  refine ⟨{ s.monitor with completedOps := s.monitor.completedOps ++ [env.addr] }, ?_⟩
  unfold asyncIoCleanup AsyncMonitor.completeOp
  rw [if_neg (not_not.2 h)]

/-! ## The transfer as a whole -/

/-- The first `n` bytes of the region have been transferred end to end, and their source is as
it was. -/
def EndToEnd (req : AsyncRequest) (params : Params) (w : World) (n : ℕ) (w' : World) : Prop :=
  match req.type with
  | .read => w'.file = w.file ∧ Agree n w'.dev (regionStart req.buffer params.bufferOffset)
      w.file.data params.fileOffset.val.toNat
  | .write => w'.dev = w.dev ∧ Agree n w'.file.data params.fileOffset.val.toNat w.dev
      (regionStart req.buffer params.bufferOffset)

/-- Nothing outside the region has changed. -/
def OnlyRegion (req : AsyncRequest) (params : Params) (w w' : World) : Prop :=
  match req.type with
  | .read => w'.file = w.file ∧
      SameOutside (regionStart req.buffer params.bufferOffset) params.size w.dev w'.dev
  | .write => w'.dev = w.dev ∧
      SameOutside params.fileOffset.val.toNat params.size w.file.data w'.file.data

/-- **What the copy and the kernel leave together**: after a call that failed the status is
`-1`, and otherwise it is a number of bytes that have been transferred. -/
structure Transferred (maxRwCount : ℕ) (req : AsyncRequest) (params : Params)
    (s₀ s : StreamState) : Prop where
  bound : Bound maxRwCount req params s.op
  monitor : s.monitor = s₀.monitor
  only : OnlyRegion req params s₀.world s.world
  status : ∃ tr, s.world.trace = s₀.world.trace ++ tr ∧
    ((s.op.bytesTransferredInternal = -1 ∧ AnyIoFailed tr ∧
        (req.type = .read → s.world.dev = s₀.world.dev)) ∨
      ∃ n ≤ params.size, s.op.bytesTransferredInternal = n ∧ ¬ AnyIoFailed tr ∧
        EndToEnd req params s₀.world n s.world)

/-- The stages of the transfer, in the order in which they are enqueued. -/
def copyStages (blockDim : ℕ) : IoType → List Stage
  | .read => [.cpuCopy, .memcpyKernel blockDim]
  | .write => [.memcpyKernel blockDim, .cpuCopy]

theorem moves_of_mem_copyStages {blockDim : ℕ} {type : IoType} {stage : Stage}
    (h : stage ∈ copyStages blockDim type) : stage.Moves := by
  cases type <;> simp only [copyStages, List.mem_cons, List.not_mem_nil, or_false] at h <;>
    rcases h with rfl | rfl <;> trivial

/-- The bounce buffer is read as it is below its size. -/
theorem view_of_lt (env : StreamEnv) (hb : Bound maxRwCount req params s.op) {i : ℕ}
    (hi : i < min req.params.size maxRwCount) : s.view env i = s.bounce i := by
  unfold StreamState.view
  rw [hb.submittedSize, if_pos hi]

variable {blockDim : ℕ}

/-- The kernel of a read, after its copy is done. -/
theorem read_transferred (hB : 0 < blockDim) (hM : maxRwCount < 2 ^ 63)
    (hb : Bound maxRwCount req params s₀.op) (hok : RegionOk maxRwCount req params)
    (htype : req.type = .read) (hdone : CopyDone env s₀ params.size params.fileOffset s) :
    Transferred maxRwCount req params s₀ (hipFileMemcpyKernel env blockDim s) := by
  have hf := hdone.frame
  obtain ⟨status, tr, hop, htr, hstatus⟩ := hdone.status
  have hbs : Bound maxRwCount req params s.op := hop ▸ hb.setInternal status
  have hint : s.op.bytesTransferredInternal = status := by rw [hop]
  have hsub := hok.1
  rcases hstatus with ⟨rfl, hfail, done, -, hcop⟩ | ⟨n, hn, rfl, hfail, hcop⟩
  · -- a call failed: the kernel does nothing
    rw [kernel_of_error env blockDim (by rw [hint]; decide)]
    simp only [Copied, hb.ioType, htype] at hcop
    refine ⟨hbs, hf.monitor, ?_, tr, htr, Or.inl ⟨hint, hfail, fun _ => hf.dev⟩⟩
    simp only [OnlyRegion, htype]
    exact ⟨hcop.1, hf.dev ▸ SameOutside.refl _ _ _⟩
  · rw [toSsizeT_of_lt (by omega)] at hint
    simp only [Copied, hb.ioType, htype] at hcop
    obtain ⟨hfile, hbounce⟩ := hcop
    have hker := kernel_spec env blockDim hbs (offsetsOk_of_paramsValid hok.2) hint
      (by unfold wordModulus; omega)
    set s' := hipFileMemcpyKernel env blockDim s with hs'
    have hop' := hker.op
    -- what the kernel reads is what the copy has put there
    have hdev : s'.world.dev = splice s₀.world.dev (regionStart req.buffer params.bufferOffset)
        s₀.world.file.data params.fileOffset.val.toNat n := by
      have hcells :
          splice s.world.dev (regionStart req.buffer params.bufferOffset) (s.view env) 0 n =
          splice s.world.dev (regionStart req.buffer params.bufferOffset) s.bounce 0 n := by
        refine splice_congr _ _ fun i hi => ?_
        exact view_of_lt env hbs (by omega)
      rw [hker.read hB htype, hcells, hf.dev, hbounce, splice_through _ _ _ _ _ _ (Nat.le_refl n)]
    have hfile' : s'.world.file = s₀.world.file := hker.file.trans hfile
    refine ⟨hop' ▸ hbs, hker.monitor.trans hf.monitor, ?_, tr, hker.trace.trans htr,
      Or.inr ⟨n, hn, hop' ▸ hint, hfail, ?_⟩⟩
    · simp only [OnlyRegion, htype]
      refine ⟨hfile', ?_⟩
      rw [hdev]
      exact sameOutside_splice (Nat.le_refl _) (by omega)
    · simp only [EndToEnd, htype]
      refine ⟨hfile', ?_⟩
      rw [hdev]
      exact agree_splice

/-- The copy of a write, after its kernel. -/
theorem write_transferred (hB : 0 < blockDim) (hM : maxRwCount < 2 ^ 63)
    (hb : Bound maxRwCount req params s₀.op) (hok : RegionOk maxRwCount req params)
    (hst : s₀.op.bytesTransferredInternal = 0) (htype : req.type = .write)
    (hdone : CopyDone env (hipFileMemcpyKernel env blockDim s₀) params.size params.fileOffset s) :
    Transferred maxRwCount req params s₀ s := by
  have hker := kernel_spec_zero env blockDim hb (offsetsOk_of_paramsValid hok.2) hst
  set s' := hipFileMemcpyKernel env blockDim s₀ with hs'
  obtain ⟨hdev, hbounce⟩ := hker.write hB htype
  have hop' := hker.op
  have hmon := hker.monitor
  have hf := hdone.frame
  have hb' : Bound maxRwCount req params s'.op := hop' ▸ hb
  have hsub := hok.1
  -- what the copy reads is what the kernel has put there
  have hview : ∀ i < params.size, s'.view env (0 + i) =
      s₀.world.dev (regionStart req.buffer params.bufferOffset + i) := by
    intro i hi
    have hcell : s'.view env i = s'.bounce i := view_of_lt env hb' (by omega)
    rw [Nat.zero_add, hcell, hbounce]
    simpa using splice_inside s₀.bounce 0 s₀.world.dev
      (regionStart req.buffer params.bufferOffset) hi
  obtain ⟨status, tr, hop, htr, hstatus⟩ := hdone.status
  have hbs : Bound maxRwCount req params s.op := hop ▸ hb'.setInternal status
  have hint : s.op.bytesTransferredInternal = status := by rw [hop]
  rw [hker.trace] at htr
  -- however many bytes have been written
  have hcopied : ∀ done ≤ params.size, Copied env s' params.size params.fileOffset s done →
      Agree done s.world.file.data params.fileOffset.val.toNat s₀.world.dev
        (regionStart req.buffer params.bufferOffset) ∧ OnlyRegion req params s₀.world s.world := by
    intro done hle hcop
    simp only [Copied, hb'.ioType, htype, hker.file] at hcop
    refine ⟨fun i hi => (hcop.2.1 i hi).trans (hview i (by omega)), ?_⟩
    simp only [OnlyRegion, htype]
    exact ⟨hf.dev.trans hdev, hcop.2.2⟩
  rcases hstatus with ⟨rfl, hfail, done, hle, hcop⟩ | ⟨n, hn, rfl, hfail, hcop⟩
  · refine ⟨hbs, hf.monitor.trans hmon, (hcopied done hle hcop).2, tr, htr,
      Or.inl ⟨hint, hfail, fun h => ?_⟩⟩
    cases htype.symm.trans h
  · rw [toSsizeT_of_lt (by omega)] at hint
    refine ⟨hbs, hf.monitor.trans hmon, (hcopied n hn hcop).2, tr, htr,
      Or.inr ⟨n, hn, hint, hfail, ?_⟩⟩
    simp only [EndToEnd, htype]
    exact ⟨hf.dev.trans hdev, (hcopied n hn hcop).1⟩

/-- **A finished transfer**, whatever the number of rounds. -/
theorem copyStages_spec (hB : 0 < blockDim) (hM : maxRwCount < 2 ^ 63)
    (hb : Bound maxRwCount req params s₀.op) (hok : RegionOk maxRwCount req params)
    (hst : s₀.op.bytesTransferredInternal = 0)
    (hrun : runStages env rounds (copyStages blockDim req.type) s₀ = (.finished, s)) :
    Transferred maxRwCount req params s₀ s := by
  have hoff := offsetsOk_of_paramsValid hok.2
  cases htype : req.type with
  | read =>
    rw [htype] at hrun
    obtain ⟨s', ⟨hcopy, -, -⟩ | ⟨hcopy, hdone⟩⟩ :=
      cpuCopy_spec env rounds hb hoff.fileOffset hst.ge
    · simp [copyStages, runStages, Stage.run, hcopy] at hrun
    · simp only [copyStages, runStages, Stage.run, hcopy, Prod.mk.injEq, true_and] at hrun
      exact hrun ▸ read_transferred hB hM hb hok htype hdone
  | write =>
    rw [htype] at hrun
    have hop := (kernel_spec_zero env blockDim hb hoff hst).op
    obtain ⟨s', ⟨hcopy, -, -⟩ | ⟨hcopy, hdone⟩⟩ :=
      cpuCopy_spec env rounds (hop ▸ hb) hoff.fileOffset (hop ▸ hst.ge)
    · simp [copyStages, runStages, Stage.run, hcopy] at hrun
    · simp only [copyStages, runStages, Stage.run, hcopy, Prod.mk.injEq, true_and] at hrun
      exact hrun ▸ write_transferred hB hM hb hok hst htype hdone

/-- **With finitely many interruptions the transfer finishes**, in a state that does not depend
on the number of rounds. -/
theorem copyStages_total {N : ℕ} (hB : 0 < blockDim) (hM : maxRwCount < 2 ^ 63)
    (hb : Bound maxRwCount req params s₀.op) (hok : RegionOk maxRwCount req params)
    (hst : s₀.op.bytesTransferredInternal = 0)
    (hN : ∀ i, N ≤ i → ∀ count offset, env.ioOutcome req.type i count offset ≠ .error EINTR) :
    ∃ s R, Transferred maxRwCount req params s₀ s ∧ ∀ rounds, R ≤ rounds →
      runStages env rounds (copyStages blockDim req.type) s₀ = (.finished, s) := by
  have hoff := offsetsOk_of_paramsValid hok.2
  cases htype : req.type with
  | read =>
    obtain ⟨s', R, hdone, hcopy⟩ :=
      cpuCopy_total (N := N) hb hoff.fileOffset hst.ge (by rwa [hb.ioType])
    refine ⟨hipFileMemcpyKernel env blockDim s', R, read_transferred hB hM hb hok htype hdone, ?_⟩
    intro rounds hR
    simp only [copyStages, runStages, Stage.run, hcopy rounds hR]
  | write =>
    have hop := (kernel_spec_zero env blockDim hb hoff hst).op
    obtain ⟨s', R, hdone, hcopy⟩ :=
      cpuCopy_total (N := N) (hop ▸ hb) hoff.fileOffset (hop ▸ hst.ge) (by rwa [hop, hb.ioType])
    refine ⟨s', R, write_transferred hB hM hb hok hst htype hdone, ?_⟩
    intro rounds hR
    simp only [copyStages, runStages, Stage.run, hcopy rounds hR]

end HipFile
