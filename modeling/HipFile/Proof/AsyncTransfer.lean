import HipFile.Proof.AsyncBounds

/-!
# The byte count that an asynchronous request reports

* `Arrived`: the bytes reported have been transferred end to end.
* `status_arrived`: they have, unless the kernel of a read is not launched after its copy, or
  a fixed size above the limit is transferred.
* `exists_not_arrived_kernel`, `exists_not_arrived_oversized`: and then they have not.
* `arrived_iff`: all together.
-/

namespace HipFile.Fallback

open Bytes

variable {env : StreamEnv} {rounds maxRwCount blockDim addr : ℕ} {req : AsyncRequest}
  {client : Params} {hip : HipAsync} {l tail : List Stage} {world : World}
  {s s₀ s₁ : StreamState}

/-- **A positive byte count is one of bytes that have been transferred end to end.** -/
def Arrived (maxRwCount : ℕ) (req : AsyncRequest) (client : Params) (world : World)
    (s : StreamState) : Prop :=
  ∀ n : ℕ, 0 < n → s.bytesTransferred = n →
    EndToEnd req (req.bound maxRwCount client) world n s.world

/-- The copy of a read is enqueued and its kernel is not, and the `catch` clause enqueues the
cleanup, which publishes the bytes that the copy has read. -/
structure KernelLaunchFails (maxRwCount : ℕ) (hip : HipAsync) (req : AsyncRequest) : Prop where
  type : req.type = .read
  size : req.params.size ≠ 0
  limit : req.stream.allFixed = true ∨ 0 < maxRwCount
  alloc : ∃ devPtr, Allocated hip devPtr
  op : ∃ p, hip.hipHostGetDevicePointerOp = .ok p
  prepared : ∃ blockDim, Prepared hip req blockDim
  cpuCopy : hip.launch .cpuCopy = .ok ()
  memcpyKernel : ∃ e, hip.launch .memcpyKernel = .error e
  cleanup : hip.launch .cleanupAfterFailure = .ok ()

/-- A fixed size above the limit is transferred, and the cleanup is enqueued. -/
structure OversizedTransfer (maxRwCount : ℕ) (hip : HipAsync) (req : AsyncRequest) : Prop where
  oversized : Oversized maxRwCount req
  alloc : ∃ devPtr, Allocated hip devPtr
  op : ∃ p, hip.hipHostGetDevicePointerOp = .ok p
  prepared : ∃ blockDim, Prepared hip req blockDim
  cpuCopy : hip.launch .cpuCopy = .ok ()
  memcpyKernel : hip.launch .memcpyKernel = .ok ()
  cleanup : hip.launch .cleanup = .ok () ∨ hip.launch .cleanupAfterFailure = .ok ()

/-! ## What arrives -/

/-- A whole transfer reports what has arrived. -/
theorem whole_arrived {n : ℕ} (hB : 0 < blockDim) (hM : maxRwCount < 2 ^ 63)
    (hno : ¬ Oversized maxRwCount req) (hn : 0 < n)
    (hbound : ParamsBound maxRwCount req client s₀ s₁)
    (hrun : runStages env rounds (copyStages blockDim req.type) s₁ = (.finished, s))
    (hst : s.op.bytesTransferredInternal = n) :
    EndToEnd req (req.bound maxRwCount client) s₁.world n s.world := by
  rcases hbound.status with ⟨hst₁, -, hregion⟩ | ⟨hst₁, -, -⟩
  · have htr := copyStages_spec hB hM hbound.bound (hregion.resolve_right hno) hst₁ hrun
    obtain ⟨tr, -, ⟨herr, -, -⟩ | ⟨k, -, hk, -, hend⟩⟩ := htr.status
    · omega
    · obtain rfl : n = k := by omega
      exact hend
  · have hmoves : ∀ stage ∈ copyStages blockDim req.type, stage.Moves :=
      fun stage hmem => moves_of_mem_copyStages hmem
    rw [runStages_of_error env rounds hbound.bound (hst₁ ▸ invalidValueStatus_neg) _ hmoves] at hrun
    obtain rfl := (Prod.mk.inj hrun).2
    have := invalidValueStatus_neg
    omega

/-- The copy of a read reports at most the size. -/
theorem cpuCopy_status (env : StreamEnv) (rounds : ℕ)
    (hs : Started maxRwCount req addr world s₀)
    (hbound : ParamsBound maxRwCount req client s₀ s₁) :
    (asyncIoCpuCopy env rounds s₁).2.op.bytesTransferredInternal ≤
      (req.bound maxRwCount client).size := by
  rcases hbound.status with ⟨hst, hoff, -⟩ | ⟨hst, -, -⟩
  · exact ((hs.staged hbound hst).cpuCopy env rounds hoff).2.status_le
  · have hneg := invalidValueStatus_neg
    rw [cpuCopy_of_error env rounds hbound.bound (hst ▸ hneg), hst]
    omega

/-- The kernel of a write reports nothing by itself. -/
theorem kernel_status (env : StreamEnv) (blockDim : ℕ)
    (hbound : ParamsBound maxRwCount req client s₀ s₁) :
    (hipFileMemcpyKernel env blockDim s₁).op.bytesTransferredInternal ≤ 0 := by
  rcases hbound.status with ⟨hst, hoff, -⟩ | ⟨hst, -, -⟩
  · have hop := (kernel_spec_zero env blockDim hbound.bound hoff hst).op
    rw [hop, hst]
  · have hneg := invalidValueStatus_neg
    rw [kernel_of_error env blockDim (hst ▸ hneg), hst]
    omega

/-- With both copies and a cleanup enqueued, no size above the limit is transferred. -/
theorem not_oversized {B : ℕ} (halloc : ∃ devPtr, Allocated hip devPtr)
    (hno : ¬ OversizedTransfer maxRwCount hip req) (hp : ∃ p, hip.hipHostGetDevicePointerOp = .ok p)
    (hB : Prepared hip req B) (h₁ : hip.launch (firstCopy B req.type).1 = .ok ())
    (h₂ : hip.launch (secondCopy B req.type).1 = .ok ())
    (hc : hip.launch .cleanup = .ok () ∨ hip.launch .cleanupAfterFailure = .ok ()) :
    ¬ Oversized maxRwCount req := by
  intro hover
  refine hno ?_
  cases htype : req.type with
  | read =>
    rw [htype] at h₁ h₂
    exact ⟨hover, halloc, hp, ⟨B, hB⟩, h₁, h₂, hc⟩
  | write =>
    rw [htype] at h₁ h₂
    exact ⟨hover, halloc, hp, ⟨B, hB⟩, h₂, h₁, hc⟩

/-- **The first copy alone reports nothing**, unless it is the copy of a read whose kernel
is not launched. -/
theorem half_status {B : ℕ} {e : HipError} (hsize : req.params.size ≠ 0)
    (halloc : ∃ devPtr, Allocated hip devPtr) (hno : ¬ KernelLaunchFails maxRwCount hip req)
    (hs : Started maxRwCount req env.addr world s₀)
    (hbound : ParamsBound maxRwCount req env.client s₀ s₁)
    (hp : ∃ p, hip.hipHostGetDevicePointerOp = .ok p) (hB : Prepared hip req B)
    (h₁ : hip.launch (firstCopy B req.type).1 = .ok ())
    (h₂ : hip.launch (secondCopy B req.type).1 = .error e)
    (hc : hip.launch .cleanupAfterFailure = .ok ())
    (hrun : runStages env rounds [(firstCopy B req.type).2] s₁ = (.finished, s)) :
    s.op.bytesTransferredInternal ≤ 0 := by
  rw [runStages_singleton] at hrun
  cases htype : req.type with
  | read =>
    rw [htype] at h₁ h₂ hrun
    have hlimit : ¬ (req.stream.allFixed = true ∨ 0 < maxRwCount) := fun h =>
      hno ⟨htype, hsize, h, halloc, hp, ⟨B, hB⟩, h₁, ⟨e, h₂⟩, hc⟩
    rw [not_or, Nat.not_lt, Nat.le_zero] at hlimit
    obtain ⟨hfix, rfl⟩ := hlimit
    -- the limit is zero, so the copy that was enqueued is empty
    have hzero : (req.bound 0 env.client).size = 0 := by
      simp only [AsyncRequest.bound, if_neg hfix, Nat.min_zero]
    have hle := cpuCopy_status env rounds hs hbound
    have hcopy : asyncIoCpuCopy env rounds s₁ = (.finished, s) := hrun
    rw [hcopy, hzero] at hle
    exact_mod_cast hle
  | write =>
    rw [htype] at hrun
    have hle := kernel_status env B hbound
    rwa [(Prod.mk.inj hrun).2] at hle

/-- **What the status counts**, at the end of the stages before the cleanup. -/
theorem status_arrived {n : ℕ} (hacc : asyncAccept maxRwCount req = .ok ())
    (hM : env.maxRwCount = maxRwCount) (hlt : maxRwCount < 2 ^ 63) (hsize : req.params.size ≠ 0)
    (halloc : ∃ devPtr, Allocated hip devPtr) (hno : ¬ KernelLaunchFails maxRwCount hip req)
    (hno' : ¬ OversizedTransfer maxRwCount hip req)
    (hs : Started maxRwCount req env.addr world s₀) (he : Enqueued hip req l [.cleanup])
    (hrun : runStages env rounds l s₀ = (.finished, s)) (hn : 0 < n)
    (hst : s.op.bytesTransferredInternal = n) :
    EndToEnd req (req.bound maxRwCount env.client) world n s.world := by
  obtain ⟨devPtr, hptr, hop⟩ := hs.op
  obtain ⟨s₁, hbind, hbound⟩ := bindStages_spec hacc hM hptr hop
  have hworld : s₁.world = world := by
    rw [hbound.others]
    exact hs.world
  have hle₁ : s₁.op.bytesTransferredInternal ≤ 0 := by
    have hneg := invalidValueStatus_neg
    rcases hbound.status with ⟨h, -⟩ | ⟨h, -⟩ <;> omega
  have hwhole : ∀ {B}, 0 < B → ¬ Oversized maxRwCount req →
      runStages env rounds (bindStages req ++ copyStages B req.type) s₀ = (.finished, s) →
      EndToEnd req (req.bound maxRwCount env.client) world n s.world := by
    intro B hB hover hrun
    rw [runStages_append_finished (hbind rounds)] at hrun
    rw [← hworld]
    exact whole_arrived hB hlt hover hn hbound hrun hst
  cases he with
  | all hp hB h₁ h₂ hc =>
    exact hwhole hB.pos (not_oversized halloc hno' ⟨_, hp⟩ hB h₁ h₂ (Or.inl hc)) hrun
  | cleanedUp hp h hc =>
    cases h with
    | early h =>
      -- nothing has run: the op still has its first status
      obtain rfl := (Prod.mk.inj hrun).2
      rw [hop] at hst
      exact absurd hst (by simp only [AsyncOpFallback.construct]; omega)
    | bound hB h₁ =>
      -- the binding leaves 0 or an error
      rw [hbind rounds] at hrun
      obtain rfl := (Prod.mk.inj hrun).2
      omega
    | half hB h₁ h₂ =>
      -- of the copy and the kernel only the first has run
      rw [runStages_append_finished (hbind rounds)] at hrun
      have hle := half_status hsize halloc hno hs hbound ⟨_, hp⟩ hB h₁ h₂ hc hrun
      omega
    | whole hB h₁ h₂ h₃ =>
      exact hwhole hB.pos (not_oversized halloc hno' ⟨_, hp⟩ hB h₁ h₂ (Or.inr hc)) hrun

/-! ## What does not arrive -/

/-- System calls that transfer `k` bytes in the first call, and then nothing. -/
def shortSys (k : ℕ) : Sys where
  mmap _ := .ok ()
  pread i count _ := if i = 0 then .ok (min k count) else .ok 0
  pwrite i count _ := if i = 0 then .ok (min k count) else .ok 0
  fdatasync _ := .ok ()
  pread_le h := by split at h <;> cases h <;> omega
  pwrite_le h := by split at h <;> cases h <;> omega

theorem ioOutcome_shortSys (k : ℕ) (params : Params) (stray : Mem) (type : IoType) (i count : ℕ)
    (offset : ℤ) : (streamEnv maxRwCount (shortSys k) params stray).ioOutcome type i count offset =
      .ok (if i = 0 then min k count else 0) := by
  cases type <;> (unfold StreamEnv.ioOutcome streamEnv shortSys; simp only; split <;> rfl)

/-- **A short transfer**: after `k` bytes and then none the copy is done, with the status `k`. -/
theorem cpuCopy_short {k : ℕ} {params : Params} (clientParams : Params) (stray : Mem)
    (hb : Bound maxRwCount req params s.op) (hst : s.op.bytesTransferredInternal = 0) (hk : 0 < k)
    (hle : k ≤ params.size) (hcalls : s.world.calls = 0) :
    ∃ s', asyncIoCpuCopy (streamEnv maxRwCount (shortSys k) clientParams stray) 2 s =
        (.finished, s') ∧ s'.op.bytesTransferredInternal = toSsizeT k := by
  set env := streamEnv maxRwCount (shortSys k) clientParams stray with henv
  obtain ⟨s₁, hcall, hcalled⟩ :=
    copyCall_spec env s 0 (params.size - 0) (params.fileOffset.val + (0 : ℕ))
  rw [ioOutcome_shortSys, if_pos hcalls, Nat.sub_zero, Nat.min_eq_left hle] at hcall
  have hfirst : copyRound env params.size params.fileOffset ⟨s, 0⟩ = .inl ⟨s₁, 0 + k⟩ := by
    unfold copyRound
    rw [if_pos (by simp only; omega)]
    simp only [Nat.sub_zero]
    rw [hcall]
    simp only
    rw [if_neg (by omega)]
  have hcalls₁ : s₁.world.calls ≠ 0 := by
    obtain ⟨ev, htrace, -⟩ := hcalled.trace
    unfold World.calls
    rw [htrace, List.length_append]
    exact Nat.succ_ne_zero _
  -- the second round leaves, at the size or with nothing transferred
  have hsecond : ∃ s', copyRound env params.size params.fileOffset ⟨s₁, 0 + k⟩ = .inr s' ∧
      s'.op.bytesTransferredInternal = toSsizeT k := by
    rw [Nat.zero_add]
    unfold copyRound
    by_cases hlt : k < params.size
    · obtain ⟨s₂, hcall₂, -⟩ :=
        copyCall_spec env s₁ k (params.size - k) (params.fileOffset.val + k)
      rw [ioOutcome_shortSys, if_neg hcalls₁] at hcall₂
      refine ⟨s₂.setInternal (toSsizeT k), ?_, rfl⟩
      rw [if_pos hlt]
      simp only
      rw [hcall₂]
      rfl
    · refine ⟨s₁.setInternal (toSsizeT k), ?_, rfl⟩
      rw [if_neg hlt]
  obtain ⟨s', hexit, hstatus⟩ := hsecond
  refine ⟨s', ?_, hstatus⟩
  rw [asyncIoCpuCopy_eq 2 hb hst.ge, Loop.iter_succ_inl hfirst, Loop.iter_succ_inr hexit]

/-- A file of zeros, with one byte set. -/
def markedFile (a : ℕ) : FileData where
  data i := if i = a then 1 else 0
  eof := a + 1
  hole i hi := if_neg (by omega)

/-- A world with that file, before any call, and with zeros on the device. -/
def markedWorld (a : ℕ) : World := ⟨markedFile a, fun _ => 0, ⟨0, 0, 0, 0⟩, [], false⟩

/-- A client that changes nothing binds what it has submitted. -/
theorem bound_unchanged (hacc : asyncAccept maxRwCount req = .ok ())
    (hbound : ParamsBound maxRwCount req req.params s₀ s₁) :
    s₁.op.bytesTransferredInternal = 0 ∧ OffsetsOk req (req.bound maxRwCount req.params) := by
  rcases hbound.status with ⟨hst, hoff, -⟩ | ⟨-, hnot, hfix⟩
  · exact ⟨hst, hoff⟩
  · refine absurd ?_ hnot
    have hparams : req.bound maxRwCount req.params =
        ⟨min req.params.size maxRwCount, req.params.fileOffset, req.params.bufferOffset⟩ := by
      simp [AsyncRequest.bound, AsyncRequest.requestedSize, hfix]
    rw [hparams]
    exact ⟨Nat.le_refl _, paramsValid_of_accept hacc⟩

/-- **The start of the run of a client that changes nothing**, up to the copies. -/
theorem unchanged_run {devPtr : ℕ} (env : StreamEnv) (world : World) (bounce : Mem)
    (hacc : asyncAccept maxRwCount req = .ok ()) (hM : env.maxRwCount = maxRwCount)
    (hclient : env.client = req.params) (hsize : req.params.size ≠ 0)
    (halloc : Allocated hip devPtr) :
    ∃ s₀ l tail s₁, Started maxRwCount req env.addr world s₀ ∧ Enqueued hip req l tail ∧
      Runs (asyncIo maxRwCount hip env.addr req (.start .init 0)).2 (l ++ tail) world bounce s₀ ∧
      (∀ rounds, runStages env rounds (bindStages req) s₀ = (.finished, s₁)) ∧
      Bound maxRwCount req (req.bound maxRwCount req.params) s₁.op ∧
      s₁.op.bytesTransferredInternal = 0 ∧ OffsetsOk req (req.bound maxRwCount req.params) ∧
      s₁.world = world := by
  obtain ⟨s₀, l, tail, hs, he, hruns⟩ :=
    asyncIo_run env.addr .init 0 world bounce hacc hsize halloc
  obtain ⟨devPtr, hptr, hop⟩ := hs.op
  obtain ⟨s₁, hbind, hbound⟩ := bindStages_spec hacc hM hptr hop
  rw [hclient] at hbound
  obtain ⟨hst, hoff⟩ := bound_unchanged hacc hbound
  refine ⟨s₀, l, tail, s₁, hs, he, hruns, hbind, hbound.bound, hst, hoff, ?_⟩
  rw [hbound.others]
  exact hs.world

/-- The copy of a short transfer, with what it leaves. -/
theorem cpuCopy_short_done {k : ℕ} {params : Params} (clientParams : Params) (stray : Mem)
    (hb : Bound maxRwCount req params s.op) (h0 : 0 ≤ params.fileOffset.val)
    (hst : s.op.bytesTransferredInternal = 0) (hk : 0 < k) (hlt : k < 2 ^ 63)
    (hle : k ≤ params.size) (hcalls : s.world.calls = 0) :
    ∃ s', asyncIoCpuCopy (streamEnv maxRwCount (shortSys k) clientParams stray) 2 s =
        (.finished, s') ∧ s'.op.bytesTransferredInternal = k ∧
      CopyDone (streamEnv maxRwCount (shortSys k) clientParams stray) s params.size
        params.fileOffset s' := by
  obtain ⟨s', hcopy, hstatus⟩ := cpuCopy_short clientParams stray hb hst hk hle hcalls
  rw [toSsizeT_of_lt hlt] at hstatus
  refine ⟨s', hcopy, hstatus, ?_⟩
  obtain ⟨s'', ⟨hrun, -, -⟩ | ⟨hrun, hdone⟩⟩ := cpuCopy_spec
    (streamEnv maxRwCount (shortSys k) clientParams stray) 2 hb h0 hst.ge
  · rw [hcopy] at hrun
    cases hrun
  · rw [hcopy] at hrun
    obtain rfl := (Prod.mk.inj hrun).2
    exact hdone

/-- A run whose stages finish, and whose cleanup is enqueued, publishes their status. -/
theorem finished_published (hacc : asyncAccept maxRwCount req = .ok ())
    (hM : env.maxRwCount = maxRwCount) (hs : Started maxRwCount req env.addr world s₀)
    (he : Enqueued hip req l [.cleanup]) (hrun : runStages env rounds l s₀ = (.finished, s)) :
    ∃ s', runStages env rounds (l ++ [.cleanup]) s₀ = (.finished, s') ∧
      s'.bytesTransferred = s.op.bytesTransferredInternal ∧ s'.world = s.world := by
  have hfin : runStages env rounds (l ++ [.cleanup]) s₀ = (.finished, asyncIoCleanup env s) := by
    rw [runStages_append_finished hrun, runStages_singleton]
    rfl
  refine ⟨_, hfin, ?_⟩
  rcases run_published hacc hM hs he hfin with ⟨h, -⟩ | ⟨-, s₂, hl, hbytes, hworld⟩
  · cases h
  · rw [hrun] at hl
    obtain rfl := (Prod.mk.inj hl).2
    exact ⟨hbytes, hworld⟩

theorem KernelLaunchFails.enqueued (h : KernelLaunchFails maxRwCount hip req)
    (he : Enqueued hip req l tail) : l = bindStages req ++ [.cpuCopy] ∧ tail = [.cleanup] := by
  obtain ⟨p, hp⟩ := h.op
  obtain ⟨B, hB⟩ := h.prepared
  obtain ⟨e, hker⟩ := h.memcpyKernel
  have hstopped : ∀ {done}, Stopped hip req done → done = bindStages req ++ [.cpuCopy] := by
    intro done hst
    cases hst with
    | early hno => exact absurd hB (hno B)
    | bound hB h₁ =>
      rw [h.type] at h₁
      cases h.cpuCopy.symm.trans h₁
    | half hB h₁ h₂ => rw [h.type, firstCopy]
    | whole hB h₁ h₂ h₃ =>
      rw [h.type] at h₂
      cases hker.symm.trans h₂
  cases he with
  | nothing he => cases hp.symm.trans he
  | all hp hB h₁ h₂ hc =>
    rw [h.type] at h₂
    cases hker.symm.trans h₂
  | cleanedUp hp hst hc => exact ⟨hstopped hst, rfl⟩
  | leaked hp hst hc => cases h.cleanup.symm.trans hc

/-- **The copy of a read is published without its kernel.** -/
theorem exists_not_arrived_kernel (hacc : asyncAccept maxRwCount req = .ok ())
    (h : KernelLaunchFails maxRwCount hip req) :
    ∃ env rounds world bounce s, env.maxRwCount = maxRwCount ∧
      (asyncIo maxRwCount hip env.addr req (.start .init 0)).2.run env rounds world bounce =
        some (.finished, s) ∧ ¬ Arrived maxRwCount req env.client world s := by
  set env := streamEnv maxRwCount (shortSys 1) req.params (fun _ => 0) with henv
  set world := markedWorld req.params.fileOffset.val.toNat with hworld
  obtain ⟨devPtr, halloc⟩ := h.alloc
  obtain ⟨s₀, l, tail, s₁, hs, he, hruns, hbind, hbound, hst, hoff, hworld₁⟩ :=
    unchanged_run env world (fun _ => 0) hacc rfl rfl h.size halloc
  obtain ⟨rfl, rfl⟩ := h.enqueued he
  have hsize : 1 ≤ (req.bound maxRwCount req.params).size := by
    have hpos := h.size
    unfold AsyncRequest.bound AsyncRequest.requestedSize
    simp only [ite_self]
    split
    · omega
    · have := h.limit.resolve_left ‹_›
      omega
  obtain ⟨s₂, hcopy, hstatus, hdone⟩ := cpuCopy_short_done req.params (fun _ => 0) hbound
    hoff.fileOffset hst Nat.one_pos (by decide) hsize (by rw [hworld₁]; rfl)
  have hstages : runStages env 2 (bindStages req ++ [.cpuCopy]) s₀ = (.finished, s₂) := by
    rw [runStages_append_finished (hbind 2), runStages_singleton]
    exact hcopy
  obtain ⟨s, hfin, hbytes, hw⟩ := finished_published hacc rfl hs he hstages
  refine ⟨env, 2, world, _, s, rfl, (hruns.run env 2).trans (congrArg some hfin), fun harr => ?_⟩
  have hend := harr 1 Nat.one_pos (hbytes.trans hstatus)
  simp only [EndToEnd, h.type, hw] at hend
  -- the byte of the file is one, and the device still holds a zero
  have hbyte := hend.2 0 Nat.one_pos
  have hfo : (req.bound maxRwCount env.client).fileOffset = req.params.fileOffset := ite_self _
  rw [hdone.frame.dev, hworld₁, hfo] at hbyte
  simp [hworld, markedWorld, markedFile] at hbyte

theorem OversizedTransfer.enqueued (h : OversizedTransfer maxRwCount hip req)
    (he : Enqueued hip req l tail) : ∃ blockDim, 0 < blockDim ∧
      l = bindStages req ++ copyStages blockDim req.type ∧ tail = [.cleanup] := by
  obtain ⟨p, hp⟩ := h.op
  obtain ⟨B, hB⟩ := h.prepared
  have hcopies : ∀ B, hip.launch (firstCopy B req.type).1 = .ok () ∧
      hip.launch (secondCopy B req.type).1 = .ok () := by
    intro B
    cases req.type with
    | read => exact ⟨h.cpuCopy, h.memcpyKernel⟩
    | write => exact ⟨h.memcpyKernel, h.cpuCopy⟩
  have hstopped : ∀ {done}, Stopped hip req done → (∃ blockDim, 0 < blockDim ∧
      done = bindStages req ++ copyStages blockDim req.type) ∧
      ∃ e, hip.launch .cleanup = .error e := by
    intro done hst
    cases hst with
    | early hno => exact absurd hB (hno B)
    | bound hB h₁ => cases (hcopies _).1.symm.trans h₁
    | half hB h₁ h₂ => cases (hcopies _).2.symm.trans h₂
    | whole hB h₁ h₂ h₃ => exact ⟨⟨_, hB.pos, rfl⟩, _, h₃⟩
  cases he with
  | nothing he => cases hp.symm.trans he
  | all hp hB h₁ h₂ hc => exact ⟨_, hB.pos, rfl, rfl⟩
  | cleanedUp hp hst hc =>
    obtain ⟨⟨B, hB, hl⟩, -⟩ := hstopped hst
    exact ⟨B, hB, hl, rfl⟩
  | leaked hp hst hc =>
    obtain ⟨-, e, he⟩ := hstopped hst
    rcases h.cleanup with hok | hok
    · cases hok.symm.trans he
    · cases hok.symm.trans hc

/-- The op sees ones where its bounce buffer ends, with `stray` a memory of ones. -/
theorem view_stray (hover : maxRwCount < req.params.size) {params : Params}
    (hb : Bound maxRwCount req params s.op) (sys : Sys) (clientParams : Params) :
    s.view (streamEnv maxRwCount sys clientParams (fun _ => 1)) maxRwCount = 1 := by
  unfold StreamState.view
  rw [hb.submittedSize, if_neg (by omega)]
  rfl

/-- **The stray byte is transferred** as the last of `maxRwCount + 1`, in place of the zero
that the source of the transfer has there. -/
theorem copyStages_stray (hlt : maxRwCount < 2 ^ 31) (hB : 0 < blockDim) {params : Params}
    (hover : maxRwCount < req.params.size) (hsize : maxRwCount < params.size)
    (hbound : Bound maxRwCount req params s.op) (hst : s.op.bytesTransferredInternal = 0)
    (hoff : OffsetsOk req params)
    (hworld : s.world = markedWorld (params.fileOffset.val.toNat + (maxRwCount + 1))) :
    ∃ s', runStages (streamEnv maxRwCount (shortSys (maxRwCount + 1)) req.params (fun _ => 1)) 2
        (copyStages blockDim req.type) s = (.finished, s') ∧
      s'.op.bytesTransferredInternal = (maxRwCount + 1 : ℕ) ∧
      ¬ EndToEnd req params s.world (maxRwCount + 1) s'.world := by
  set env := streamEnv maxRwCount (shortSys (maxRwCount + 1)) req.params (fun _ => 1) with henv
  cases htype : req.type with
  | read =>
    obtain ⟨s₂, hcopy, hstatus, hdone⟩ := cpuCopy_short_done req.params (fun _ => 1) hbound
      hoff.fileOffset hst (Nat.succ_pos _) (by omega) hsize (by rw [hworld]; rfl)
    obtain ⟨status, -, hop₂, -⟩ := hdone.status
    have hbound₂ : Bound maxRwCount req params s₂.op := hop₂ ▸ hbound.setInternal status
    have hker := kernel_spec env blockDim hbound₂ hoff hstatus (by unfold wordModulus; omega)
    set s₃ := hipFileMemcpyKernel env blockDim s₂ with hs₃
    have hop₃ := hker.op
    refine ⟨s₃, ?_, hop₃ ▸ hstatus, fun hend => ?_⟩
    · simp only [copyStages, runStages, Stage.run]
      rw [hcopy]
    · -- the kernel copies the stray byte to the GPU, where the file has a zero
      simp only [EndToEnd, htype] at hend
      have hbyte := hend.2 maxRwCount (Nat.lt_succ_self _)
      rw [hker.read hB htype] at hbyte
      have hcell := splice_inside s₂.world.dev (regionStart req.buffer params.bufferOffset)
        (s₂.view env) 0 (Nat.lt_succ_self maxRwCount)
      rw [Nat.zero_add, view_stray hover hbound₂] at hcell
      have hone := hcell.symm.trans hbyte
      simp [hworld, markedWorld, markedFile] at hone
  | write =>
    have hker := kernel_spec_zero env blockDim hbound hoff hst
    set s₂ := hipFileMemcpyKernel env blockDim s with hs₂
    have hop₂ := hker.op
    have hbound₂ : Bound maxRwCount req params s₂.op := hop₂ ▸ hbound
    obtain ⟨s₃, hcopy, hstatus, hdone⟩ := cpuCopy_short_done req.params (fun _ => 1) hbound₂
      hoff.fileOffset (hop₂ ▸ hst) (Nat.succ_pos _) (by omega) hsize
      (by unfold World.calls; rw [hker.trace, hworld]; rfl)
    refine ⟨s₃, ?_, hstatus, fun hend => ?_⟩
    · simp only [copyStages, runStages, Stage.run, ← hs₂]
      rw [hcopy]
    · -- the copy writes the stray byte to the file, where the GPU has a zero
      simp only [EndToEnd, htype] at hend
      have hbyte := hend.2 maxRwCount (Nat.lt_succ_self _)
      obtain ⟨status, tr, hop₃, -, hcases⟩ := hdone.status
      rw [hop₃] at hstatus
      simp only at hstatus
      rcases hcases with ⟨herr, -, -⟩ | ⟨n, -, hn, -, hcopied⟩
      · omega
      · simp only [Copied, hbound₂.ioType, htype] at hcopied
        have hle := toSsizeT_le n
        have hcell := hcopied.2.1 maxRwCount (by omega)
        rw [Nat.zero_add, view_stray hover hbound₂] at hcell
        have hone := hcell.symm.trans hbyte
        simp [hworld, markedWorld] at hone

/-- **The bytes behind the bounce buffer are published.** -/
theorem exists_not_arrived_oversized (hlt : maxRwCount < 2 ^ 31)
    (hacc : asyncAccept maxRwCount req = .ok ()) (h : OversizedTransfer maxRwCount hip req) :
    ∃ env rounds world bounce s, env.maxRwCount = maxRwCount ∧
      (asyncIo maxRwCount hip env.addr req (.start .init 0)).2.run env rounds world bounce =
        some (.finished, s) ∧ ¬ Arrived maxRwCount req env.client world s := by
  obtain ⟨hfix, hover⟩ := h.oversized
  set env := streamEnv maxRwCount (shortSys (maxRwCount + 1)) req.params (fun _ => 1) with henv
  set world := markedWorld (req.params.fileOffset.val.toNat + (maxRwCount + 1)) with hworld
  obtain ⟨devPtr, halloc⟩ := h.alloc
  obtain ⟨s₀, l, tail, s₁, hs, he, hruns, hbind, hbound, hst, hoff, hworld₁⟩ :=
    unchanged_run env world (fun _ => 0) hacc rfl rfl (by omega) halloc
  obtain ⟨blockDim, hB, rfl, rfl⟩ := h.enqueued he
  have hsize : (req.bound maxRwCount req.params).size = req.params.size := if_pos hfix
  have hfo : (req.bound maxRwCount req.params).fileOffset = req.params.fileOffset := ite_self _
  obtain ⟨s₂, hcopies, hstatus, hnot⟩ := copyStages_stray hlt hB hover (by rw [hsize]; exact hover)
    hbound hst hoff (by rw [hworld₁, hfo])
  obtain ⟨s, hfin, hbytes, hw⟩ := finished_published hacc rfl hs he
    ((runStages_append_finished (hbind 2)).trans hcopies)
  have hrun := (hruns.run env 2).trans (congrArg some hfin)
  refine ⟨env, 2, world, _, s, rfl, hrun, fun harr => hnot ?_⟩
  have hend := harr (maxRwCount + 1) (Nat.succ_pos _) (hbytes.trans hstatus)
  rw [hworld₁, ← hw]
  exact hend

/-- **When every byte count that is reported has arrived**: unless the kernel of a read is not
launched after its copy, or a fixed size above the limit is transferred. -/
theorem arrived_iff (pageSize : ℕ) (hip : HipAsync) (req : AsyncRequest)
    (hacc : asyncAccept (getMaxRwCount pageSize) req = .ok ()) :
    (∀ env monitor bytesTransferred rounds world bounce s,
      env.maxRwCount = getMaxRwCount pageSize →
      (asyncIo (getMaxRwCount pageSize) hip env.addr req (.start monitor bytesTransferred)).2.run
        env rounds world bounce = some (.finished, s) →
      Arrived (getMaxRwCount pageSize) req env.client world s) ↔
      ¬ KernelLaunchFails (getMaxRwCount pageSize) hip req ∧
        ¬ OversizedTransfer (getMaxRwCount pageSize) hip req := by
  have hlt := getMaxRwCount_lt pageSize
  constructor
  · refine fun hall => ⟨fun h => ?_, fun h => ?_⟩
    · obtain ⟨env, rounds, world, bounce, s, hM, hrun, hnot⟩ := exists_not_arrived_kernel hacc h
      exact hnot (hall env .init 0 rounds world bounce s hM hrun)
    · obtain ⟨env, rounds, world, bounce, s, hM, hrun, hnot⟩ :=
        exists_not_arrived_oversized hlt hacc h
      exact hnot (hall env .init 0 rounds world bounce s hM hrun)
  · rintro ⟨hno, hno'⟩ env monitor bytesTransferred rounds world bounce s hM hrun n hn hbytes
    obtain ⟨hsize, devPtr, halloc⟩ := allocated_of_run hacc hrun
    obtain ⟨s₀, l, tail, hs, he, hruns⟩ :=
      asyncIo_run env.addr monitor bytesTransferred world bounce hacc hsize halloc
    have hfin := Option.some.inj ((hruns.run env rounds).symm.trans hrun)
    rcases run_published hacc hM hs he hfin with ⟨-, h0⟩ | ⟨rfl, s₂, hl, hpub, hw⟩
    · omega
    · rw [hw]
      exact status_arrived hacc hM (by omega) hsize ⟨devPtr, halloc⟩ hno hno' hs he hl hn
        (hpub ▸ hbytes)

/-- With every launch made, what the sample read reports has arrived. -/
theorem arrived_sampleRequest : ¬ KernelLaunchFails (getMaxRwCount 4096) workingHip sampleRequest ∧
    ∀ env monitor bytesTransferred rounds world bounce s, env.maxRwCount = getMaxRwCount 4096 →
      (asyncIo (getMaxRwCount 4096) workingHip env.addr sampleRequest
        (.start monitor bytesTransferred)).2.run env rounds world bounce = some (.finished, s) →
      Arrived (getMaxRwCount 4096) sampleRequest env.client world s := by
  have hno : ¬ KernelLaunchFails (getMaxRwCount 4096) workingHip sampleRequest := by
    intro h
    obtain ⟨e, he⟩ := h.memcpyKernel
    cases he
  exact ⟨hno, (arrived_iff 4096 workingHip sampleRequest rfl).2
    ⟨hno, fun h => (by cases h.oversized.1)⟩⟩

/-- The kernel cannot be launched: the sample read reports a byte that the GPU has not got. -/
theorem not_arrived_kernelFailed :
    ∃ env rounds world bounce s, env.maxRwCount = getMaxRwCount 4096 ∧
      (asyncIo (getMaxRwCount 4096) { workingHip with
          launch := fun site => if site = .memcpyKernel then .error .outOfMemory else .ok () }
        env.addr sampleRequest (.start .init 0)).2.run env rounds world bounce =
        some (.finished, s) ∧
      ¬ Arrived (getMaxRwCount 4096) sampleRequest env.client world s :=
  exists_not_arrived_kernel rfl
    ⟨rfl, by decide, Or.inr (by decide), ⟨8192, rfl, rfl, rfl⟩, ⟨12288, rfl⟩,
      ⟨1024, ⟨1024, rfl, rfl⟩, fun _ => rfl⟩, rfl, ⟨_, rfl⟩, rfl⟩

end HipFile.Fallback
