import HipFile.Proof.AsyncTransfer

/-!
# What the whole pipeline does

* `Exact`: the parameters bound, the bytes transferred and the status published.
* `NegativeStays`: an error, once set, is what is published.
* `pipeline_exact`: both hold of every run with finitely many interruptions.
-/

namespace HipFile.Fallback

open Bytes

variable {env : StreamEnv} {rounds maxRwCount blockDim : ℕ} {req : AsyncRequest} {hip : HipAsync}
  {world : World} {bounce : Mem} {s s₀ s₁ s₂ : StreamState} {sub : Submission}

/-- **The outcome of a pipeline**: fixed parameters have the submitted value and the others
the client's value at the binding, the size being limited to `getMaxRwCount()`. A region that
is refused changes no byte and gives `-hipFileInvalidValue`. Otherwise nothing outside the
region changes, a call that fails gives `-1`, and without one the count is of bytes that have
been transferred. -/
structure Exact (maxRwCount : ℕ) (req : AsyncRequest) (client : Params) (world : World)
    (s : StreamState) : Prop where
  size : s.op.size = .value
    (min (if req.stream.fixedIOSize then req.params.size else client.size) maxRwCount)
  fileOffset : s.op.fileOffset = .value
    (if req.stream.fixedFileOffset then req.params.fileOffset else client.fileOffset).val
  bufferOffset : s.op.bufferOffset = .value
    (if req.stream.fixedBufferOffset then req.params.bufferOffset else client.bufferOffset).val
  refused : ¬ RegionOk maxRwCount req (req.bound maxRwCount client) →
    s.world = world ∧ s.bytesTransferred = invalidValueStatus
  accepted : RegionOk maxRwCount req (req.bound maxRwCount client) →
    OnlyRegion req (req.bound maxRwCount client) world s.world ∧
    ∃ tr, s.world.trace = world.trace ++ tr ∧
      (AnyIoFailed tr → s.bytesTransferred = -1 ∧ (req.type = .read → s.world.dev = world.dev)) ∧
      (¬ AnyIoFailed tr → ∃ n ≤ (req.bound maxRwCount client).size, s.bytesTransferred = n ∧
        EndToEnd req (req.bound maxRwCount client) world n s.world)

/-- A negative status that some of the stages have left is kept by the others, and is what the
run publishes. -/
def NegativeStays (env : StreamEnv) (rounds : ℕ) (sub : Submission) (world : World)
    (bounce : Mem) : Prop :=
  ∀ op l l' s₁ s, sub.op = some op → sub.launches.map Launch.stage = l ++ l' →
    runStages env rounds l (sub.streamState op world bounce) = (.finished, s₁) →
    s₁.op.bytesTransferredInternal < 0 → runStages env rounds l' s₁ = (.finished, s) →
    s.op.bytesTransferredInternal = s₁.op.bytesTransferredInternal ∧
      s.bytesTransferred = s₁.op.bytesTransferredInternal

/-- What is bound of a size within the limit, field by field. -/
theorem exact_params (hno : ¬ Oversized maxRwCount req)
    (hb : Bound maxRwCount req (req.bound maxRwCount env.client) s.op) :
    s.op.size = .value (min (req.requestedSize env.client) maxRwCount) ∧
      s.op.fileOffset = .value (req.bound maxRwCount env.client).fileOffset.val ∧
      s.op.bufferOffset = .value (req.bound maxRwCount env.client).bufferOffset.val := by
  refine ⟨?_, hb.fileOffset, hb.bufferOffset⟩
  rw [hb.size, bound_size hno]

/-- A bound op with an error publishes it, and changes nothing. -/
theorem exact_refused (hno : ¬ Oversized maxRwCount req)
    (hs : Started maxRwCount req env.addr world s₀)
    (hbound : ParamsBound maxRwCount req env.client s₀ s₁)
    (hst : s₁.op.bytesTransferredInternal = invalidValueStatus)
    (hnot : ¬ RegionOk maxRwCount req (req.bound maxRwCount env.client)) :
    Exact maxRwCount req env.client world (asyncIoCleanup env s₁) := by
  have hmem : env.addr ∈ s₁.monitor.submittedOps := by
    rw [hbound.others]
    exact hs.monitor
  have hworld : s₁.world = world := by
    rw [hbound.others]
    exact hs.world
  obtain ⟨hsize, hfo, hbo⟩ := exact_params hno hbound.bound
  obtain ⟨monitor, hclean⟩ := asyncIoCleanup_spec hmem
  rw [hclean]
  exact ⟨hsize, hfo, hbo, fun _ => ⟨hworld, hst⟩, fun hok => absurd hok hnot⟩

/-- The cleanup of a transfer publishes what has been transferred. -/
theorem exact_accepted (hno : ¬ Oversized maxRwCount req)
    (hs : Started maxRwCount req env.addr world s₀)
    (hbound : ParamsBound maxRwCount req env.client s₀ s₁)
    (hok : RegionOk maxRwCount req (req.bound maxRwCount env.client))
    (htr : Transferred maxRwCount req (req.bound maxRwCount env.client) s₁ s₂) :
    Exact maxRwCount req env.client world (asyncIoCleanup env s₂) := by
  have hmem : env.addr ∈ s₂.monitor.submittedOps := by
    rw [htr.monitor, hbound.others]
    exact hs.monitor
  have hworld : s₁.world = world := by
    rw [hbound.others]
    exact hs.world
  obtain ⟨hsize, hfo, hbo⟩ := exact_params hno htr.bound
  obtain ⟨monitor, hclean⟩ := asyncIoCleanup_spec hmem
  obtain ⟨tr, htrace, hstatus⟩ := htr.status
  have honly := htr.only
  rw [hworld] at htrace hstatus honly
  rw [hclean]
  refine ⟨hsize, hfo, hbo, fun hnot => absurd hok hnot, fun _ => ⟨honly, tr, htrace, ?_, ?_⟩⟩
  · intro hfail
    rcases hstatus with ⟨hst, -, hdev⟩ | ⟨n, -, -, hnone, -⟩
    · exact ⟨hst, hdev⟩
    · exact absurd hfail hnone
  · intro hnone
    rcases hstatus with ⟨-, hfail, -⟩ | ⟨n, hn, hst, -, hend⟩
    · exact absurd hfail hnone
    · exact ⟨n, hn, hst, hend⟩

/-- **The pipeline finishes**, in a state that does not depend on the number of rounds. -/
theorem pipeline_total {N : ℕ} (hB : 0 < blockDim) (hlt : maxRwCount < 2 ^ 63)
    (hacc : asyncAccept maxRwCount req = .ok ()) (hM : env.maxRwCount = maxRwCount)
    (hno : ¬ Oversized maxRwCount req) (hs : Started maxRwCount req env.addr world s₀)
    (hN : ∀ i, N ≤ i → ∀ count offset, env.ioOutcome req.type i count offset ≠ .error EINTR) :
    ∃ s R, Exact maxRwCount req env.client world s ∧ ∀ rounds, R ≤ rounds →
      runStages env rounds (bindStages req ++ copyStages blockDim req.type ++ [.cleanup]) s₀ =
        (.finished, s) := by
  obtain ⟨devPtr, hptr, hop⟩ := hs.op
  obtain ⟨s₁, hbind, hbound⟩ := bindStages_spec hacc hM hptr hop
  have hfinish : ∀ {rounds s₂}, runStages env rounds (copyStages blockDim req.type) s₁ =
      (.finished, s₂) → runStages env rounds (bindStages req ++ copyStages blockDim req.type ++
        [.cleanup]) s₀ = (.finished, asyncIoCleanup env s₂) := by
    intro rounds s₂ hcopies
    rw [List.append_assoc, runStages_append_finished (hbind rounds),
      runStages_append_finished hcopies, runStages_singleton]
    rfl
  rcases hbound.status with ⟨hst, -, hregion⟩ | ⟨hst, hnot, -⟩
  · -- bound to a region that is valid: the copies are made
    have hok := hregion.resolve_right hno
    obtain ⟨s₂, R, htr, hcopies⟩ := copyStages_total hB hlt hbound.bound hok hst hN
    exact ⟨_, R, exact_accepted hno hs hbound hok htr, fun rounds hR => hfinish (hcopies rounds hR)⟩
  · -- refused at the binding: the copies do nothing
    refine ⟨_, 0, exact_refused hno hs hbound hst hnot, fun rounds _ => hfinish ?_⟩
    exact runStages_of_error env rounds hbound.bound (hst ▸ invalidValueStatus_neg) _
      fun stage hmem => moves_of_mem_copyStages hmem

/-- **No stage of the pipeline meets an unbound parameter.** -/
theorem pipeline_ne_fault (rounds : ℕ) (hacc : asyncAccept maxRwCount req = .ok ())
    (hM : env.maxRwCount = maxRwCount) (hs : Started maxRwCount req env.addr world s₀) :
    (runStages env rounds (bindStages req ++ copyStages blockDim req.type ++ [.cleanup]) s₀).1 ≠
      .fault := by
  obtain ⟨devPtr, hptr, hop⟩ := hs.op
  obtain ⟨s₁, hbind, hbound⟩ := bindStages_spec hacc hM hptr hop
  have hmoves : ∀ stage ∈ copyStages blockDim req.type, stage.Moves :=
    fun stage hmem => moves_of_mem_copyStages hmem
  have hfault := (moves_keeps env rounds hs hbound hmoves).1
  rw [List.append_assoc, runStages_append_finished (hbind rounds), runStages_append]
  rcases hr : runStages env rounds (copyStages blockDim req.type) s₁ with ⟨p, s₂⟩
  rw [hr] at hfault
  cases p with
  | finished =>
    simp only
    rw [runStages_singleton]
    exact fun h => (by cases h)
  | running => exact fun h => (by cases h)
  | fault => exact absurd rfl hfault

/-- The cleanup of an op with the monitor, as a run. -/
theorem cleanup_run (h : env.addr ∈ s₁.monitor.submittedOps)
    (hrun : runStages env rounds [.cleanup] s₁ = (.finished, s)) :
    s.op.bytesTransferredInternal = s₁.op.bytesTransferredInternal ∧
      s.bytesTransferred = s₁.op.bytesTransferredInternal := by
  obtain ⟨monitor, hclean⟩ := asyncIoCleanup_spec h
  rw [runStages_singleton] at hrun
  have heq : asyncIoCleanup env s₁ = s := (Prod.mk.inj hrun).2
  rw [← heq, hclean]
  exact ⟨rfl, rfl⟩

/-- Wherever the stages are cut, the cut is before the binding, or after it. -/
theorem bindStages_cut {l c : List Stage} (h : bindStages req = l ++ c) : l = [] ∨ c = [] := by
  unfold bindStages at h
  split at h
  · exact Or.inl (List.append_eq_nil_iff.1 h.symm).1
  · rcases List.append_eq_singleton_iff.1 h.symm with ⟨hl, -⟩ | ⟨-, hc⟩
    · exact Or.inl hl
    · exact Or.inr hc

/-- **A negative status stays** in the run of a pipeline. -/
theorem pipeline_negativeStays (rounds : ℕ) (hacc : asyncAccept maxRwCount req = .ok ())
    (hM : env.maxRwCount = maxRwCount) (hs : Started maxRwCount req env.addr world s₀)
    (hruns : Runs sub (bindStages req ++ copyStages blockDim req.type ++ [.cleanup]) world bounce
      s₀) : NegativeStays env rounds sub world bounce := by
  intro op l l' s₂ s hop hl hrun hneg hrest
  obtain rfl : s₀.op = op := Option.some.inj (hruns.op.symm.trans hop)
  rw [hruns.start] at hrun
  rw [hruns.launches, List.append_assoc] at hl
  obtain ⟨devPtr, hptr, hconstruct⟩ := hs.op
  obtain ⟨s₁, hbind, hbound⟩ := bindStages_spec hacc hM hptr hconstruct
  have hmoves : ∀ stage ∈ copyStages blockDim req.type, stage.Moves :=
    fun stage hmem => moves_of_mem_copyStages hmem
  -- the cut is after the binding, since the op is constructed without an error
  have hcut : ∃ m, l = bindStages req ++ m ∧
      copyStages blockDim req.type ++ [.cleanup] = m ++ l' := by
    rcases List.append_eq_append_iff.1 hl with ⟨m, hm, hm'⟩ | ⟨c, hc, hc'⟩
    · exact ⟨m, hm, hm'⟩
    · rcases bindStages_cut hc with rfl | rfl
      · obtain rfl := (Prod.mk.inj hrun).2
        rw [hconstruct] at hneg
        exact absurd hneg (by simp only [AsyncOpFallback.construct]; omega)
      · exact ⟨[], by rw [hc, List.append_nil, List.append_nil], hc'.symm⟩
  obtain ⟨m, rfl, hm⟩ := hcut
  rw [runStages_append_finished (hbind rounds)] at hrun
  -- a cut before the cleanup: the other stages do nothing, and the cleanup publishes
  have hbefore : ∀ r, copyStages blockDim req.type = m ++ r → l' = r ++ [.cleanup] →
      s.op.bytesTransferredInternal = s₂.op.bytesTransferredInternal ∧
        s.bytesTransferred = s₂.op.bytesTransferredInternal := by
    rintro r hr rfl
    obtain ⟨-, hb, hmon, -⟩ := moves_keeps env rounds hs hbound
      fun stage hmem => hmoves stage (hr ▸ List.mem_append_left r hmem)
    rw [hrun] at hb hmon
    have hsame := runStages_of_error env rounds hb hneg r
      fun stage hmem => hmoves stage (hr ▸ List.mem_append_right m hmem)
    rw [runStages_append_finished hsame] at hrest
    exact cleanup_run (hmon ▸ hs.monitor) hrest
  rcases List.append_eq_append_iff.1 hm with ⟨r, hr, hr'⟩ | ⟨r, hr, hr'⟩
  · rcases List.append_eq_singleton_iff.1 hr'.symm with ⟨rfl, rfl⟩ | ⟨rfl, rfl⟩
    · exact hbefore [] (by rw [hr, List.append_nil, List.append_nil]) rfl
    · -- the cut is at the end: the cleanup has published the status it has found
      obtain rfl := (Prod.mk.inj hrest).2
      rw [hr] at hrun
      obtain ⟨s₃, hcopies, hclean⟩ := finished_of_append hrun
      have hmon := (moves_keeps env rounds hs hbound hmoves).2.2.1
      rw [hcopies] at hmon
      obtain ⟨hop₃, hbytes⟩ := cleanup_run (hmon ▸ hs.monitor) hclean
      exact ⟨rfl, hbytes.trans hop₃.symm⟩
  · exact hbefore r hr hr'

/-- **What `async_io` and its stages do**, every HIP call succeeding, with a size of at most
`getMaxRwCount()` and finitely many interruptions. A size of zero submits nothing. -/
theorem pipeline_exact (pageSize : ℕ) (hip : HipAsync) (req : AsyncRequest) (env : StreamEnv)
    (monitor : AsyncMonitor) (bytesTransferred : ℤ) (world : World) (bounce : Mem) (N : ℕ)
    (hacc : asyncAccept (getMaxRwCount pageSize) req = .ok ())
    (hle : req.params.size ≤ getMaxRwCount pageSize) (hip_succeeds : Succeeds hip)
    (hM : env.maxRwCount = getMaxRwCount pageSize)
    (hN : ∀ i, N ≤ i → ∀ count offset, env.ioOutcome req.type i count offset ≠ .error EINTR) :
    let sub := (asyncIo (getMaxRwCount pageSize) hip env.addr req
      (.start monitor bytesTransferred)).2
    (req.params.size = 0 → sub = ⟨monitor, none, [], [], 0⟩) ∧
    (req.params.size ≠ 0 → ∃ s R, Exact (getMaxRwCount pageSize) req env.client world s ∧
      (∀ rounds, R ≤ rounds → sub.run env rounds world bounce = some (.finished, s)) ∧
      ∀ rounds, (∃ p s', sub.run env rounds world bounce = some (p, s') ∧ p ≠ .fault) ∧
        NegativeStays env rounds sub world bounce) := by
  intro sub
  have hlt := getMaxRwCount_lt pageSize
  refine ⟨fun h0 => ?_, fun hsize => ?_⟩
  · show (asyncIo _ _ _ _ _).2 = _
    unfold asyncIo
    rw [hacc]
    simp only [h0, if_true]
    rfl
  · obtain ⟨devPtr, halloc⟩ := hip_succeeds.alloc
    obtain ⟨s₀, l, tail, hs, he, hruns⟩ :=
      asyncIo_run env.addr monitor bytesTransferred world bounce hacc hsize halloc
    obtain ⟨blockDim, hB, rfl, rfl⟩ := he.all_of_succeeds hip_succeeds
    have hno : ¬ Oversized (getMaxRwCount pageSize) req := fun h => Nat.not_lt.2 hle h.2
    obtain ⟨s, R, hexact, hfin⟩ := pipeline_total hB (by omega) hacc hM hno hs hN
    refine ⟨s, R, hexact, fun rounds hR => ?_, fun rounds => ⟨⟨_, _, hruns.run env rounds, ?_⟩, ?_⟩⟩
    · exact (hruns.run env rounds).trans (congrArg some (hfin rounds hR))
    · exact pipeline_ne_fault rounds hacc hM hs
    · exact pipeline_negativeStays rounds hacc hM hs hruns

/-- What the client sets before the parameters of the sample read are bound. -/
def sampleClient : Params := ⟨12, ⟨2, by decide⟩, ⟨4, by decide⟩⟩

/-- The sample read, bound to twelve bytes, of which `pread` gives eight. -/
theorem pipeline_exact_sample :
    ∃ s R, Exact (getMaxRwCount 4096) sampleRequest sampleClient tenBytes s ∧
      ∀ rounds, R ≤ rounds →
        (asyncIo (getMaxRwCount 4096) workingHip 64 sampleRequest (.start .init 0)).2.run
          (streamEnv (getMaxRwCount 4096) (shortSys 8) sampleClient fun _ => 0) rounds tenBytes
          (fun _ => 0) = some (.finished, s) := by
  obtain ⟨s, R, hexact, hrun, -⟩ := (pipeline_exact 4096 workingHip sampleRequest
    (streamEnv (getMaxRwCount 4096) (shortSys 8) sampleClient fun _ => 0) .init 0 tenBytes
    (fun _ => 0) 0 rfl (by decide) succeeds_workingHip rfl (fun i _ count offset h => by
      rw [ioOutcome_shortSys] at h
      cases h)).2 (by decide)
  exact ⟨s, R, hexact, hrun⟩

/-- A read of as many bytes as the limit allows, whose parameters are bound in stream order. -/
def limitRequest : AsyncRequest where
  type := .read
  file := sampleFile
  buffer := oversizedRequest.buffer
  stream := sampleRequest.stream
  params := { sampleRequest.params with size := 0x7ffff000 }

/-- One byte more than the limit. -/
def aboveLimit : Params := { limitRequest.params with size := 0x7ffff001 }

/-- The client sets a size above the submitted one before the binding: the size bound is not the
client's but the limit, and nothing is refused. -/
theorem bound_limited : min limitRequest.params.size 0x7ffff000 < aboveLimit.size ∧
    ((asyncIo 0x7ffff000 workingHip 64 limitRequest (.start .init 0)).2.run
      (streamEnv 0x7ffff000 (shortSys 0) aboveLimit fun _ => 0) 1 tenBytes fun _ => 0).map
        (fun r => (r.1, r.2.op.size, r.2.bytesTransferred)) =
      some (.finished, .value 0x7ffff000, 0) ∧ (0 : ℤ) ≠ invalidValueStatus :=
  ⟨by decide, rfl, by decide⟩

end HipFile.Fallback
