import HipFile.Proof.AsyncRun
import HipFile.Proof.AsyncSubmit

/-!
# The stages that a submission enqueues, and their run

* `Stopped`, `Enqueued`: what is enqueued, by the HIP calls that fail.
* `asyncIo_run`: the run of a request is the run of these stages.
* `run_published`: only the cleanup, which is the last of them, changes the client's
  `*bytes_transferred_p`.
-/

namespace HipFile.Fallback

variable {env : StreamEnv} {rounds maxRwCount blockDim addr : ℕ} {req : AsyncRequest}
  {client : Params} {hip : HipAsync} {done l tail : List Stage} {world : World}
  {s s₀ s₁ : StreamState}

/-- The launch that moves bytes first, and its place. -/
def firstCopy (blockDim : ℕ) : IoType → LaunchSite × Stage
  | .read => (.cpuCopy, .cpuCopy)
  | .write => (.memcpyKernel, .memcpyKernel blockDim)

/-- The launch that moves bytes last, and its place. -/
def secondCopy (blockDim : ℕ) : IoType → LaunchSite × Stage
  | .read => (.memcpyKernel, .memcpyKernel blockDim)
  | .write => (.cpuCopy, .cpuCopy)

theorem copyStages_eq (blockDim : ℕ) (type : IoType) :
    copyStages blockDim type = [(firstCopy blockDim type).2, (secondCopy blockDim type).2] := by
  cases type <;> rfl

theorem pipeline_eq (blockDim : ℕ) (req : AsyncRequest) : pipeline blockDim req =
    (if req.stream.allFixed then [] else [(.bindParams, .bindParams)]) ++
      [firstCopy blockDim req.type, secondCopy blockDim req.type, (.cleanup, .cleanup)] := by
  unfold pipeline transferLaunches
  rw [List.append_assoc]
  cases req.type <;> rfl

/-- The block size is known and the binding, if any, is enqueued. -/
structure Prepared (hip : HipAsync) (req : AsyncRequest) (blockDim : ℕ) : Prop where
  maxThreads : ∃ n, hip.maxThreadsPerBlock = .ok n ∧ blockDim = n % 2 ^ 32
  bindParams : req.stream.allFixed = false → hip.launch .bindParams = .ok ()

theorem Prepared.pos (h : Prepared hip req blockDim) : 0 < blockDim := by
  obtain ⟨n, hn, rfl⟩ := h.maxThreads
  have := hip.maxThreads_range hn
  omega

/-- **How far the `try` block has come when it throws**, and which call has failed. -/
inductive Stopped (hip : HipAsync) (req : AsyncRequest) : List Stage → Prop
  | early (h : ∀ blockDim, ¬ Prepared hip req blockDim) : Stopped hip req []
  | bound {blockDim : ℕ} {e : HipError} (h : Prepared hip req blockDim)
      (hfirst : hip.launch (firstCopy blockDim req.type).1 = .error e) :
      Stopped hip req (bindStages req)
  | half {blockDim : ℕ} {e : HipError} (h : Prepared hip req blockDim)
      (hfirst : hip.launch (firstCopy blockDim req.type).1 = .ok ())
      (hsecond : hip.launch (secondCopy blockDim req.type).1 = .error e) :
      Stopped hip req (bindStages req ++ [(firstCopy blockDim req.type).2])
  | whole {blockDim : ℕ} {e : HipError} (h : Prepared hip req blockDim)
      (hfirst : hip.launch (firstCopy blockDim req.type).1 = .ok ())
      (hsecond : hip.launch (secondCopy blockDim req.type).1 = .ok ())
      (hcleanup : hip.launch .cleanup = .error e) :
      Stopped hip req (bindStages req ++ copyStages blockDim req.type)

/-- The launches after the binding fail at one of three places. -/
theorem stopped_of_failsAt (h : Prepared hip req blockDim) (hf : FailsAt hip
      [firstCopy blockDim req.type, secondCopy blockDim req.type, (.cleanup, .cleanup)] done) :
    Stopped hip req (bindStages req ++ done) := by
  cases hf with
  | here hfirst => exact (List.append_nil (bindStages req)).symm ▸ .bound h hfirst
  | later hfirst hf =>
    cases hf with
    | here hsecond => exact .half h hfirst hsecond
    | later hsecond hf =>
      cases hf with
      | here hcleanup => exact copyStages_eq blockDim req.type ▸ .whole h hfirst hsecond hcleanup
      | later _ hf => cases hf

theorem LaunchFails.stopped (h : LaunchFails hip req done) : Stopped hip req done := by
  rcases h with ⟨e, he, rfl⟩ | ⟨n, hn, hf⟩
  · refine .early fun blockDim hp => ?_
    obtain ⟨n, hn, -⟩ := hp.maxThreads
    cases he.symm.trans hn
  rw [pipeline_eq] at hf
  by_cases hfix : req.stream.allFixed = true
  · have hprep : Prepared hip req (n % 2 ^ 32) :=
      ⟨⟨n, hn, rfl⟩, fun h => (by rw [hfix] at h; cases h)⟩
    rw [if_pos hfix] at hf
    have hst := stopped_of_failsAt hprep hf
    rwa [bindStages, if_pos hfix] at hst
  · -- the binding is launched first, and may fail itself
    rw [if_neg hfix] at hf
    cases hf with
    | here he =>
      refine .early fun blockDim hp => ?_
      cases he.symm.trans (hp.bindParams (Bool.eq_false_iff.2 hfix))
    | later hbind hf =>
      have hst := stopped_of_failsAt ⟨⟨n, hn, rfl⟩, fun _ => hbind⟩ hf
      rwa [bindStages, if_neg hfix] at hst

/-- **What is enqueued for an op**: stages up to a failure, or all of them, and the cleanup
where it can be enqueued. -/
inductive Enqueued (hip : HipAsync) (req : AsyncRequest) : List Stage → List Stage → Prop
  | nothing {e : HipError} (h : hip.hipHostGetDevicePointerOp = .error e) : Enqueued hip req [] []
  | all {p blockDim : ℕ} (hop : hip.hipHostGetDevicePointerOp = .ok p)
      (h : Prepared hip req blockDim)
      (hfirst : hip.launch (firstCopy blockDim req.type).1 = .ok ())
      (hsecond : hip.launch (secondCopy blockDim req.type).1 = .ok ())
      (hc : hip.launch .cleanup = .ok ()) :
      Enqueued hip req (bindStages req ++ copyStages blockDim req.type) [.cleanup]
  | cleanedUp {p : ℕ} {done : List Stage} (hop : hip.hipHostGetDevicePointerOp = .ok p)
      (h : Stopped hip req done) (hc : hip.launch .cleanupAfterFailure = .ok ()) :
      Enqueued hip req done [.cleanup]
  | leaked {p : ℕ} {e : HipError} {done : List Stage}
      (hop : hip.hipHostGetDevicePointerOp = .ok p) (h : Stopped hip req done)
      (hc : hip.launch .cleanupAfterFailure = .error e) : Enqueued hip req done []

/-- The stages before the cleanup are none, or the binding and some that move bytes. -/
theorem Enqueued.shape (h : Enqueued hip req l tail) : (tail = [] ∨ tail = [.cleanup]) ∧
    (l = [] ∨ ∃ copies, l = bindStages req ++ copies ∧ ∀ stage ∈ copies, stage.Moves) := by
  have hstopped : ∀ {done}, Stopped hip req done →
      done = [] ∨ ∃ copies, done = bindStages req ++ copies ∧ ∀ stage ∈ copies, stage.Moves := by
    intro done h
    cases h with
    | early h => exact Or.inl rfl
    | bound h hfirst => exact Or.inr ⟨[], (List.append_nil _).symm, fun _ h => (by cases h)⟩
    | half h hfirst hsecond =>
      refine Or.inr ⟨_, rfl, fun stage hst => ?_⟩
      rw [List.mem_singleton.1 hst]
      exact moves_of_mem_copyStages (copyStages_eq _ _ ▸ List.mem_cons_self)
    | whole h hfirst hsecond hcleanup =>
      exact Or.inr ⟨_, rfl, fun stage hst => moves_of_mem_copyStages hst⟩
  cases h with
  | nothing h => exact ⟨Or.inl rfl, Or.inl rfl⟩
  | all hop h hfirst hsecond hc =>
    exact ⟨Or.inr rfl, Or.inr ⟨_, rfl, fun stage hst => moves_of_mem_copyStages hst⟩⟩
  | cleanedUp hop h hc => exact ⟨Or.inr rfl, hstopped h⟩
  | leaked hop h hc => exact ⟨Or.inl rfl, hstopped h⟩

/-- Every HIP call succeeds. -/
structure Succeeds (hip : HipAsync) : Prop where
  alloc : ∃ devPtr, Allocated hip devPtr
  op : ∃ p, hip.hipHostGetDevicePointerOp = .ok p
  maxThreads : ∃ n, hip.maxThreadsPerBlock = .ok n
  launch : ∀ site, hip.launch site = .ok ()

/-- If every HIP call succeeds, everything is enqueued. -/
theorem Enqueued.all_of_succeeds (hs : Succeeds hip) (h : Enqueued hip req l tail) :
    ∃ blockDim, 0 < blockDim ∧ l = bindStages req ++ copyStages blockDim req.type ∧
      tail = [.cleanup] := by
  have hstopped : ∀ done, ¬ Stopped hip req done := by
    intro done h
    cases h with
    | early h =>
      obtain ⟨n, hn⟩ := hs.maxThreads
      exact h _ ⟨⟨n, hn, rfl⟩, fun _ => hs.launch _⟩
    | bound h hfirst => cases (hs.launch _).symm.trans hfirst
    | half h hfirst hsecond => cases (hs.launch _).symm.trans hsecond
    | whole h hfirst hsecond hcleanup => cases (hs.launch _).symm.trans hcleanup
  cases h with
  | nothing h =>
    obtain ⟨p, hp⟩ := hs.op
    cases h.symm.trans hp
  | all hop h hfirst hsecond hc => exact ⟨_, h.pos, rfl, rfl⟩
  | cleanedUp hop h hc => exact absurd h (hstopped _)
  | leaked hop h hc => exact absurd h (hstopped _)

/-- The state in which the first stage of an op runs. -/
structure Started (maxRwCount : ℕ) (req : AsyncRequest) (addr : ℕ) (world : World)
    (s : StreamState) : Prop where
  op : ∃ devPtr, devPtr ≠ 0 ∧ s.op = AsyncOpFallback.construct maxRwCount req devPtr
  world : s.world = world
  monitor : addr ∈ s.monitor.submittedOps
  bytesTransferred : s.bytesTransferred = 0
  bounceAccesses : s.bounceAccesses = []
  gpuAccesses : s.gpuAccesses = []

theorem started_added (maxRwCount addr : ℕ) (req : AsyncRequest) (monitor : AsyncMonitor)
    (bytesTransferred : ℤ) (world : World) (bounce : Mem) {devPtr : ℕ}
    (halloc : Allocated hip devPtr) :
    Started maxRwCount req addr world
      ((added maxRwCount addr req devPtr (.start monitor bytesTransferred)).streamState
        (AsyncOpFallback.construct maxRwCount req devPtr) world bounce) :=
  ⟨⟨devPtr, hip.bounce_nonnull halloc.devicePointer, rfl⟩, rfl, Finset.mem_insert_self _ _, rfl,
    rfl, rfl⟩

theorem stages_enqueue (addr : ℕ) (sub : Submission) (h : sub.launches = []) (l : List Stage) :
    (enqueue addr sub l).launches.map Launch.stage = l := by
  unfold enqueue
  rw [h, List.nil_append, List.map_map]
  exact List.map_id l

variable {monitor : AsyncMonitor} {bytesTransferred : ℤ} {bounce : Mem}

/-- The submission has an op that starts in `s₀`, with these stages. -/
structure Runs (sub : Submission) (stages : List Stage) (world : World) (bounce : Mem)
    (s₀ : StreamState) : Prop where
  op : sub.op = some s₀.op
  launches : sub.launches.map Launch.stage = stages
  start : sub.streamState s₀.op world bounce = s₀

theorem Runs.run {sub : Submission} {stages : List Stage} (h : Runs sub stages world bounce s₀)
    (env : StreamEnv) (rounds : ℕ) :
    sub.run env rounds world bounce = some (runStages env rounds stages s₀) := by
  rw [Submission.run, h.op, Option.map_some, h.launches, h.start]

/-- **The run of an accepted request** whose op has been allocated. -/
theorem asyncIo_run {devPtr : ℕ} (addr : ℕ) (monitor : AsyncMonitor) (bytesTransferred : ℤ)
    (world : World) (bounce : Mem) (hacc : asyncAccept maxRwCount req = .ok ())
    (hsize : req.params.size ≠ 0) (halloc : Allocated hip devPtr) :
    ∃ s₀ l tail, Started maxRwCount req addr world s₀ ∧ Enqueued hip req l tail ∧
      Runs (asyncIo maxRwCount hip addr req (.start monitor bytesTransferred)).2 (l ++ tail) world
        bounce s₀ := by
  have hsub := asyncIo_submitted hacc hsize hip addr (.start monitor bytesTransferred)
  have hstart : ∀ devPtr, Allocated hip devPtr → _ := fun devPtr h =>
    started_added maxRwCount addr req monitor bytesTransferred world bounce h
  generalize asyncIo maxRwCount hip addr req (.start monitor bytesTransferred) = r at hsub ⊢
  cases hsub with
  | notAllocated e h => exact absurd halloc (h devPtr)
  | devPtrFailed devPtr e h hop => exact ⟨_, [], [], hstart devPtr h, .nothing hop, rfl, rfl, rfl⟩
  | launched devPtr p n h hop hn hl =>
    rw [pipeline_eq] at hl
    have hprep : Prepared hip req (n % 2 ^ 32) := by
      refine ⟨⟨n, hn, rfl⟩, fun hfix => ?_⟩
      exact hl (.bindParams, .bindParams) (by rw [hfix]; exact List.mem_cons_self)
    have hall : ∀ q ∈ [firstCopy (n % 2 ^ 32) req.type, secondCopy (n % 2 ^ 32) req.type,
        (.cleanup, .cleanup)], hip.launch q.1 = .ok () :=
      fun q hq => hl q (List.mem_append_right _ hq)
    have hstages : (pipeline (n % 2 ^ 32) req).map Prod.snd =
        bindStages req ++ copyStages (n % 2 ^ 32) req.type ++ [.cleanup] := by
      rw [pipeline_eq, bindStages, copyStages_eq]
      split <;> rfl
    refine ⟨_, _, _, hstart devPtr h, .all hop hprep (hall _ (by simp)) (hall _ (by simp))
      (hall (.cleanup, .cleanup) (by simp)), rfl, ?_, rfl⟩
    rw [← hstages]
    exact stages_enqueue addr _ rfl _
  | cleanedUp devPtr p e done h hop hf hc =>
    refine ⟨_, _, _, hstart devPtr h, .cleanedUp hop hf.stopped hc, rfl, ?_, rfl⟩
    exact stages_enqueue addr _ rfl _
  | leaked devPtr p e e' done h hop hf hc =>
    refine ⟨_, _, _, hstart devPtr h, .leaked hop hf.stopped hc, rfl, ?_, rfl⟩
    rw [List.append_nil]
    exact stages_enqueue addr
      (added maxRwCount addr req devPtr (.start monitor bytesTransferred)) rfl done

/-- A request that runs stages is not empty, and its op has been allocated. -/
theorem allocated_of_run {p : Progress} (hacc : asyncAccept maxRwCount req = .ok ())
    (hrun : (asyncIo maxRwCount hip env.addr req (.start monitor bytesTransferred)).2.run env
      rounds world bounce = some (p, s)) :
    req.params.size ≠ 0 ∧ ∃ devPtr, Allocated hip devPtr := by
  have hsize : req.params.size ≠ 0 := by
    intro h0
    simp [asyncIo, hacc, h0, Submission.run, Submission.start] at hrun
  refine ⟨hsize, ?_⟩
  have hsub := asyncIo_submitted hacc hsize hip env.addr (.start monitor bytesTransferred)
  generalize asyncIo maxRwCount hip env.addr req (.start monitor bytesTransferred) = r at hsub hrun
  cases hsub with
  | notAllocated e h => simp [Submission.run, Submission.start] at hrun
  | devPtrFailed devPtr e h hop => exact ⟨devPtr, h⟩
  | launched devPtr p n h hop hn hl => exact ⟨devPtr, h⟩
  | cleanedUp devPtr p e done h hop hf hc => exact ⟨devPtr, h⟩
  | leaked devPtr p e e' done h hop hf hc => exact ⟨devPtr, h⟩

/-! ## What the cleanup publishes -/

/-- An op that has been bound without an error has accessed nothing yet. -/
theorem Started.staged (hs : Started maxRwCount req addr world s₀)
    (hb : ParamsBound maxRwCount req client s₀ s₁)
    (hst : s₁.op.bytesTransferredInternal = 0) :
    Staged maxRwCount req (req.bound maxRwCount client) s₁ s₁ := by
  have hbounce : s₁.bounceAccesses = [] := by
    rw [hb.others]
    exact hs.bounceAccesses
  have hgpu : s₁.gpuAccesses = [] := by
    rw [hb.others]
    exact hs.gpuAccesses
  refine ⟨hb.bound, by omega, by rw [hst]; decide, rfl, rfl, fun sp hsp => ?_, fun sp hsp => ?_⟩
  · rw [hbounce] at hsp
    cases hsp
  · rw [hgpu] at hsp
    cases hsp

/-- **The stages that move bytes leave the parameters, the monitor and `*bytes_transferred_p`
alone.** -/
theorem moves_keeps (env : StreamEnv) (rounds : ℕ) {copies : List Stage}
    (hs : Started maxRwCount req addr world s₀)
    (hbound : ParamsBound maxRwCount req client s₀ s₁) (hmoves : ∀ stage ∈ copies, stage.Moves) :
    (runStages env rounds copies s₁).1 ≠ .fault ∧
      Bound maxRwCount req (req.bound maxRwCount client) (runStages env rounds copies s₁).2.op ∧
      (runStages env rounds copies s₁).2.monitor = s₀.monitor ∧
      (runStages env rounds copies s₁).2.bytesTransferred = 0 := by
  have hmon : s₁.monitor = s₀.monitor := by rw [hbound.others]
  have hbytes : s₁.bytesTransferred = 0 := by
    rw [hbound.others]
    exact hs.bytesTransferred
  -- bound without an error the stages keep `Staged`; otherwise they do nothing
  rcases hbound.status with ⟨hst, hoff, -⟩ | ⟨hst, -, -⟩
  · obtain ⟨hfault, hrun⟩ := runStages_inv env rounds
      (fun stage hmem s hs => hs.run env rounds hoff (hmoves stage hmem)) s₁ (hs.staged hbound hst)
    exact ⟨hfault, hrun.bound, hrun.monitor.trans hmon, hrun.bytesTransferred.trans hbytes⟩
  · rw [runStages_of_error env rounds hbound.bound (hst ▸ invalidValueStatus_neg) copies hmoves]
    exact ⟨by simp, hbound.bound, hmon, hbytes⟩

/-- The stages before the cleanup do. -/
theorem run_keeps (rounds : ℕ) (hacc : asyncAccept maxRwCount req = .ok ())
    (hM : env.maxRwCount = maxRwCount) (hs : Started maxRwCount req env.addr world s₀)
    (he : Enqueued hip req l tail) :
    (runStages env rounds l s₀).2.monitor = s₀.monitor ∧
      (runStages env rounds l s₀).2.bytesTransferred = 0 := by
  rcases he.shape.2 with rfl | ⟨copies, rfl, hmoves⟩
  · exact ⟨rfl, hs.bytesTransferred⟩
  obtain ⟨devPtr, hptr, hop⟩ := hs.op
  obtain ⟨s₁, hbind, hbound⟩ := bindStages_spec hacc hM hptr hop
  rw [runStages_append_finished (hbind rounds)]
  exact (moves_keeps env rounds hs hbound hmoves).2.2

/-- **What `*bytes_transferred_p` holds after a run**: nothing, or the status of the op, if the
cleanup has been enqueued. -/
theorem run_published (hacc : asyncAccept maxRwCount req = .ok ())
    (hM : env.maxRwCount = maxRwCount) (hs : Started maxRwCount req env.addr world s₀)
    (he : Enqueued hip req l tail)
    (hrun : runStages env rounds (l ++ tail) s₀ = (.finished, s)) :
    (tail = [] ∧ s.bytesTransferred = 0) ∨ (tail = [.cleanup] ∧ ∃ s₂,
      runStages env rounds l s₀ = (.finished, s₂) ∧
        s.bytesTransferred = s₂.op.bytesTransferredInternal ∧ s.world = s₂.world) := by
  obtain ⟨s₂, hl, htail⟩ := finished_of_append hrun
  have hkeeps := run_keeps rounds hacc hM hs he
  rw [hl] at hkeeps
  rcases he.shape.1 with rfl | rfl
  · obtain rfl := (Prod.mk.inj htail).2
    exact Or.inl ⟨rfl, hkeeps.2⟩
  · have hmem : env.addr ∈ s₂.monitor.submittedOps := by
      rw [hkeeps.1]
      exact hs.monitor
    obtain ⟨monitor, hclean⟩ := asyncIoCleanup_spec hmem
    simp only [runStages, Stage.run, hclean, Prod.mk.injEq, true_and] at htail
    exact Or.inr ⟨rfl, s₂, hl, by rw [← htail], by rw [← htail]⟩

end HipFile.Fallback
