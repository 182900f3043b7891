import HipFile.Model.AsyncIo
import HipFile.Proof.FallbackRead

/-!
# What a submission leaves

* `Submitted`: the ways a submission ends, with the stages it has enqueued.
* `asyncIo_submitted`: there are no others.
* `nothingStranded_iff`: when a submission that throws strands nothing.
-/

namespace HipFile.Fallback

variable {maxRwCount addr : ℕ} {hip : HipAsync} {req : AsyncRequest} {s : Submission}

/-! ## Launches in sequence -/

/-- The submission with more stages enqueued. -/
def enqueue (addr : ℕ) (s : Submission) (stages : List Stage) : Submission :=
  { s with launches := s.launches ++ stages.map fun stage => ⟨addr, stage⟩ }

@[simp] theorem enqueue_nil (s : Submission) : enqueue addr s [] = s := by simp [enqueue]

theorem enqueue_append (s : Submission) (l l' : List Stage) :
    enqueue addr (enqueue addr s l) l' = enqueue addr s (l ++ l') := by simp [enqueue]

/-- Launch one after the other. -/
def launchSeq (hip : HipAsync) (addr : ℕ) : List (LaunchSite × Stage) → Submit Unit
  | [] => pure ()
  | p :: l => do
    launch hip addr p.1 p.2
    launchSeq hip addr l

theorem launch_ok {site : LaunchSite} (h : hip.launch site = .ok ()) (stage : Stage)
    (s : Submission) : launch hip addr site stage s = (.ok (), enqueue addr s [stage]) := by
  simp [launch, hipCall, Prog.bind_apply, h, enqueue]

theorem launch_error {site : LaunchSite} {e : HipError} (h : hip.launch site = .error e)
    (stage : Stage) (s : Submission) :
    launch hip addr site stage s = (.error (.hipRuntimeError e), s) := by
  simp [launch, hipCall, Prog.bind_apply, h]

theorem allFixed_iff (stream : IStream) : stream.allFixed = true ↔
    ¬ (¬ stream.fixedBufferOffset ∨ ¬ stream.fixedFileOffset ∨ ¬ stream.fixedIOSize) := by
  simp [IStream.allFixed, and_assoc]

/-- **The `try` block launches the pipeline**, once it knows the block size. -/
theorem launchAll_eq (s : Submission) : launchAll hip addr req s =
    match hip.maxThreadsPerBlock with
    | .error e => (.error (.hipRuntimeError e), s)
    | .ok n => launchSeq hip addr (pipeline (n % 2 ^ 32) req) s := by
  cases hn : hip.maxThreadsPerBlock with
  | error e => simp [launchAll, hipCall, Prog.bind_apply, hn]
  | ok n =>
    have hcall : hipCall hip.maxThreadsPerBlock s = (.ok n, s) := by rw [hn]; rfl
    unfold launchAll pipeline transferLaunches
    rw [Prog.bind_ok hcall]
    by_cases hfix : req.stream.allFixed = true
    · rw [if_neg ((allFixed_iff _).1 hfix), if_pos hfix]
      cases req.type <;> simp only [List.nil_append, List.cons_append, launchSeq,
        Prog.bind_pure_unit]
    · rw [if_pos (not_not.1 fun h => hfix ((allFixed_iff _).2 h)), if_neg hfix]
      cases req.type <;> simp only [List.nil_append, List.cons_append, launchSeq,
        Prog.bind_pure_unit]

/-- A launch of the list fails, after the stages `done` have been enqueued. -/
inductive FailsAt (hip : HipAsync) : List (LaunchSite × Stage) → List Stage → Prop
  | here {p : LaunchSite × Stage} {l : List (LaunchSite × Stage)} {e : HipError}
      (h : hip.launch p.1 = .error e) : FailsAt hip (p :: l) []
  | later {p : LaunchSite × Stage} {l : List (LaunchSite × Stage)} {done : List Stage}
      (h : hip.launch p.1 = .ok ()) (hl : FailsAt hip l done) : FailsAt hip (p :: l) (p.2 :: done)

/-- **Launches in sequence** are all made, or made up to the first that throws. -/
theorem launchSeq_cases : ∀ (l : List (LaunchSite × Stage)) (s : Submission),
    ((∀ p ∈ l, hip.launch p.1 = .ok ()) ∧
      launchSeq hip addr l s = (.ok (), enqueue addr s (l.map Prod.snd))) ∨
    ∃ done e, FailsAt hip l done ∧
      launchSeq hip addr l s = (.error (.hipRuntimeError e), enqueue addr s done) := by
  intro l
  induction l with
  | nil =>
    intro s
    exact Or.inl ⟨fun p hp => absurd hp List.not_mem_nil, by rw [List.map_nil, enqueue_nil]; rfl⟩
  | cons p l ih =>
    intro s
    cases hp : hip.launch p.1 with
    | error e =>
      refine Or.inr ⟨[], e, .here hp, ?_⟩
      rw [enqueue_nil]
      exact Prog.bind_error (launch_error hp p.2 s)
    | ok u =>
      have hstep : launchSeq hip addr (p :: l) s = launchSeq hip addr l (enqueue addr s [p.2]) :=
        Prog.bind_ok (launch_ok hp p.2 s)
      rcases ih (enqueue addr s [p.2]) with ⟨hall, hrun⟩ | ⟨done, e, hfail, hrun⟩
      · refine Or.inl ⟨fun q hq => ?_, ?_⟩
        · rcases List.mem_cons.1 hq with rfl | hq
          · exact hp
          · exact hall q hq
        · rw [hstep, hrun, enqueue_append]
          rfl
      · refine Or.inr ⟨p.2 :: done, e, .later hp hfail, ?_⟩
        rw [hstep, hrun, enqueue_append]
        rfl

/-- The stages enqueued are the first of the list, and the last of the list is not among them. -/
theorem FailsAt.initial {c : LaunchSite × Stage} : ∀ {l : List (LaunchSite × Stage)}
    {done : List Stage}, FailsAt hip (l ++ [c]) done → done <+: l.map Prod.snd := by
  intro l
  induction l with
  | nil =>
    intro done h
    cases h with
    | here _ => exact List.nil_prefix
    | later _ hl => cases hl
  | cons p l ih =>
    intro done h
    cases h with
    | here _ => exact List.nil_prefix
    | later _ hl =>
      rw [List.map_cons, List.cons_prefix_cons]
      exact ⟨rfl, ih hl⟩

/-! ## The ways a submission ends -/

/-- The op and its bounce buffer are allocated; the bounce buffer's device pointer is
`devPtr`. -/
structure Allocated (hip : HipAsync) (devPtr : ℕ) : Prop where
  op : hip.hipHostMallocOp = .ok ()
  bounce : hip.hipHostMallocBounce = .ok ()
  devicePointer : hip.hipHostGetDevicePointerBounce = .ok devPtr

/-- The submission whose op has been handed to the monitor. -/
def added (maxRwCount addr : ℕ) (req : AsyncRequest) (devPtr : ℕ) (s : Submission) : Submission :=
  { s with
    monitor := s.monitor.addOp addr
    op := some (AsyncOpFallback.construct maxRwCount req devPtr)
    bytesTransferred := 0 }

/-- The `try` block throws after it has enqueued the stages `done`. -/
def LaunchFails (hip : HipAsync) (req : AsyncRequest) (done : List Stage) : Prop :=
  (∃ e, hip.maxThreadsPerBlock = .error e ∧ done = []) ∨
  ∃ n, hip.maxThreadsPerBlock = .ok n ∧ FailsAt hip (pipeline (n % 2 ^ 32) req) done

/-- **The ways the submission of an accepted request ends.** -/
inductive Submitted (maxRwCount : ℕ) (hip : HipAsync) (addr : ℕ) (req : AsyncRequest)
    (s : Submission) : Except Exn Unit × Submission → Prop
  | notAllocated (e : Exn) (h : ∀ devPtr, ¬ Allocated hip devPtr) :
      Submitted maxRwCount hip addr req s (.error e, { s with bytesTransferred := 0 })
  | devPtrFailed (devPtr : ℕ) (e : HipError) (h : Allocated hip devPtr)
      (hop : hip.hipHostGetDevicePointerOp = .error e) :
      Submitted maxRwCount hip addr req s
        (.error (.hipRuntimeError e), added maxRwCount addr req devPtr s)
  | launched (devPtr opPtr n : ℕ) (h : Allocated hip devPtr)
      (hop : hip.hipHostGetDevicePointerOp = .ok opPtr) (hn : hip.maxThreadsPerBlock = .ok n)
      (hl : ∀ p ∈ pipeline (n % 2 ^ 32) req, hip.launch p.1 = .ok ()) :
      Submitted maxRwCount hip addr req s
        (.ok (), enqueue addr (added maxRwCount addr req devPtr s)
          ((pipeline (n % 2 ^ 32) req).map Prod.snd))
  | cleanedUp (devPtr opPtr : ℕ) (e : Exn) (done : List Stage) (h : Allocated hip devPtr)
      (hop : hip.hipHostGetDevicePointerOp = .ok opPtr) (hf : LaunchFails hip req done)
      (hc : hip.launch .cleanupAfterFailure = .ok ()) :
      Submitted maxRwCount hip addr req s
        (.error e, enqueue addr (added maxRwCount addr req devPtr s) (done ++ [.cleanup]))
  | leaked (devPtr opPtr : ℕ) (e : Exn) (e' : HipError) (done : List Stage)
      (h : Allocated hip devPtr) (hop : hip.hipHostGetDevicePointerOp = .ok opPtr)
      (hf : LaunchFails hip req done) (hc : hip.launch .cleanupAfterFailure = .error e') :
      Submitted maxRwCount hip addr req s
        (.error e, { enqueue addr (added maxRwCount addr req devPtr s) done with
          syslog := s.syslog ++ [leakMessage] })

theorem newOp_ok {devPtr : ℕ} (h : Allocated hip devPtr) (s : Submission) :
    newOp maxRwCount hip req s = (.ok (AsyncOpFallback.construct maxRwCount req devPtr), s) := by
  simp [newOp, hipCall, Prog.bind_apply, h.op, h.bounce, h.devicePointer]

/-- The allocation throws and leaves the submission as it was, or it succeeds. -/
theorem newOp_cases (maxRwCount : ℕ) (hip : HipAsync) (req : AsyncRequest) (s : Submission) :
    (∃ devPtr, Allocated hip devPtr) ∨
      (∀ devPtr, ¬ Allocated hip devPtr) ∧ ∃ e, newOp maxRwCount hip req s = (.error e, s) := by
  cases h₁ : hip.hipHostMallocOp with
  | error e =>
    exact Or.inr ⟨fun p h => (by cases h₁.symm.trans h.op), .badAlloc, by simp [newOp, h₁]⟩
  | ok u =>
    cases h₂ : hip.hipHostMallocBounce with
    | error e =>
      exact Or.inr ⟨fun p h => (by cases h₂.symm.trans h.bounce), _,
        by simp [newOp, hipCall, Prog.bind_apply, h₁, h₂]; rfl⟩
    | ok u =>
      cases h₃ : hip.hipHostGetDevicePointerBounce with
      | error e =>
        exact Or.inr ⟨fun p h => (by cases h₃.symm.trans h.devicePointer), _,
          by simp [newOp, hipCall, Prog.bind_apply, h₁, h₂, h₃]; rfl⟩
      | ok p => exact Or.inl ⟨p, h₁, h₂, h₃⟩

/-- The `try` block enqueues everything, or throws part of the way. -/
theorem launchAll_cases (hip : HipAsync) (addr : ℕ) (req : AsyncRequest) (s : Submission) :
    (∃ n, hip.maxThreadsPerBlock = .ok n ∧
      (∀ p ∈ pipeline (n % 2 ^ 32) req, hip.launch p.1 = .ok ()) ∧
      launchAll hip addr req s =
        (.ok (), enqueue addr s ((pipeline (n % 2 ^ 32) req).map Prod.snd))) ∨
    ∃ done e, LaunchFails hip req done ∧
      launchAll hip addr req s = (.error (.hipRuntimeError e), enqueue addr s done) := by
  rw [launchAll_eq]
  cases hn : hip.maxThreadsPerBlock with
  | error e =>
    exact Or.inr ⟨[], e, Or.inl ⟨e, hn, rfl⟩, by rw [enqueue_nil]⟩
  | ok n =>
    simp only
    rcases launchSeq_cases (pipeline (n % 2 ^ 32) req) s with ⟨hall, hrun⟩ | ⟨done, e, hfail, hrun⟩
    · exact Or.inl ⟨n, rfl, hall, hrun⟩
    · exact Or.inr ⟨done, e, Or.inr ⟨n, hn, hfail⟩, hrun⟩

/-- Once the op is allocated, it is handed to the monitor and its device pointer is asked for
before the `try` block. -/
theorem submit_of_allocated {devPtr : ℕ} (h : Allocated hip devPtr) (s : Submission) :
    submit maxRwCount hip addr req { s with bytesTransferred := 0 } =
      (do
        let _ ← hipCall hip.hipHostGetDevicePointerOp
        Prog.catching (launchAll hip addr req) (launchCleanupAfterFailure hip addr) :
          Submit Unit) (added maxRwCount addr req devPtr s) := by
  unfold submit
  rw [Prog.bind_ok (newOp_ok h _)]
  exact Prog.bind_ok rfl

/-- **A submission ends in one of these ways.** -/
theorem asyncIo_submitted (hacc : asyncAccept maxRwCount req = .ok ()) (hsize : req.params.size ≠ 0)
    (hip : HipAsync) (addr : ℕ) (s : Submission) :
    Submitted maxRwCount hip addr req s (asyncIo maxRwCount hip addr req s) := by
  set s₀ := { s with bytesTransferred := 0 } with hs₀
  have heq : asyncIo maxRwCount hip addr req s = submit maxRwCount hip addr req s₀ := by
    simp only [asyncIo, hacc, if_neg hsize, hs₀]
  rw [heq]
  rcases newOp_cases maxRwCount hip req s₀ with ⟨devPtr, halloc⟩ | ⟨hno, e, hnew⟩
  · set s₁ := added maxRwCount addr req devPtr s with hs₁
    rw [submit_of_allocated halloc s]
    cases hop : hip.hipHostGetDevicePointerOp with
    | error e => exact .devPtrFailed devPtr e halloc hop
    | ok opPtr =>
      have hcall : hipCall (.ok opPtr) s₁ = (.ok opPtr, s₁) := rfl
      rw [Prog.bind_ok hcall]
      rcases launchAll_cases hip addr req s₁ with ⟨n, hn, hall, hrun⟩ | ⟨done, e, hf, hrun⟩
      · rw [Prog.catching_ok hrun]
        exact .launched devPtr opPtr n halloc hop hn hall
      · -- the `catch` clause tries the cleanup, and rethrows either way
        rw [Prog.catching_error hrun]
        unfold launchCleanupAfterFailure
        cases hc : hip.launch .cleanupAfterFailure with
        | ok u =>
          have hcatch : Prog.catching (launch hip addr .cleanupAfterFailure .cleanup) logLeak
              (enqueue addr s₁ done) = (.ok (), enqueue addr (enqueue addr s₁ done) [.cleanup]) :=
            Prog.catching_ok (launch_ok hc .cleanup _)
          rw [Prog.bind_ok hcatch, enqueue_append]
          exact .cleanedUp devPtr opPtr _ done halloc hop hf hc
        | error e' =>
          have hcatch : Prog.catching (launch hip addr .cleanupAfterFailure .cleanup) logLeak
              (enqueue addr s₁ done) = logLeak _ (enqueue addr s₁ done) :=
            Prog.catching_error (launch_error hc .cleanup _)
          rw [Prog.bind_ok hcatch]
          exact .leaked devPtr opPtr _ e' done halloc hop hf hc
  · unfold submit
    rw [Prog.bind_error hnew]
    exact .notAllocated e hno

/-! ## What is stranded -/

theorem cleanup_notMem_transferLaunches (blockDim : ℕ) (req : AsyncRequest) :
    .cleanup ∉ (transferLaunches blockDim req).map Prod.snd := by
  unfold transferLaunches
  cases req.type <;> split <;> simp

/-- **The stages enqueued before a throw** are the first of the transfer's stages. -/
theorem LaunchFails.initial {done : List Stage} (h : LaunchFails hip req done) :
    ∃ blockDim, done <+: (transferLaunches blockDim req).map Prod.snd := by
  rcases h with ⟨_, -, rfl⟩ | ⟨n, -, hfail⟩
  · exact ⟨0, List.nil_prefix⟩
  · exact ⟨n % 2 ^ 32, hfail.initial⟩

/-- The op is not with the monitor, or its cleanup has been enqueued exactly once, or the
leak has been logged. -/
def NothingStranded (addr : ℕ) (s : Submission) : Prop :=
  addr ∉ s.monitor.submittedOps ∨ s.launches.count ⟨addr, .cleanup⟩ = 1 ∨ leakMessage ∈ s.syslog

/-- The requests and HIP outcomes that strand the op: it has been allocated, and the
`hipHostGetDevicePointer` of `op->devPtr()` throws. -/
def DevPtrFails (maxRwCount : ℕ) (hip : HipAsync) (req : AsyncRequest) : Prop :=
  asyncAccept maxRwCount req = .ok () ∧ req.params.size ≠ 0 ∧ (∃ devPtr, Allocated hip devPtr) ∧
    ∃ e, hip.hipHostGetDevicePointerOp = .error e

variable {monitor : AsyncMonitor} {bytesTransferred : ℤ}

/-- A submission that has handed over the op and throws without a cleanup strands it. -/
theorem not_nothingStranded_added (devPtr : ℕ) : ¬ NothingStranded addr
    (added maxRwCount addr req devPtr (Submission.start monitor bytesTransferred)) := by
  rintro (h | h | h)
  · exact h (Finset.mem_insert_self _ _)
  · cases h
  · cases h

/-- With one cleanup after the stages of the transfer, nothing is stranded. -/
theorem nothingStranded_cleanedUp {done : List Stage} (devPtr : ℕ)
    (h : LaunchFails hip req done) : NothingStranded addr (enqueue addr
      (added maxRwCount addr req devPtr (Submission.start monitor bytesTransferred))
      (done ++ [.cleanup])) := by
  obtain ⟨blockDim, hinitial⟩ := h.initial
  have hdone : .cleanup ∉ done := fun hmem =>
    cleanup_notMem_transferLaunches blockDim req (hinitial.subset hmem)
  have hnot : (⟨addr, .cleanup⟩ : Launch) ∉ done.map fun stage => ⟨addr, stage⟩ := by
    rw [List.mem_map]
    rintro ⟨stage, hmem, heq⟩
    obtain rfl := (Launch.mk.inj heq).2
    exact hdone hmem
  refine Or.inr (Or.inl ?_)
  simp only [enqueue, added, Submission.start, List.nil_append, List.map_append, List.map_cons,
    List.map_nil, List.count_append, List.count_eq_zero_of_not_mem hnot, List.count_singleton_self]

/-- **When a submission that throws strands nothing**: unless the op is allocated and its
`devPtr()` throws. -/
theorem nothingStranded_iff (maxRwCount : ℕ) (hip : HipAsync) (addr : ℕ) (req : AsyncRequest)
    (monitor : AsyncMonitor) (bytesTransferred : ℤ) (hfresh : addr ∉ monitor.submittedOps) :
    (∀ e s, asyncIo maxRwCount hip addr req (.start monitor bytesTransferred) = (.error e, s) →
      NothingStranded addr s) ↔ ¬ DevPtrFails maxRwCount hip req := by
  constructor
  · rintro hall ⟨hacc, hsize, ⟨devPtr, halloc⟩, e, hop⟩
    have hsub := asyncIo_submitted hacc hsize hip addr (.start monitor bytesTransferred)
    generalize hr : asyncIo maxRwCount hip addr req (.start monitor bytesTransferred) = r at hsub
    cases hsub with
    | notAllocated e h => exact h devPtr halloc
    | devPtrFailed devPtr e h hop => exact not_nothingStranded_added devPtr (hall _ _ hr)
    | launched devPtr opPtr n h hop' => cases hop.symm.trans hop'
    | cleanedUp devPtr opPtr e done h hop' => cases hop.symm.trans hop'
    | leaked devPtr opPtr e e' done h hop' => cases hop.symm.trans hop'
  · intro hno e s hrun
    cases hacc : asyncAccept maxRwCount req with
    | error e' =>
      -- the checks have refused, before there is an op
      have hs : s = .start monitor bytesTransferred := by
        simp only [asyncIo, hacc, Prod.mk.injEq] at hrun
        exact hrun.2.symm
      exact Or.inl (hs ▸ hfresh)
    | ok u =>
      have hsize : req.params.size ≠ 0 := by
        intro h0
        simp [asyncIo, hacc, h0] at hrun
      have hsub := asyncIo_submitted hacc hsize hip addr (.start monitor bytesTransferred)
      rw [hrun] at hsub
      cases hsub with
      | notAllocated e h => exact Or.inl hfresh
      | devPtrFailed devPtr e h hop => exact absurd ⟨hacc, hsize, ⟨devPtr, h⟩, e, hop⟩ hno
      | cleanedUp devPtr opPtr e done h hop hf hc => exact nothingStranded_cleanedUp devPtr hf
      | leaked devPtr opPtr e e' done h hop hf hc =>
        exact Or.inr (Or.inr (List.mem_append_right _ (List.mem_singleton.2 rfl)))

/-- HIP calls that succeed, in blocks of 1024 threads. -/
def workingHip : HipAsync where
  hipHostMallocOp := .ok ()
  hipHostMallocBounce := .ok ()
  hipHostGetDevicePointerBounce := .ok 8192
  hipHostGetDevicePointerOp := .ok 12288
  maxThreadsPerBlock := .ok 1024
  launch _ := .ok ()
  bounce_nonnull h := by cases h; decide
  maxThreads_range h := by cases h; decide

/-- A read of sixteen bytes whose parameters are bound in stream order. -/
def sampleRequest : AsyncRequest where
  type := .read
  file := sampleFile
  buffer := sampleBuffer
  stream := ⟨1, 0, false, false, false, false⟩
  params := ⟨16, ⟨0, by decide⟩, ⟨0, by decide⟩⟩

/-- The launch of the kernel fails: the cleanup is enqueued by the `catch` clause. -/
theorem nothingStranded_kernelFailed : 64 ∉ AsyncMonitor.init.submittedOps ∧
    ∀ e s, asyncIo 0x7ffff000 { workingHip with
        launch := fun site => if site = .memcpyKernel then .error .outOfMemory else .ok () } 64
      sampleRequest (.start .init 0) = (.error e, s) → NothingStranded 64 s :=
  ⟨by decide, (nothingStranded_iff 0x7ffff000 { workingHip with
      launch := fun site => if site = .memcpyKernel then .error .outOfMemory else .ok () } 64
    sampleRequest .init 0 (by decide)).2 (by rintro ⟨-, -, -, e, h⟩; cases h)⟩

/-- The device pointer of the op cannot be had: the op stays with the monitor, and no
cleanup is enqueued. -/
theorem stranded_devPtrFailed :
    ∃ e s, asyncIo 0x7ffff000 { workingHip with
        hipHostGetDevicePointerOp := .error .invalidValue } 64
      sampleRequest (.start .init 0) = (.error e, s) ∧
      64 ∈ s.monitor.submittedOps ∧ s.launches = [] ∧ s.syslog = [] ∧ ¬ NothingStranded 64 s :=
  ⟨_, _, rfl, by decide, rfl, rfl, not_nothingStranded_added 8192⟩

end HipFile.Fallback
