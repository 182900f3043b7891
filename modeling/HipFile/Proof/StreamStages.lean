import HipFile.Proof.StreamQueue

/-!
# When the stages of an op are side by side

* `contiguous_of_lockSuffices`: the runs in which the lock suffices.
* `lockSuffices_of_registered`: among these are the runs in which every stream is registered
  while calls use it and no HIP call of a `try` block fails.
* `alternates`: two ops that launch under the locks of two objects can alternate.
* `not_contiguous_unregistered`, `not_contiguous_cleanup`: a run on a stream that is not
  registered, and one in which a launch fails.
-/

namespace HipFile.Streams

variable {maxRwCount : ℕ} {s s' : Streams} {o o' : ℕ} {op op' : SubmittedOp} {p : Phase}

/-! ## Registered streams -/

/-- Streams are registered when they are looked up, are deregistered only when the calls that
use them have returned, and the HIP calls of the `try` blocks succeed. -/
def Registered (s : Streams) : Call → Prop
  | .submit _ call => (s.fromPtr call.hipStream).isSome ∧
      (∃ n, call.hip.maxThreadsPerBlock = .ok n) ∧ ∀ site, call.hip.launch site = .ok ()
  | .deregisterStream hipStream => ∀ o op, s.ops o = some op → op.hipStream = hipStream →
      op.phase = .returned
  | _ => True

/-- All calls that use a stream have the object that is registered for it, and none throws
in its `try` block. -/
structure Shared (s : Streams) : Prop where
  key : ∀ h object, s.fromPtr h = some object → object.stream.hipStream = h
  same : ∀ o op, s.ops o = some op → op.phase ≠ .returned →
    s.fromPtr op.hipStream = some op.object
  working : ∀ o op, s.ops o = some op → ¬ op.phase.Thrown ∧
    (∃ n, op.call.hip.maxThreadsPerBlock = .ok n) ∧ ∀ site, op.call.hip.launch site = .ok ()

theorem shared_init : Shared init where
  key _ _ hreg := by cases hreg
  same _ _ hop := by cases hop
  working _ _ hop := by cases hop

/-- **There the lock suffices.** -/
theorem Shared.lockSuffices (h : Shared s) (c : Call) : s.LockSuffices c := by
  cases c with
  | advance o =>
    intro op hop
    constructor
    · intro l hl o' op' hne hop' hstream
      refine ⟨?_, fun hthrown => (h.working o' op' hop').1 hthrown.1⟩
      rintro ⟨q, l', hl'⟩
      have hself := h.same o op hop (by rw [hl]; exact Phase.noConfusion)
      have hother := h.same o' op' hop' (by rw [hl']; exact Phase.noConfusion)
      rw [hstream, hself, Option.some.injEq] at hother
      rw [hother]
    · intro hfailed
      exact absurd (Or.inr hfailed) (h.working o op hop).1
  | registerStream queries hipStream flags => trivial
  | deregisterStream hipStream => trivial
  | submit o call => trivial

theorem construct_hipStream {queries : HipQueries} {hipStream flags : ℕ} {stream : IStream}
    (h : Stream.construct queries hipStream flags = .ok stream) :
    stream.hipStream = hipStream := by
  unfold Stream.construct at h
  split at h
  · cases h
  · split at h
    · cases h
    · simp only [Except.ok.injEq] at h
      exact h ▸ rfl

/-- A call moves to a phase that is neither `unwinding` nor `failed`. -/
theorem Shared.setPhase (h : Shared s) (hop : s.ops o = some op) (hp : ¬ p.Thrown)
    (hlast : op.phase ≠ .returned) (hops : s'.ops = s.ops) (hmap : s'.fromPtr = s.fromPtr) :
    Shared (s'.setPhase o op p) := by
  constructor
  · intro hs object hreg
    rw [setPhase_fromPtr, hmap] at hreg
    exact h.key hs object hreg
  · intro o' op' hop' hphase
    rw [setPhase_fromPtr, hmap]
    rcases setPhase_ops_cases hop' with ⟨rfl, rfl⟩ | ⟨-, hop''⟩
    · exact h.same _ op hop hlast
    · exact h.same o' op' (by rw [← hops]; exact hop'') hphase
  · intro o' op' hop'
    rcases setPhase_ops_cases hop' with ⟨rfl, rfl⟩ | ⟨-, hop''⟩
    · exact ⟨hp, (h.working _ op hop).2⟩
    · exact h.working o' op' (by rw [← hops]; exact hop'')

theorem Advances.shared (hop : s.ops o = some op) (h : Shared s)
    (hadv : Advances maxRwCount s o op s') : Shared s' := by
  obtain ⟨hthrown, ⟨n, hn⟩, hok⟩ := h.working o op hop
  cases hadv with
  | enter hp ht => exact h.setPhase hop (by simp [Phase.Thrown]) (by simp [hp]) rfl rfl
  | refuse hp ht => exact h.setPhase hop (by simp [Phase.Thrown]) (by simp [hp]) rfl rfl
  | query n hp hn => exact h.setPhase hop (by simp [Phase.Thrown]) (by simp [hp]) rfl rfl
  | queryFails e hp he => cases hn.symm.trans he
  | lock l hp hfree => exact h.setPhase hop (by simp [Phase.Thrown]) (by simp [hp]) rfl rfl
  | launch q l hp hq => exact h.setPhase hop (by simp [Phase.Thrown]) (by simp [hp]) rfl rfl
  | launchFails q l e hp hq => cases (hok q.1).symm.trans hq
  | unlock hp => exact h.setPhase hop (by simp [Phase.Thrown]) (by simp [hp]) rfl rfl
  | unwind hp => exact absurd (Or.inl hp) hthrown
  | cleanUp hp hc => exact absurd (Or.inr hp) hthrown
  | leak e hp hc => exact absurd (Or.inr hp) hthrown

theorem Shared.registerStream (h : Shared s) (queries : HipQueries) (hipStream flags : ℕ) :
    Shared (s.registerStream queries hipStream flags) := by
  unfold Streams.registerStream construct
  cases hreg : s.fromPtr hipStream with
  | some object => exact h
  | none =>
    cases hcon : Stream.construct queries hipStream flags with
    | error e => exact h
    | ok stream =>
      simp only [Option.isSome_none, Bool.false_eq_true, if_false]
      constructor
      · intro hs object hobject
        by_cases hh : hs = hipStream
        · subst hh
          simp only [Function.update_self, Option.some.injEq] at hobject
          rw [← hobject]
          exact construct_hipStream hcon
        · simp only [Function.update_of_ne hh] at hobject
          exact h.key hs object hobject
      · intro o op hop hphase
        have hsame := h.same o op hop hphase
        have hne : op.hipStream ≠ hipStream := by
          intro heq
          rw [heq, hreg] at hsame
          cases hsame
        simp only [Function.update_of_ne hne]
        exact hsame
      · exact h.working

theorem Shared.deregisterStream (h : Shared s) {hipStream : ℕ}
    (hguard : ∀ o op, s.ops o = some op → op.hipStream = hipStream → op.phase = .returned) :
    Shared (s.deregisterStream hipStream) := by
  constructor
  · intro hs object hobject
    by_cases hh : hs = hipStream
    · subst hh
      simp [Streams.deregisterStream] at hobject
    · simp only [Streams.deregisterStream, Function.update_of_ne hh] at hobject
      exact h.key hs object hobject
  · intro o op hop hphase
    have hne : op.hipStream ≠ hipStream := fun heq => hphase (hguard o op hop heq)
    simp only [Streams.deregisterStream, Function.update_of_ne hne]
    exact h.same o op hop hphase
  · exact h.working

theorem Shared.submit (h : Shared s) {call : SubmittedCall} (hst : s.submit o call = some s')
    (hreg : (s.fromPtr call.hipStream).isSome) (hn : ∃ n, call.hip.maxThreadsPerBlock = .ok n)
    (hok : ∀ site, call.hip.launch site = .ok ()) : Shared s' := by
  obtain ⟨-, rfl | ⟨object, s₁, hget, rfl⟩⟩ := submit_cases hst
  · exact h
  · -- the lookup gives the object that is registered
    obtain ⟨registered, hobject⟩ := Option.isSome_iff_exists.1 hreg
    simp only [getStream, hobject, Except.ok.injEq, Prod.mk.injEq] at hget
    obtain ⟨rfl, rfl⟩ := hget
    constructor
    · exact h.key
    · intro o' op' hop' hphase
      by_cases ho : o' = o
      · subst ho
        simp only [Function.update_self, Option.some.injEq] at hop'
        subst hop'
        have hkey : registered.stream.hipStream = call.hipStream := h.key _ registered hobject
        simp only [SubmittedOp.hipStream, hkey]
        exact hobject
      · simp only [Function.update_of_ne ho] at hop'
        exact h.same o' op' hop' hphase
    · intro o' op' hop'
      by_cases ho : o' = o
      · subst ho
        simp only [Function.update_self, Option.some.injEq] at hop'
        subst hop'
        exact ⟨by simp [Phase.Thrown], hn, hok⟩
      · simp only [Function.update_of_ne ho] at hop'
        exact h.working o' op' hop'

theorem shared_step {c : Call} (h : Shared s) (hguard : Registered s c)
    (hst : step maxRwCount s c = some s') : Shared s' := by
  cases c with
  | registerStream queries hipStream flags =>
    simp only [step, Option.some.injEq] at hst
    exact hst ▸ h.registerStream queries hipStream flags
  | deregisterStream hipStream =>
    simp only [step, Option.some.injEq] at hst
    exact hst ▸ h.deregisterStream hguard
  | submit o call => exact h.submit hst hguard.1 hguard.2.1 hguard.2.2
  | advance o =>
    obtain ⟨op, hop, hadv⟩ := advance_cases hst
    exact hadv.shared hop h

/-- **A run on registered streams is one in which the lock suffices.** -/
theorem lockSuffices_of_registered (h : (machine maxRwCount).Reaches Registered s) :
    (machine maxRwCount).Reaches LockSuffices s ∧ Shared s := by
  induction h with
  | init => exact ⟨.init, shared_init⟩
  | step c _ hguard hst ih =>
    exact ⟨.step c ih.1 (ih.2.lockSuffices c) hst, shared_step ih.2 hguard hst⟩

/-- **On registered streams the stages of each op are side by side.** -/
theorem contiguous_of_registered (h : (machine maxRwCount).Reaches Registered s)
    (hipStream : ℕ) : Contiguous Launch.op (s.queue hipStream) :=
  (exclusion_of_reaches (lockSuffices_of_registered h).1).2.contiguous hipStream

/-! ## Two locks for one stream -/

/-- The step of a call whose launch succeeds. -/
theorem advance_launch {q : LaunchSite × Stage} {l : List (LaunchSite × Stage)}
    (hop : s.ops o = some op) (hp : op.phase = .launching (q :: l))
    (hq : op.call.hip.launch q.1 = .ok ()) : s.advance maxRwCount o =
      some ((s.enqueue op.hipStream ⟨o, q.2⟩).setPhase o op (.launching l)) := by
  unfold advance
  simp only [hop, hp, hq]

/-- **Two ops of a HIP stream that both have a lock and launches to make can alternate**, once
one of them has enqueued something. -/
theorem alternates {q q' : LaunchSite × Stage} {l l' : List (LaunchSite × Stage)}
    (hop : s.ops o = some op) (hop' : s.ops o' = some op') (hne : o' ≠ o)
    (hstream : op'.hipStream = op.hipStream) (hp : op.phase = .launching (q :: l))
    (hp' : op'.phase = .launching (q' :: l')) (hlaunched : s.HasLaunched o op)
    (hq : op.call.hip.launch q.1 = .ok ()) (hq' : op'.call.hip.launch q'.1 = .ok ()) :
    ∃ s', (machine maxRwCount).run s [.advance o', .advance o] = some s' ∧
      ¬ Contiguous Launch.op (s'.queue op.hipStream) := by
  set s₁ := (s.enqueue op'.hipStream ⟨o', q'.2⟩).setPhase o' op' (.launching l') with hs₁
  set s₂ := (s₁.enqueue op.hipStream ⟨o, q.2⟩).setPhase o op (.launching l) with hs₂
  have hop₁ : s₁.ops o = some op := by rw [hs₁, setPhase_ops_ne hne.symm]; exact hop
  have hstep : (machine maxRwCount).step s (.advance o') = some s₁ :=
    advance_launch hop' hp' hq'
  have hstep' : (machine maxRwCount).step s₁ (.advance o) = some s₂ :=
    advance_launch hop₁ hp hq
  have hqueue : s₂.queue op.hipStream = s.queue op.hipStream ++ [⟨o', q'.2⟩] ++ [⟨o, q.2⟩] := by
    rw [hs₂, setPhase_queue, enqueue_queue_self, hs₁, setPhase_queue, ← hstream,
      enqueue_queue_self]
  refine ⟨s₂, ?_, ?_⟩
  · simp only [Machine.run, hstep, hstep', Option.bind_some]
  · obtain ⟨x, hx, hxo⟩ := hlaunched
    rw [hqueue]
    exact not_contiguous_between hx hxo hne

/-- HIP queries for which every stream is of the first device. -/
def sampleQueries : HipQueries where
  hipPointerGetAttributes _ := .error .invalidValue
  hipMemGetAddressRange _ := .error .notFound
  hipStreamGetDevice _ := .ok 0

/-- A read of sixteen bytes on the HIP stream 1. -/
def sampleCall (hip : HipAsync) : SubmittedCall where
  queries := sampleQueries
  hip := hip
  type := .read
  file := Fallback.sampleRequest.file
  buffer := Fallback.sampleRequest.buffer
  params := Fallback.sampleRequest.params
  hipStream := 1

/-- Two calls on a registered stream: the second has its lock when the first has released
it. -/
def registeredRun : List Call :=
  [.registerStream sampleQueries 1 0, .submit 1 (sampleCall Fallback.workingHip),
    .submit 2 (sampleCall Fallback.workingHip)] ++
  ([1, 2, 1, 2] ++ List.replicate 6 1 ++ List.replicate 6 2).map Call.advance

theorem registeredRun_reaches : ∃ s, (machine 0x7ffff000).Reaches Registered s ∧
    (s.queue 1).map Launch.op = [1, 1, 1, 1, 2, 2, 2, 2] := by
  have hrun : ∃ s, (machine 0x7ffff000).run init registeredRun = some s ∧
      (s.queue 1).map Launch.op = [1, 1, 1, 1, 2, 2, 2, 2] := ⟨_, rfl, rfl⟩
  obtain ⟨s, hs, hops⟩ := hrun
  have hadvance : ∀ (os : List ℕ), ∀ c ∈ os.map Call.advance, ∀ s, Registered s c := by
    intro os c hc s
    obtain ⟨o, -, rfl⟩ := List.mem_map.1 hc
    trivial
  have hmeets : (machine 0x7ffff000).RunMeets Registered init registeredRun :=
    ⟨trivial, ⟨rfl, ⟨1024, rfl⟩, fun _ => rfl⟩, ⟨rfl, ⟨1024, rfl⟩, fun _ => rfl⟩,
      Machine.runMeets_of_forall (hadvance _) _⟩
  exact ⟨s, Machine.reaches_run .init hmeets hs, hops⟩

/-- **The stages of each op are side by side on its stream**, in every run in which the lock
suffices. -/
theorem contiguous_of_lockSuffices (h : (machine maxRwCount).Reaches LockSuffices s)
    (hipStream : ℕ) : Contiguous Launch.op (s.queue hipStream) :=
  (exclusion_of_reaches h).2.contiguous hipStream

/-- The stages of the two calls on a registered stream. -/
theorem contiguous_registeredRun : ∃ s, (machine 0x7ffff000).Reaches LockSuffices s ∧
    (s.queue 1).map Launch.op = [1, 1, 1, 1, 2, 2, 2, 2] ∧
    Contiguous Launch.op (s.queue 1) := by
  obtain ⟨s, hs, hops⟩ := registeredRun_reaches
  have hreaches := (lockSuffices_of_registered hs).1
  exact ⟨s, hreaches, hops, contiguous_of_lockSuffices hreaches 1⟩

/-- Two calls on a stream that is not registered, each with the lock of its own object. -/
def unregisteredRun : List Call :=
  [.submit 1 (sampleCall Fallback.workingHip), .submit 2 (sampleCall Fallback.workingHip)] ++
  List.replicate 3 (.advance 1) ++ List.replicate 3 (.advance 2) ++
  [.advance 1, .advance 2, .advance 1]

/-- **On a stream that is not registered the stages of two ops may alternate.** -/
theorem not_contiguous_unregistered : ¬ ∀ s, (machine 0x7ffff000).Reachable s →
    ∀ hipStream, Contiguous Launch.op (s.queue hipStream) := by
  intro hall
  have hrun : ∃ s, (machine 0x7ffff000).run init unregisteredRun = some s ∧
      s.queue 1 = [⟨1, .bindParams⟩, ⟨2, .bindParams⟩, ⟨1, .cpuCopy⟩] := ⟨_, rfl, rfl⟩
  obtain ⟨s, hs, hqueue⟩ := hrun
  have hcontiguous := hall s (Machine.reachable_of_run hs) 1 1
  rw [hqueue] at hcontiguous
  exact absurd hcontiguous (by decide)

/-- HIP calls of which the launch of the kernel fails. -/
def kernelFails : HipAsync :=
  { Fallback.workingHip with
    launch := fun site => if site = .memcpyKernel then .error .outOfMemory else .ok () }

/-- Two calls on a registered stream. The kernel of the first fails, and the second takes the
lock before the first has enqueued its cleanup. -/
def failingRun : List Call :=
  [.registerStream sampleQueries 1 0, .submit 1 (sampleCall kernelFails),
    .submit 2 (sampleCall Fallback.workingHip)] ++
  List.replicate 7 (.advance 1) ++ List.replicate 4 (.advance 2) ++ [.advance 1, .advance 2]

/-- On a registered stream the cleanup of a `catch` clause, which is enqueued without the
lock, may come between the stages of another op, and is apart from those of its own. -/
theorem not_contiguous_cleanup : ∃ s, (machine 0x7ffff000).Reachable s ∧
    s.queue 1 = [⟨1, .bindParams⟩, ⟨1, .cpuCopy⟩, ⟨2, .bindParams⟩, ⟨1, .cleanup⟩,
      ⟨2, .cpuCopy⟩] ∧ ¬ Contiguous Launch.op (s.queue 1) := by
  have hrun : ∃ s, (machine 0x7ffff000).run init failingRun = some s ∧
      s.queue 1 = [⟨1, .bindParams⟩, ⟨1, .cpuCopy⟩, ⟨2, .bindParams⟩, ⟨1, .cleanup⟩,
        ⟨2, .cpuCopy⟩] := ⟨_, rfl, rfl⟩
  obtain ⟨s, hs, hqueue⟩ := hrun
  refine ⟨s, Machine.reachable_of_run hs, hqueue, ?_⟩
  rw [hqueue]
  exact fun h => absurd (h 1) (by decide)

end HipFile.Streams
