import HipFile.Proof.StreamQueue

/-!
# The calls on the streams refine the sequential ones

* `forget_step`: without the identities of the objects, the streams are the stream map.
* `staged_of_reaches`: what a call has enqueued and what it would enqueue alone from here on
  is what `asyncIo` enqueues.
* `asyncIo_infix`: in the runs in which the lock suffices, the launches of `asyncIo` stand in
  the queue as they are, once the call has returned.
-/

namespace HipFile.Streams

variable {maxRwCount : ℕ} {s s' : Streams} {o o' : ℕ} {op op' : SubmittedOp} {p : Phase}

/-! ## The stream map -/

/-- The stream map without the identities of the objects. -/
def forget (s : Streams) : StreamMap := ⟨fun h => (s.fromPtr h).map StreamObject.stream⟩

theorem forget_update (s : Streams) (hipStream : ℕ) (object : Option StreamObject) :
    forget { s with fromPtr := Function.update s.fromPtr hipStream object } =
      ⟨Function.update (forget s).fromPtr hipStream (object.map StreamObject.stream)⟩ := by
  unfold forget
  congr 1
  funext h
  by_cases hh : h = hipStream
  · subst hh; simp
  · simp [Function.update_of_ne hh]

theorem forget_registerStream (s : Streams) (queries : HipQueries) (hipStream flags : ℕ) :
    forget (s.registerStream queries hipStream flags) =
      (StreamMap.registerStream queries hipStream flags (forget s)).2 := by
  have hmap : (forget s).fromPtr hipStream = (s.fromPtr hipStream).map StreamObject.stream := rfl
  unfold registerStream StreamMap.registerStream construct
  rw [hmap, Option.isSome_map]
  by_cases hreg : (s.fromPtr hipStream).isSome = true
  · rw [if_pos hreg, if_pos hreg]
  · rw [if_neg hreg, if_neg hreg]
    cases Stream.construct queries hipStream flags with
    | error e => rfl
    | ok stream => exact forget_update _ hipStream (some ⟨s.constructed, stream⟩)

theorem forget_deregisterStream (s : Streams) (hipStream : ℕ) :
    forget (s.deregisterStream hipStream) =
      (StreamMap.deregisterStream hipStream (forget s)).2 := by
  have hmap : (forget s).fromPtr hipStream = (s.fromPtr hipStream).map StreamObject.stream := rfl
  have hforget : forget (s.deregisterStream hipStream) =
      ⟨Function.update (forget s).fromPtr hipStream none⟩ := forget_update s hipStream none
  unfold StreamMap.deregisterStream
  rw [hforget]
  cases hreg : s.fromPtr hipStream with
  | none =>
    rw [hmap, hreg, Option.map_none]
    -- there is nothing to erase
    have hsame : Function.update (forget s).fromPtr hipStream none = (forget s).fromPtr := by
      rw [← Function.update_eq_self hipStream (forget s).fromPtr, hmap, hreg]
      simp
    rw [hsame]
  | some object => rw [hmap, hreg, Option.map_some]

/-- **The lookup** gives what the stream map gives. -/
theorem getStream_forget (s : Streams) (queries : HipQueries) (hipStream : ℕ) :
    (s.getStream queries hipStream).map (fun r => r.1.stream) =
      (StreamMap.getStream queries hipStream (forget s)).1 := by
  have hmap : (forget s).fromPtr hipStream = (s.fromPtr hipStream).map StreamObject.stream := rfl
  unfold getStream StreamMap.getStream construct
  rw [hmap]
  cases hreg : s.fromPtr hipStream with
  | none =>
    cases Stream.construct queries hipStream 0 with
    | error e => simp [Except.map]
    | ok stream => simp [Except.map]
  | some object => rfl

/-- What a step does to the stream map. -/
def Call.onStreamMap (m : StreamMap) : Call → StreamMap
  | .registerStream queries hipStream flags =>
      (StreamMap.registerStream queries hipStream flags m).2
  | .deregisterStream hipStream => (StreamMap.deregisterStream hipStream m).2
  | _ => m

theorem submit_fromPtr {call : SubmittedCall} (h : s.submit o call = some s') :
    s'.fromPtr = s.fromPtr := by
  obtain ⟨-, rfl | ⟨object, s₁, hget, rfl⟩⟩ := submit_cases h
  · rfl
  · exact (getStream_ok hget).2.2.2

theorem Advances.fromPtr (h : Advances maxRwCount s o op s') : s'.fromPtr = s.fromPtr := by
  cases h <;> rfl

/-- **The streams refine the stream map.** -/
theorem forget_step {c : Call} (h : step maxRwCount s c = some s') :
    forget s' = c.onStreamMap (forget s) := by
  cases c with
  | registerStream queries hipStream flags =>
    simp only [step, Option.some.injEq] at h
    exact h ▸ forget_registerStream s queries hipStream flags
  | deregisterStream hipStream =>
    simp only [step, Option.some.injEq] at h
    exact h ▸ forget_deregisterStream s hipStream
  | submit o call =>
    unfold forget
    rw [submit_fromPtr h]
    rfl
  | advance o =>
    obtain ⟨op, -, hadv⟩ := advance_cases h
    unfold forget
    rw [hadv.fromPtr]
    rfl

/-! ## One call alone -/

/-- What the `catch` clause enqueues. -/
def afterFailure (hip : HipAsync) (o : ℕ) : List Launch :=
  match hip.launch .cleanupAfterFailure with
  | .ok _ => [⟨o, .cleanup⟩]
  | .error _ => []

/-- What is enqueued from here on, with these launches still to be made. -/
def ahead (hip : HipAsync) (o : ℕ) : List (LaunchSite × Stage) → List Launch
  | [] => []
  | q :: l =>
    match hip.launch q.1 with
    | .ok _ => ⟨o, q.2⟩ :: ahead hip o l
    | .error _ => afterFailure hip o

/-- What the call enqueues when it runs alone from its start. -/
def alone (maxRwCount : ℕ) (o : ℕ) (op : SubmittedOp) : List Launch :=
  (Fallback.asyncIo maxRwCount op.call.hip o op.request (.start .init 0)).2.launches

/-- What the call enqueues when it runs alone from where it is. -/
def toCome (maxRwCount : ℕ) (o : ℕ) (op : SubmittedOp) : List Launch :=
  match op.phase with
  | .found => alone maxRwCount o op
  | .inTry =>
    match op.call.hip.maxThreadsPerBlock with
    | .ok n => ahead op.call.hip o (Fallback.pipeline (n % 2 ^ 32) op.request)
    | .error _ => afterFailure op.call.hip o
  | .locking l => ahead op.call.hip o l
  | .launching l => ahead op.call.hip o l
  | .unwinding => afterFailure op.call.hip o
  | .failed => afterFailure op.call.hip o
  | .returned => []

open Fallback

theorem launches_cleanupAfterFailure (hip : HipAsync) (o : ℕ) (e : Exn) (x : Submission) :
    (launchCleanupAfterFailure hip o e x).2.launches = x.launches ++ afterFailure hip o := by
  unfold launchCleanupAfterFailure afterFailure
  cases hc : hip.launch .cleanupAfterFailure with
  | ok u =>
    rw [Prog.bind_ok (Prog.catching_ok (launch_ok hc .cleanup x))]
    rfl
  | error e' =>
    have hlog : Prog.catching (launch hip o .cleanupAfterFailure .cleanup) logLeak x =
        logLeak _ x := Prog.catching_error (launch_error hc .cleanup x)
    rw [Prog.bind_ok hlog]
    simp

theorem launches_launchSeq (hip : HipAsync) (o : ℕ) : ∀ (l : List (LaunchSite × Stage))
    (x : Submission), (Prog.catching (launchSeq hip o l) (launchCleanupAfterFailure hip o)
      x).2.launches = x.launches ++ ahead hip o l := by
  intro l
  induction l with
  | nil =>
    intro x
    simp [Prog.catching, launchSeq, ahead]
  | cons q l ih =>
    intro x
    cases hq : hip.launch q.1 with
    | ok u =>
      have hstep : launchSeq hip o (q :: l) x = launchSeq hip o l (Fallback.enqueue o x [q.2]) :=
        Prog.bind_ok (launch_ok hq q.2 x)
      have hcatch : Prog.catching (launchSeq hip o (q :: l)) (launchCleanupAfterFailure hip o) x =
          Prog.catching (launchSeq hip o l) (launchCleanupAfterFailure hip o)
            (Fallback.enqueue o x [q.2]) := by
        unfold Prog.catching
        rw [hstep]
      rw [hcatch, ih]
      simp [Fallback.enqueue, ahead, hq]
    | error e =>
      have hstep : launchSeq hip o (q :: l) x = (.error (.hipRuntimeError e), x) :=
        Prog.bind_error (launch_error hq q.2 x)
      rw [Prog.catching_error hstep, launches_cleanupAfterFailure]
      simp [ahead, hq]

/-- **The `try` block and its `catch` clause enqueue what a call in the `try` block has to
come.** -/
theorem launches_try (op : SubmittedOp) (hp : op.phase = .inTry) (x : Submission) :
    (Prog.catching (launchAll op.call.hip o op.request) (launchCleanupAfterFailure op.call.hip o)
      x).2.launches = x.launches ++ toCome maxRwCount o op := by
  unfold toCome
  simp only [hp]
  cases hn : op.call.hip.maxThreadsPerBlock with
  | error e =>
    have hstep : launchAll op.call.hip o op.request x = (.error (.hipRuntimeError e), x) := by
      rw [launchAll_eq, hn]
    rw [Prog.catching_error hstep, launches_cleanupAfterFailure]
  | ok n =>
    have hstep : launchAll op.call.hip o op.request x =
        launchSeq op.call.hip o (pipeline (n % 2 ^ 32) op.request) x := by
      rw [launchAll_eq, hn]
    rw [← launches_launchSeq]
    unfold Prog.catching
    rw [hstep]

theorem isOk_iff {ε α : Type} {x : Except ε α} : x.isOk = true ↔ ∃ a, x = .ok a := by
  cases x with
  | ok a => simp [Except.isOk, Except.toBool]
  | error e => simp [Except.isOk, Except.toBool]

theorem reachesTry_iff : op.reachesTry maxRwCount = true ↔
    asyncAccept maxRwCount op.request = .ok () ∧ op.call.params.size ≠ 0 ∧
      (∃ devPtr, Allocated op.call.hip devPtr) ∧
      ∃ opPtr, op.call.hip.hipHostGetDevicePointerOp = .ok opPtr := by
  unfold SubmittedOp.reachesTry
  simp only [Bool.and_eq_true, decide_eq_true_eq, isOk_iff]
  constructor
  · rintro ⟨⟨⟨⟨⟨⟨_, hacc⟩, hsize⟩, _, hmalloc⟩, _, hbounce⟩, devPtr, hdev⟩, hop⟩
    exact ⟨hacc, hsize, ⟨devPtr, hmalloc, hbounce, hdev⟩, hop⟩
  · rintro ⟨hacc, hsize, ⟨devPtr, halloc⟩, hop⟩
    exact ⟨⟨⟨⟨⟨⟨(), hacc⟩, hsize⟩, (), halloc.op⟩, (), halloc.bounce⟩, devPtr,
      halloc.devicePointer⟩, hop⟩

/-- A call that reaches the `try` block has enqueued nothing before. -/
theorem alone_of_reachesTry (h : op.reachesTry maxRwCount = true) :
    alone maxRwCount o op = toCome maxRwCount o { op with phase := .inTry } := by
  obtain ⟨hacc, hsize, ⟨devPtr, halloc⟩, opPtr, hop⟩ := reachesTry_iff.1 h
  have hsize' : op.request.params.size ≠ 0 := hsize
  have hrun : asyncIo maxRwCount op.call.hip o op.request (.start .init 0) =
      Fallback.submit maxRwCount op.call.hip o op.request
        { Submission.start .init 0 with bytesTransferred := 0 } := by
    simp only [asyncIo, hacc, if_neg hsize']
  have hcall : hipCall (.ok opPtr)
      (Fallback.added maxRwCount o op.request devPtr (.start .init 0)) =
        (.ok opPtr, Fallback.added maxRwCount o op.request devPtr (.start .init 0)) := rfl
  unfold alone
  rw [hrun, submit_of_allocated halloc, hop, Prog.bind_ok hcall]
  exact (@launches_try maxRwCount o { op with phase := .inTry } rfl _).trans
    (List.nil_append _)

/-- A call that does not reach it enqueues nothing. -/
theorem alone_of_not_reachesTry (h : op.reachesTry maxRwCount = false) :
    alone maxRwCount o op = [] := by
  have hno : ¬ op.reachesTry maxRwCount = true := by rw [h]; exact Bool.false_ne_true
  rw [reachesTry_iff] at hno
  unfold alone
  cases hacc : asyncAccept maxRwCount op.request with
  | error e => simp [asyncIo, hacc, Submission.start]
  | ok u =>
    by_cases hsize : op.request.params.size = 0
    · simp [asyncIo, hacc, hsize, Submission.start]
    · have hsub := asyncIo_submitted hacc hsize op.call.hip o (.start .init 0)
      generalize hr : asyncIo maxRwCount op.call.hip o op.request (.start .init 0) = r at hsub
      cases hsub with
      | notAllocated e h => rfl
      | devPtrFailed devPtr e h hop => rfl
      | launched devPtr opPtr n h hop =>
        exact absurd ⟨hacc, hsize, ⟨devPtr, h⟩, opPtr, hop⟩ hno
      | cleanedUp devPtr opPtr e done h hop =>
        exact absurd ⟨hacc, hsize, ⟨devPtr, h⟩, opPtr, hop⟩ hno
      | leaked devPtr opPtr e e' done h hop =>
        exact absurd ⟨hacc, hsize, ⟨devPtr, h⟩, opPtr, hop⟩ hno

/-! ## Every call among the others -/

/-- What the op has enqueued. -/
def enqueued (s : Streams) (o : ℕ) (op : SubmittedOp) : List Launch :=
  (s.queue op.hipStream).filter fun x => x.op = o

/-- **What each call has enqueued, and what it would enqueue alone from here on**, is what it
enqueues alone from its start. -/
def Staged (maxRwCount : ℕ) (s : Streams) : Prop :=
  ∀ o op, s.ops o = some op →
    s.enqueued o op ++ toCome maxRwCount o op = alone maxRwCount o op

theorem staged_init : Staged maxRwCount init := fun _ _ hop => by cases hop

/-- A call moves and enqueues nothing. -/
theorem Staged.setPhase (h : Staged maxRwCount s) (hop : s.ops o = some op)
    (hops : s'.ops = s.ops) (hqueue : s'.queue = s.queue)
    (heq : toCome maxRwCount o { op with phase := p } = toCome maxRwCount o op) :
    Staged maxRwCount (s'.setPhase o op p) := by
  intro o' op' hop'
  rcases setPhase_ops_cases hop' with ⟨rfl, rfl⟩ | ⟨-, hop''⟩
  · rw [heq]
    have hself := h _ op hop
    simp only [enqueued, setPhase_queue, hqueue]
    exact hself
  · have hother := h o' op' (by rw [← hops]; exact hop'')
    simp only [enqueued, setPhase_queue, hqueue]
    exact hother

/-- A call enqueues the first of the stages that it has to come. -/
theorem Staged.append (h : Staged maxRwCount s) (hop : s.ops o = some op) (stage : Stage)
    (heq : toCome maxRwCount o op =
      ⟨o, stage⟩ :: toCome maxRwCount o { op with phase := p }) :
    Staged maxRwCount ((s.enqueue op.hipStream ⟨o, stage⟩).setPhase o op p) := by
  intro o' op' hop'
  rcases setPhase_ops_cases hop' with ⟨rfl, rfl⟩ | ⟨hne, hop''⟩
  · have hself := h _ op hop
    rw [heq] at hself
    have hfilter := filter_key_concat_self Launch.op (s.queue op.hipStream) ⟨o', stage⟩
    have hafter : ((s.enqueue op.hipStream ⟨o', stage⟩).setPhase o' op p).enqueued o'
        { op with phase := p } = s.enqueued o' op ++ [⟨o', stage⟩] := by
      unfold enqueued
      rw [setPhase_queue]
      exact (congrArg _ enqueue_queue_self).trans hfilter
    rw [hafter, List.append_assoc]
    exact hself
  · have hother := h o' op' hop''
    have hsame : ((s.enqueue op.hipStream ⟨o, stage⟩).setPhase o op p).enqueued o' op' =
        s.enqueued o' op' := by
      unfold enqueued
      rw [setPhase_queue]
      by_cases hstream : op'.hipStream = op.hipStream
      · rw [hstream, enqueue_queue_self]
        exact filter_key_concat_of_ne Launch.op (Ne.symm hne)
      · rw [enqueue_queue_ne hstream]
    rw [hsame]
    exact hother

theorem Advances.staged (hop : s.ops o = some op) (h : Staged maxRwCount s)
    (hadv : Advances maxRwCount s o op s') : Staged maxRwCount s' := by
  cases hadv with
  | enter hp ht =>
    refine h.setPhase hop rfl rfl ?_
    rw [← alone_of_reachesTry ht]
    simp only [toCome, hp]
  | refuse hp ht =>
    refine h.setPhase hop rfl rfl ?_
    simp only [toCome, hp, alone_of_not_reachesTry ht]
  | query n hp hn => exact h.setPhase hop rfl rfl (by simp only [toCome, hp, hn])
  | queryFails e hp hn => exact h.setPhase hop rfl rfl (by simp only [toCome, hp, hn])
  | lock l hp hfree => exact h.setPhase hop rfl rfl (by simp only [toCome, hp])
  | launch q l hp hq => exact h.append hop q.2 (by simp only [toCome, hp, ahead, hq])
  | launchFails q l e hp hq =>
    exact h.setPhase hop rfl rfl (by simp only [toCome, hp, ahead, hq])
  | unlock hp => exact h.setPhase hop rfl rfl (by simp only [toCome, hp, ahead])
  | unwind hp => exact h.setPhase hop rfl rfl (by simp only [toCome, hp])
  | cleanUp hp hc => exact h.append hop .cleanup (by simp only [toCome, hp, afterFailure, hc])
  | leak e hp hc => exact h.setPhase hop rfl rfl (by simp only [toCome, hp, afterFailure, hc])

/-- **A step keeps `Staged`.** -/
theorem staged_step {c : Call} (hlock : Locked s) (h : Staged maxRwCount s)
    (hst : step maxRwCount s c = some s') : Staged maxRwCount s' := by
  by_cases hc : ∃ o, c = .advance o
  · obtain ⟨o, rfl⟩ := hc
    obtain ⟨op, hop, hadv⟩ := advance_cases hst
    exact hadv.staged hop h
  · have hc' : ∀ o, c ≠ .advance o := fun o heq => hc ⟨o, heq⟩
    obtain ⟨-, hqueue, -, hops⟩ := step_frame hc' hst
    intro o op hop
    have hsame : s'.enqueued o op = s.enqueued o op := by
      unfold enqueued
      rw [hqueue]
    rw [hsame]
    rcases hops o op hop with hold | ⟨hnew, hfound⟩
    · exact h o op hold
    · -- a new op, of which nothing is in the queue
      have hnone : s.enqueued o op = [] := by
        refine filter_key_eq_nil Launch.op ?_
        rintro x hx rfl
        obtain ⟨op', hop', -⟩ := hlock.queued _ x hx
        rw [hnew] at hop'
        cases hop'
      rw [hnone, List.nil_append]
      simp only [toCome, hfound]

/-- **Every call among the others enqueues what it enqueues alone.** -/
theorem staged_of_reaches {G : Streams → Call → Prop} (h : (machine maxRwCount).Reaches G s) :
    Locked s ∧ Staged maxRwCount s :=
  h.invariant (I := fun s => Locked s ∧ Staged maxRwCount s) ⟨locked_init, staged_init⟩
    fun _ _ _ hi _ hst => ⟨locked_step hi.1 hst, staged_step hi.1 hi.2 hst⟩

theorem enqueued_of_returned {G : Streams → Call → Prop} (h : (machine maxRwCount).Reaches G s)
    (hop : s.ops o = some op) (hp : op.phase = .returned) :
    s.enqueued o op = alone maxRwCount o op := by
  have hstaged := (staged_of_reaches h).2 o op hop
  simp only [toCome, hp, List.append_nil] at hstaged
  exact hstaged

/-- **The launches of `asyncIo` stand in the queue as they are**, in the runs in which the
lock suffices, once the call has returned. -/
theorem asyncIo_infix (h : (machine maxRwCount).Reaches LockSuffices s)
    (hop : s.ops o = some op) (hp : op.phase = .returned) :
    (asyncIo maxRwCount op.call.hip o op.request (.start .init 0)).2.launches <:+:
      s.queue op.hipStream := by
  have hcontiguous := (exclusion_of_reaches h).2.contiguous op.hipStream o
  have hreturned := enqueued_of_returned h hop hp
  unfold enqueued alone at hreturned
  rw [← hreturned]
  exact hcontiguous

end HipFile.Streams
