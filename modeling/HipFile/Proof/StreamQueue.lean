import HipFile.Lib.Contiguous
import HipFile.Model.StreamQueue
import HipFile.Proof.AsyncSubmit

/-!
# The stages of an op on its stream

The mutex of a `Stream` object keeps the stages of an op together as long as all who
submit to a HIP stream have the same object, and until a call throws.

* `Advances`: all that a step of a call can do.
* `Locked`: what holds in every run. The mutex has the call that holds it as its owner.
* `Exclusion`: what holds in the runs in which the lock suffices.
* `exclusion_of_reaches`: both hold there, whatever the interleaving.
-/

namespace HipFile.Streams

variable {maxRwCount : ℕ} {s s' : Streams} {o o' : ℕ} {op op' : SubmittedOp} {p : Phase}

/-! ## The parts of a state -/

@[simp] theorem setPhase_owner : (s.setPhase o op p).owner = s.owner := rfl
@[simp] theorem setPhase_queue : (s.setPhase o op p).queue = s.queue := rfl
@[simp] theorem setPhase_fromPtr : (s.setPhase o op p).fromPtr = s.fromPtr := rfl
@[simp] theorem setOwner_ops {m : ℕ} {w : Option ℕ} : (s.setOwner m w).ops = s.ops := rfl
@[simp] theorem setOwner_queue {m : ℕ} {w : Option ℕ} : (s.setOwner m w).queue = s.queue := rfl
@[simp] theorem enqueue_ops {h : ℕ} {x : Launch} : (s.enqueue h x).ops = s.ops := rfl
@[simp] theorem enqueue_owner {h : ℕ} {x : Launch} : (s.enqueue h x).owner = s.owner := rfl

theorem setPhase_ops_self : (s.setPhase o op p).ops o = some { op with phase := p } :=
  Function.update_self ..

theorem setPhase_ops_ne (h : o' ≠ o) : (s.setPhase o op p).ops o' = s.ops o' :=
  Function.update_of_ne h ..

theorem setOwner_self {m : ℕ} {w : Option ℕ} : (s.setOwner m w).owner m = w :=
  Function.update_self ..

theorem setOwner_ne {m m' : ℕ} {w : Option ℕ} (h : m' ≠ m) :
    (s.setOwner m w).owner m' = s.owner m' :=
  Function.update_of_ne h ..

theorem enqueue_queue_self {h : ℕ} {x : Launch} :
    (s.enqueue h x).queue h = s.queue h ++ [x] :=
  Function.update_self ..

theorem enqueue_queue_ne {h h' : ℕ} {x : Launch} (hne : h' ≠ h) :
    (s.enqueue h x).queue h' = s.queue h' :=
  Function.update_of_ne hne ..

/-- The ops of a state in which a call has moved. -/
theorem setPhase_ops_cases (h : (s.setPhase o op p).ops o' = some op') :
    (o' = o ∧ op' = { op with phase := p }) ∨ (o' ≠ o ∧ s.ops o' = some op') := by
  by_cases ho : o' = o
  · subst ho
    rw [setPhase_ops_self] at h
    exact Or.inl ⟨rfl, (Option.some.inj h).symm⟩
  · rw [setPhase_ops_ne ho] at h
    exact Or.inr ⟨ho, h⟩

theorem mem_enqueue {h h' : ℕ} {x y : Launch} :
    y ∈ (s.enqueue h x).queue h' ↔ y ∈ s.queue h' ∨ (h' = h ∧ y = x) := by
  by_cases hh : h' = h
  · subst hh
    simp [enqueue_queue_self]
  · simp [enqueue_queue_ne hh, hh]

/-! ## What a step of a call can do -/

/-- **The steps of a call.** -/
inductive Advances (maxRwCount : ℕ) (s : Streams) (o : ℕ) (op : SubmittedOp) : Streams → Prop
  | enter (hp : op.phase = .found) (ht : op.reachesTry maxRwCount = true) :
      Advances maxRwCount s o op (s.setPhase o op .inTry)
  | refuse (hp : op.phase = .found) (ht : op.reachesTry maxRwCount = false) :
      Advances maxRwCount s o op (s.setPhase o op .returned)
  | query (n : ℕ) (hp : op.phase = .inTry) (hn : op.call.hip.maxThreadsPerBlock = .ok n) :
      Advances maxRwCount s o op
        (s.setPhase o op (.locking (Fallback.pipeline (n % 2 ^ 32) op.request)))
  | queryFails (e : HipError) (hp : op.phase = .inTry)
      (hn : op.call.hip.maxThreadsPerBlock = .error e) :
      Advances maxRwCount s o op (s.setPhase o op .failed)
  | lock (l : List (LaunchSite × Stage)) (hp : op.phase = .locking l)
      (hfree : s.owner op.object.addr = none) :
      Advances maxRwCount s o op
        ((s.setOwner op.object.addr (some o)).setPhase o op (.launching l))
  | launch (q : LaunchSite × Stage) (l : List (LaunchSite × Stage))
      (hp : op.phase = .launching (q :: l)) (hq : op.call.hip.launch q.1 = .ok ()) :
      Advances maxRwCount s o op
        ((s.enqueue op.hipStream ⟨o, q.2⟩).setPhase o op (.launching l))
  | launchFails (q : LaunchSite × Stage) (l : List (LaunchSite × Stage)) (e : HipError)
      (hp : op.phase = .launching (q :: l)) (hq : op.call.hip.launch q.1 = .error e) :
      Advances maxRwCount s o op (s.setPhase o op .unwinding)
  | unlock (hp : op.phase = .launching []) :
      Advances maxRwCount s o op ((s.setOwner op.object.addr none).setPhase o op .returned)
  | unwind (hp : op.phase = .unwinding) :
      Advances maxRwCount s o op ((s.setOwner op.object.addr none).setPhase o op .failed)
  | cleanUp (hp : op.phase = .failed) (hc : op.call.hip.launch .cleanupAfterFailure = .ok ()) :
      Advances maxRwCount s o op
        ((s.enqueue op.hipStream ⟨o, .cleanup⟩).setPhase o op .returned)
  | leak (e : HipError) (hp : op.phase = .failed)
      (hc : op.call.hip.launch .cleanupAfterFailure = .error e) :
      Advances maxRwCount s o op (s.setPhase o op .returned)

/-- **A step of a call is one of these.** -/
theorem advance_cases (h : s.advance maxRwCount o = some s') :
    ∃ op, s.ops o = some op ∧ Advances maxRwCount s o op s' := by
  unfold advance at h
  cases hop : s.ops o with
  | none => simp [hop] at h
  | some op =>
    refine ⟨op, rfl, ?_⟩
    simp only [hop] at h
    cases hp : op.phase with
    | found =>
      simp only [hp, Option.some.injEq] at h
      subst h
      cases ht : op.reachesTry maxRwCount with
      | true => exact .enter hp ht
      | false => exact .refuse hp ht
    | inTry =>
      cases hn : op.call.hip.maxThreadsPerBlock with
      | ok n =>
        simp only [hp, hn, Option.some.injEq] at h
        exact h ▸ .query n hp hn
      | error e =>
        simp only [hp, hn, Option.some.injEq] at h
        exact h ▸ .queryFails e hp hn
    | locking l =>
      by_cases hfree : s.owner op.object.addr = none
      · simp only [hp, if_pos hfree, Option.some.injEq] at h
        exact h ▸ .lock l hp hfree
      · simp [hp, hfree] at h
    | launching l =>
      cases l with
      | nil =>
        simp only [hp, Option.some.injEq] at h
        exact h ▸ .unlock hp
      | cons q l =>
        cases hq : op.call.hip.launch q.1 with
        | ok u =>
          simp only [hp, hq, Option.some.injEq] at h
          exact h ▸ .launch q l hp hq
        | error e =>
          simp only [hp, hq, Option.some.injEq] at h
          exact h ▸ .launchFails q l e hp hq
    | unwinding =>
      simp only [hp, Option.some.injEq] at h
      exact h ▸ .unwind hp
    | failed =>
      cases hc : op.call.hip.launch .cleanupAfterFailure with
      | ok u =>
        simp only [hp, hc, Option.some.injEq] at h
        exact h ▸ .cleanUp hp hc
      | error e =>
        simp only [hp, hc, Option.some.injEq] at h
        exact h ▸ .leak e hp hc
    | returned => simp [hp] at h

theorem getStream_ok {queries : HipQueries} {h : ℕ} {object : StreamObject}
    (hget : s.getStream queries h = .ok (object, s')) :
    s'.ops = s.ops ∧ s'.owner = s.owner ∧ s'.queue = s.queue ∧ s'.fromPtr = s.fromPtr := by
  unfold getStream construct at hget
  cases hreg : s.fromPtr h with
  | none =>
    cases hcon : Stream.construct queries h 0 with
    | error e => simp [hreg, hcon] at hget
    | ok stream =>
      simp only [hreg, hcon, Except.ok.injEq, Prod.mk.injEq] at hget
      exact hget.2 ▸ ⟨rfl, rfl, rfl, rfl⟩
  | some object =>
    simp only [hreg, Except.ok.injEq, Prod.mk.injEq] at hget
    exact hget.2 ▸ ⟨rfl, rfl, rfl, rfl⟩

/-- **A lookup** throws and changes nothing, or adds an op with the object that it gives. -/
theorem submit_cases {call : SubmittedCall} (h : s.submit o call = some s') :
    s.ops o = none ∧ (s' = s ∨ ∃ object s₁,
      s.getStream call.queries call.hipStream = .ok (object, s₁) ∧
        s' = { s₁ with ops := Function.update s₁.ops o (some ⟨object, call, .found⟩) }) := by
  unfold submit at h
  cases hnew : s.ops o with
  | some op => simp [hnew] at h
  | none =>
    refine ⟨rfl, ?_⟩
    cases hget : s.getStream call.queries call.hipStream with
    | error e =>
      simp only [hnew, hget, Option.isSome_none, Bool.false_eq_true, if_false,
        Option.some.injEq] at h
      exact Or.inl h.symm
    | ok r =>
      obtain ⟨object, s₁⟩ := r
      simp only [hnew, hget, Option.isSome_none, Bool.false_eq_true, if_false,
        Option.some.injEq] at h
      exact Or.inr ⟨object, s₁, rfl, h.symm⟩

/-- A step that is not a step of a call takes no lock and enqueues nothing, and the only op
it may add has just looked up its stream. -/
theorem step_frame {c : Call} (hc : ∀ o, c ≠ .advance o) (h : step maxRwCount s c = some s') :
    s'.owner = s.owner ∧ s'.queue = s.queue ∧
      (∀ o op, s.ops o = some op → s'.ops o = some op) ∧
      ∀ o op, s'.ops o = some op → s.ops o = some op ∨ s.ops o = none ∧ op.phase = .found := by
  cases c with
  | registerStream queries hipStream flags =>
    simp only [step, registerStream, construct, Option.some.injEq] at h
    subst h
    split
    · exact ⟨rfl, rfl, fun _ _ hop => hop, fun _ _ hop => Or.inl hop⟩
    · cases Stream.construct queries hipStream flags with
      | error e => exact ⟨rfl, rfl, fun _ _ hop => hop, fun _ _ hop => Or.inl hop⟩
      | ok stream => exact ⟨rfl, rfl, fun _ _ hop => hop, fun _ _ hop => Or.inl hop⟩
  | deregisterStream hipStream =>
    simp only [step, deregisterStream, Option.some.injEq] at h
    subst h
    exact ⟨rfl, rfl, fun _ _ hop => hop, fun _ _ hop => Or.inl hop⟩
  | submit o call =>
    obtain ⟨hnew, rfl | ⟨object, s₁, hget, rfl⟩⟩ := submit_cases h
    · exact ⟨rfl, rfl, fun _ _ hop => hop, fun _ _ hop => Or.inl hop⟩
    · obtain ⟨hops, howner, hqueue, -⟩ := getStream_ok hget
      refine ⟨howner, hqueue, ?_, ?_⟩
      · intro o' op' hop'
        have ho : o' ≠ o := by
          rintro rfl
          rw [hnew] at hop'
          cases hop'
        simp only [Function.update_of_ne ho, hops]
        exact hop'
      · intro o' op' hop'
        by_cases ho : o' = o
        · subst ho
          simp only [Function.update_self, Option.some.injEq] at hop'
          exact Or.inr ⟨hnew, hop' ▸ rfl⟩
        · simp only [Function.update_of_ne ho, hops] at hop'
          exact Or.inl hop'
  | advance o => exact absurd rfl (hc o)

/-! ## Every run -/

/-- The lock of the `Stream` object is held. -/
def Holds (p : Phase) : Prop := (∃ l, p = .launching l) ∨ p = .unwinding

/-- The op may have enqueued something. -/
def Begun (p : Phase) : Prop := Holds p ∨ p = .failed ∨ p = .returned

/-- **What holds in every run**: a mutex is owned by the call that holds it, and what is
enqueued on a stream is of ops of that stream. -/
structure Locked (s : Streams) : Prop where
  owner : ∀ o op, s.ops o = some op → Holds op.phase → s.owner op.object.addr = some o
  queued : ∀ h, ∀ x ∈ s.queue h, ∃ op, s.ops x.op = some op ∧ op.hipStream = h ∧ Begun op.phase

theorem locked_init : Locked init where
  owner _ _ hop := by cases hop
  queued _ _ hx := by cases hx

theorem not_holds_found : ¬ Holds .found := by simp [Holds]

theorem not_holds_failed : ¬ Holds .failed := by simp [Holds]

theorem not_holds_returned : ¬ Holds .returned := by simp [Holds]

theorem not_begun_found : ¬ Begun .found := by simp [Begun, Holds]

theorem not_begun_inTry : ¬ Begun .inTry := by simp [Begun, Holds]

theorem not_begun_locking {l : List (LaunchSite × Stage)} : ¬ Begun (.locking l) := by
  simp [Begun, Holds]

/-- An op that has not begun has enqueued nothing. -/
theorem Locked.notQueued (h : Locked s) (hop : s.ops o = some op) (hb : ¬ Begun op.phase)
    {hs : ℕ} {x : Launch} (hx : x ∈ s.queue hs) : x.op ≠ o := by
  intro heq
  obtain ⟨op', hop', -, hbegun⟩ := h.queued hs x hx
  rw [heq, hop, Option.some.injEq] at hop'
  exact hb (hop' ▸ hbegun)

theorem Locked.not_hasLaunched (h : Locked s) (hop : s.ops o = some op)
    (hb : ¬ Begun op.phase) : ¬ s.HasLaunched o op := by
  rintro ⟨x, hx, heq⟩
  exact h.notQueued hop hb hx heq

/-- Two calls that hold the lock of one object are one call. -/
theorem Locked.exclusive (h : Locked s) (hop : s.ops o = some op) (hop' : s.ops o' = some op')
    (hold : Holds op.phase) (hold' : Holds op'.phase)
    (haddr : op'.object.addr = op.object.addr) : o' = o := by
  have h₁ := h.owner o op hop hold
  have h₂ := h.owner o' op' hop' hold'
  rw [haddr, h₁, Option.some.injEq] at h₂
  exact h₂.symm

/-- What is enqueued stays of ops that have begun when a call moves. -/
theorem Locked.queued_setPhase (h : Locked s) (hop : s.ops o = some op) (hops : s'.ops = s.ops)
    (hqueue : s'.queue = s.queue) (hb : Begun op.phase → Begun p) :
    ∀ hs, ∀ x ∈ (s'.setPhase o op p).queue hs, ∃ op₁, (s'.setPhase o op p).ops x.op = some op₁ ∧
      op₁.hipStream = hs ∧ Begun op₁.phase := by
  intro hs x hx
  rw [setPhase_queue, hqueue] at hx
  obtain ⟨op₁, hop₁, hstream, hbegun⟩ := h.queued hs x hx
  by_cases ho : x.op = o
  · rw [ho, hop, Option.some.injEq] at hop₁
    subst hop₁
    exact ⟨{ op with phase := p }, by rw [ho, setPhase_ops_self], hstream, hb hbegun⟩
  · exact ⟨op₁, by rw [setPhase_ops_ne ho, hops]; exact hop₁, hstream, hbegun⟩

/-- A call moves and leaves the mutexes. -/
theorem Locked.setPhase (h : Locked s) (hop : s.ops o = some op)
    (hold : Holds p → Holds op.phase) (hb : Begun op.phase → Begun p) :
    Locked (s.setPhase o op p) := by
  refine ⟨?_, h.queued_setPhase hop rfl rfl hb⟩
  intro o' op' hop' hold'
  rcases setPhase_ops_cases hop' with ⟨rfl, rfl⟩ | ⟨-, hop''⟩
  · exact h.owner o' op hop (hold hold')
  · exact h.owner o' op' hop'' hold'

/-- A call that has begun enqueues a stage. -/
theorem Locked.enqueue (h : Locked s) (hop : s.ops o = some op) (hb : Begun op.phase)
    (stage : Stage) : Locked (s.enqueue op.hipStream ⟨o, stage⟩) := by
  refine ⟨h.owner, ?_⟩
  intro hs x hx
  rcases mem_enqueue.1 hx with hx | ⟨rfl, rfl⟩
  · exact h.queued hs x hx
  · exact ⟨op, hop, rfl, hb⟩

/-- The lock is taken. -/
theorem Locked.lock (h : Locked s) (hop : s.ops o = some op)
    (hfree : s.owner op.object.addr = none) (hb : Begun p) :
    Locked ((s.setOwner op.object.addr (some o)).setPhase o op p) := by
  refine ⟨?_, h.queued_setPhase hop rfl rfl fun _ => hb⟩
  intro o' op' hop' hold'
  rcases setPhase_ops_cases hop' with ⟨rfl, rfl⟩ | ⟨-, hop''⟩
  · exact setOwner_self
  · have howner := h.owner o' op' hop'' hold'
    have hne : op'.object.addr ≠ op.object.addr := by
      intro heq
      rw [heq, hfree] at howner
      cases howner
    rw [setPhase_owner, setOwner_ne hne]
    exact howner

/-- The lock is released. -/
theorem Locked.unlock (h : Locked s) (hop : s.ops o = some op) (hold : Holds op.phase)
    (hp : ¬ Holds p) (hb : Begun p) :
    Locked ((s.setOwner op.object.addr none).setPhase o op p) := by
  refine ⟨?_, h.queued_setPhase hop rfl rfl fun _ => hb⟩
  intro o' op' hop' hold'
  rcases setPhase_ops_cases hop' with ⟨rfl, rfl⟩ | ⟨hne, hop''⟩
  · exact absurd hold' hp
  · have haddr : op'.object.addr ≠ op.object.addr := fun heq =>
      hne (h.exclusive hop hop'' hold hold' heq)
    rw [setPhase_owner, setOwner_ne haddr]
    exact h.owner o' op' hop'' hold'

/-- A step of a call keeps `Locked`. -/
theorem Advances.locked (hop : s.ops o = some op) (h : Locked s)
    (hadv : Advances maxRwCount s o op s') : Locked s' := by
  cases hadv with
  | enter hp ht =>
    exact h.setPhase hop (by simp [Holds]) (fun hb => absurd (hp ▸ hb) not_begun_found)
  | refuse hp ht =>
    exact h.setPhase hop (by simp [Holds]) (fun hb => absurd (hp ▸ hb) not_begun_found)
  | query n hp hn =>
    exact h.setPhase hop (by simp [Holds]) (fun hb => absurd (hp ▸ hb) not_begun_inTry)
  | queryFails e hp hn =>
    exact h.setPhase hop (by simp [Holds]) (fun hb => absurd (hp ▸ hb) not_begun_inTry)
  | lock l hp hfree =>
    exact h.lock hop hfree (Or.inl (Or.inl ⟨l, rfl⟩))
  | launch q l hp hq =>
    have hold : Holds op.phase := Or.inl ⟨_, hp⟩
    have hin := h.enqueue hop (Or.inl hold) q.2
    exact hin.setPhase hop (fun _ => hold) (fun _ => Or.inl (Or.inl ⟨l, rfl⟩))
  | launchFails q l e hp hq =>
    exact h.setPhase hop (fun _ => Or.inl ⟨_, hp⟩) (fun _ => Or.inl (Or.inr rfl))
  | unlock hp =>
    exact h.unlock hop (Or.inl ⟨_, hp⟩) not_holds_returned (Or.inr (Or.inr rfl))
  | unwind hp =>
    exact h.unlock hop (Or.inr hp) not_holds_failed (Or.inr (Or.inl rfl))
  | cleanUp hp hc =>
    have hin := h.enqueue hop (Or.inr (Or.inl hp)) .cleanup
    exact hin.setPhase hop (fun hold => absurd hold not_holds_returned)
      (fun _ => Or.inr (Or.inr rfl))
  | leak e hp hc =>
    exact h.setPhase hop (fun hold => absurd hold not_holds_returned)
      (fun _ => Or.inr (Or.inr rfl))

/-- **A step keeps `Locked`.** -/
theorem locked_step {c : Call} (h : Locked s) (hst : step maxRwCount s c = some s') :
    Locked s' := by
  by_cases hc : ∃ o, c = .advance o
  · obtain ⟨o, rfl⟩ := hc
    obtain ⟨op, hop, hadv⟩ := advance_cases hst
    exact hadv.locked hop h
  · have hc' : ∀ o, c ≠ .advance o := fun o heq => hc ⟨o, heq⟩
    obtain ⟨howner, hqueue, hkept, hops⟩ := step_frame hc' hst
    constructor
    · intro o op hop hold
      rcases hops o op hop with hold' | ⟨-, hfound⟩
      · rw [howner]
        exact h.owner o op hold' hold
      · exact absurd (hfound ▸ hold) not_holds_found
    · intro hs x hx
      rw [hqueue] at hx
      obtain ⟨op, hop, hrest⟩ := h.queued hs x hx
      exact ⟨op, hkept _ op hop, hrest⟩

/-! ## The runs in which the lock suffices -/

/-- The op has the lock and more to launch, or it has enqueued something and its `catch`
clause is still to be run. -/
def Open (s : Streams) (o : ℕ) (op : SubmittedOp) : Prop :=
  op.phase.Launching ∨ (op.phase.Thrown ∧ s.HasLaunched o op)

/-- The op has enqueued something and may have more to enqueue. -/
def Midway (s : Streams) (o : ℕ) (op : SubmittedOp) : Prop :=
  (op.phase.Launching ∨ op.phase.Thrown) ∧ s.HasLaunched o op

theorem Midway.open (h : s.Midway o op) : s.Open o op := by
  rcases h.1 with hl | ht
  · exact Or.inl hl
  · exact Or.inr ⟨ht, h.2⟩

/-- **What holds while the lock suffices**: one op of a HIP stream is open at a time, the
last stage on the stream is its own, and the stages of each op are side by side. -/
structure Exclusion (s : Streams) : Prop where
  alone : ∀ o op o' op', s.ops o = some op → s.ops o' = some op' →
    op'.hipStream = op.hipStream → s.Open o op → s.Open o' op' → o' = o
  last : ∀ o op, s.ops o = some op → s.Midway o op →
    ∃ x ∈ (s.queue op.hipStream).getLast?, x.op = o
  contiguous : ∀ h, Contiguous Launch.op (s.queue h)

theorem exclusion_init : Exclusion init where
  alone _ _ _ _ hop := by cases hop
  last _ _ hop := by cases hop
  contiguous _ := contiguous_nil

theorem hasLaunched_congr (h : s'.queue = s.queue) :
    s'.HasLaunched o op ↔ s.HasLaunched o op := by
  unfold HasLaunched
  rw [h]

theorem open_congr (h : s'.queue = s.queue) : s'.Open o op ↔ s.Open o op := by
  unfold Open
  rw [hasLaunched_congr h]

theorem midway_congr (h : s'.queue = s.queue) : s'.Midway o op ↔ s.Midway o op := by
  unfold Midway
  rw [hasLaunched_congr h]

/-- A step that enqueues nothing and opens nothing. -/
theorem Exclusion.of_fewer (h : Exclusion s) (hqueue : s'.queue = s.queue)
    (hopen : ∀ o op', s'.ops o = some op' → s'.Open o op' →
      ∃ op, s.ops o = some op ∧ op.hipStream = op'.hipStream ∧ s.Open o op)
    (hmid : ∀ o op', s'.ops o = some op' → s'.Midway o op' →
      ∃ op, s.ops o = some op ∧ op.hipStream = op'.hipStream ∧ s.Midway o op) :
    Exclusion s' := by
  constructor
  · intro o op o' op' hop hop' hstream ho ho'
    obtain ⟨op₁, hop₁, hs₁, ho₁⟩ := hopen o op hop ho
    obtain ⟨op₂, hop₂, hs₂, ho₂⟩ := hopen o' op' hop' ho'
    exact h.alone o op₁ o' op₂ hop₁ hop₂ (by rw [hs₁, hs₂, hstream]) ho₁ ho₂
  · intro o op hop hm
    obtain ⟨op₁, hop₁, hs₁, hm₁⟩ := hmid o op hop hm
    rw [hqueue, ← hs₁]
    exact h.last o op₁ hop₁ hm₁
  · intro hs
    rw [hqueue]
    exact h.contiguous hs

/-- A call moves without a launch, and opens nothing. -/
theorem Exclusion.quiet (h : Exclusion s) (hop : s.ops o = some op) (hops : s'.ops = s.ops)
    (hqueue : s'.queue = s.queue) (hl : p.Launching → op.phase.Launching)
    (ht : p.Thrown → s.HasLaunched o op → op.phase.Launching ∨ op.phase.Thrown) :
    Exclusion (s'.setPhase o op p) := by
  have hq : (s'.setPhase o op p).queue = s.queue := hqueue
  have hback : s.HasLaunched o op → p.Launching ∨ p.Thrown → s.Midway o op := by
    intro hlaunched hp
    refine ⟨?_, hlaunched⟩
    rcases hp with hp | hp
    · exact Or.inl (hl hp)
    · exact ht hp hlaunched
  refine h.of_fewer hq ?_ ?_
  · intro o' op' hop' hopen
    rw [open_congr hq] at hopen
    rcases setPhase_ops_cases hop' with ⟨rfl, rfl⟩ | ⟨-, hop''⟩
    · refine ⟨op, hop, rfl, ?_⟩
      rcases hopen with hp | ⟨hp, hlaunched⟩
      · exact Or.inl (hl hp)
      · exact (hback hlaunched (Or.inr hp)).open
    · exact ⟨op', by rw [← hops]; exact hop'', rfl, hopen⟩
  · intro o' op' hop' hmid
    rw [midway_congr hq] at hmid
    rcases setPhase_ops_cases hop' with ⟨rfl, rfl⟩ | ⟨-, hop''⟩
    · exact ⟨op, hop, rfl, hback hmid.2 hmid.1⟩
    · exact ⟨op', by rw [← hops]; exact hop'', rfl, hmid⟩

/-- One op is open at a time after a call has moved, if the move opens no other op and the
call, if it is open, has no other open op beside it. -/
theorem Exclusion.alone_setPhase (h : Exclusion s) (hops : s'.ops = s.ops)
    (hother : ∀ o' op', o' ≠ o → (s'.setPhase o op p).Open o' op' → s.Open o' op')
    (hself : (s'.setPhase o op p).Open o { op with phase := p } → ∀ o' op', o' ≠ o →
      s.ops o' = some op' → op'.hipStream = op.hipStream → ¬ s.Open o' op') :
    ∀ o₁ op₁ o₂ op₂, (s'.setPhase o op p).ops o₁ = some op₁ →
      (s'.setPhase o op p).ops o₂ = some op₂ → op₂.hipStream = op₁.hipStream →
        (s'.setPhase o op p).Open o₁ op₁ → (s'.setPhase o op p).Open o₂ op₂ → o₂ = o₁ := by
  intro o₁ op₁ o₂ op₂ hop₁ hop₂ hstream hopen₁ hopen₂
  rcases setPhase_ops_cases hop₁ with ⟨rfl, rfl⟩ | ⟨hne₁, hop₁'⟩
  · rcases setPhase_ops_cases hop₂ with ⟨rfl, -⟩ | ⟨hne₂, hop₂'⟩
    · rfl
    · rw [hops] at hop₂'
      exact absurd (hother o₂ op₂ hne₂ hopen₂) (hself hopen₁ o₂ op₂ hne₂ hop₂' hstream)
  · rw [hops] at hop₁'
    rcases setPhase_ops_cases hop₂ with ⟨rfl, rfl⟩ | ⟨hne₂, hop₂'⟩
    · exact absurd (hother o₁ op₁ hne₁ hopen₁) (hself hopen₂ o₁ op₁ hne₁ hop₁' hstream.symm)
    · rw [hops] at hop₂'
      exact h.alone o₁ op₁ o₂ op₂ hop₁' hop₂' hstream (hother o₁ op₁ hne₁ hopen₁)
        (hother o₂ op₂ hne₂ hopen₂)

/-- The lock is taken, where `MayLock` holds: nothing else is open on the HIP stream. -/
theorem Exclusion.lock (h : Exclusion s) (hlock : Locked s) (hop : s.ops o = some op)
    {l : List (LaunchSite × Stage)} (hp : op.phase = .locking l)
    (hfree : s.owner op.object.addr = none) (hmay : s.MayLock o op) :
    Exclusion ((s.setOwner op.object.addr (some o)).setPhase o op (.launching l)) := by
  set s₁ := (s.setOwner op.object.addr (some o)).setPhase o op (.launching l) with hs₁
  have hq : s₁.queue = s.queue := rfl
  have hnone : ¬ s.HasLaunched o op :=
    hlock.not_hasLaunched hop (by rw [hp]; exact not_begun_locking)
  have hclosed : ∀ o' op', o' ≠ o → s.ops o' = some op' → op'.hipStream = op.hipStream →
      ¬ s.Open o' op' := by
    intro o' op' hne hop' hstream hopen
    obtain ⟨hsame, hthrown⟩ := hmay o' op' hne hop' hstream
    rcases hopen with hl | hopen
    · -- it holds the lock of the same object, which is free
      obtain ⟨q, l', hl'⟩ := hl
      have howner := hlock.owner o' op' hop' (Or.inl ⟨_, hl'⟩)
      rw [hsame ⟨q, l', hl'⟩, hfree] at howner
      cases howner
    · exact hthrown hopen
  constructor
  · exact h.alone_setPhase rfl (fun _ _ _ hopen => (open_congr hq).1 hopen) fun _ => hclosed
  · intro o₁ op₁ hop₁ hmid
    rw [midway_congr hq] at hmid
    rcases setPhase_ops_cases hop₁ with ⟨rfl, rfl⟩ | ⟨-, hop₁'⟩
    · exact absurd hmid.2 hnone
    · exact h.last o₁ op₁ hop₁' hmid
  · exact h.contiguous

/-- Another op has enqueued what it had. -/
theorem hasLaunched_enqueue {h : ℕ} {stage : Stage} (hne : o' ≠ o) :
    (s.enqueue h ⟨o, stage⟩).HasLaunched o' op' ↔ s.HasLaunched o' op' := by
  unfold HasLaunched
  constructor
  · rintro ⟨y, hy, rfl⟩
    rcases mem_enqueue.1 hy with hy | ⟨-, rfl⟩
    · exact ⟨y, hy, rfl⟩
    · exact absurd rfl hne
  · rintro ⟨y, hy, rfl⟩
    exact ⟨y, mem_enqueue.2 (Or.inl hy), rfl⟩

/-- **A stage is enqueued**, and no other op of the HIP stream is midway. -/
theorem Exclusion.append (h : Exclusion s) (hop : s.ops o = some op)
    (hphase : op.phase.Launching ∨ op.phase.Thrown) (hp : p.Launching → op.phase.Launching)
    (ht : ¬ p.Thrown) (stage : Stage)
    (hothers : ∀ o' op', o' ≠ o → s.ops o' = some op' → op'.hipStream = op.hipStream →
      ¬ s.Midway o' op') :
    Exclusion ((s.enqueue op.hipStream ⟨o, stage⟩).setPhase o op p) := by
  set x : Launch := ⟨o, stage⟩ with hx
  set s₁ := (s.enqueue op.hipStream x).setPhase o op p with hs₁
  have hlaunched : ∀ o' op', o' ≠ o → s₁.HasLaunched o' op' → s.HasLaunched o' op' :=
    fun _ _ hne => (hasLaunched_enqueue hne).1
  constructor
  · refine h.alone_setPhase rfl ?_ ?_
    · rintro o' op' hne (hl | ⟨hthrown, hl⟩)
      · exact Or.inl hl
      · exact Or.inr ⟨hthrown, hlaunched o' op' hne hl⟩
    · rintro (hl | ⟨hthrown, -⟩) o' op' hne hop' hstream hopen
      · exact hne (h.alone o op o' op' hop hop' hstream (Or.inl (hp hl)) hopen)
      · exact ht hthrown
  · intro o₁ op₁ hop₁ hmid
    rcases setPhase_ops_cases hop₁ with ⟨rfl, rfl⟩ | ⟨hne₁, hop₁'⟩
    · have hlast : x ∈ (s₁.queue op.hipStream).getLast? := by
        rw [hs₁, setPhase_queue, enqueue_queue_self, List.getLast?_concat]
        rfl
      exact ⟨x, hlast, rfl⟩
    · have hmid' : s.Midway o₁ op₁ := ⟨hmid.1, hlaunched o₁ op₁ hne₁ hmid.2⟩
      have hstream : op₁.hipStream ≠ op.hipStream := fun heq =>
        hothers o₁ op₁ hne₁ hop₁' heq hmid'
      rw [hs₁, setPhase_queue, enqueue_queue_ne hstream]
      exact h.last o₁ op₁ hop₁' hmid'
  · intro hs
    rw [hs₁, setPhase_queue]
    by_cases hh : hs = op.hipStream
    · subst hh
      rw [enqueue_queue_self]
      by_cases hown : s.HasLaunched o op
      · obtain ⟨y, hy, hyo⟩ := h.last o op hop ⟨hphase, hown⟩
        exact (h.contiguous _).concat_last hy hyo
      · exact (h.contiguous _).concat_fresh fun y hy hyo => hown ⟨y, hy, hyo⟩
    · rw [enqueue_queue_ne hh]
      exact h.contiguous hs

/-- A step of a call keeps `Exclusion`, where the lock suffices. -/
theorem Advances.exclusion (hop : s.ops o = some op) (hlock : Locked s) (h : Exclusion s)
    (hguard : s.LockSuffices (.advance o)) (hadv : Advances maxRwCount s o op s') :
    Exclusion s' := by
  obtain ⟨hmayLock, hmayCleanUp⟩ := hguard op hop
  cases hadv with
  | enter hp ht => exact h.quiet hop rfl rfl (by simp [Phase.Launching]) (by simp [Phase.Thrown])
  | refuse hp ht => exact h.quiet hop rfl rfl (by simp [Phase.Launching]) (by simp [Phase.Thrown])
  | query n hp hn => exact h.quiet hop rfl rfl (by simp [Phase.Launching]) (by simp [Phase.Thrown])
  | queryFails e hp hn =>
    have hnone : ¬ s.HasLaunched o op :=
      hlock.not_hasLaunched hop (by rw [hp]; exact not_begun_inTry)
    exact h.quiet hop rfl rfl (by simp [Phase.Launching]) (fun _ hl => absurd hl hnone)
  | lock l hp hfree => exact h.lock hlock hop hp hfree (hmayLock l hp)
  | launch q l hp hq =>
    have hl : op.phase.Launching := ⟨q, l, hp⟩
    refine h.append hop (Or.inl hl) (fun _ => hl) (by simp [Phase.Thrown]) q.2 ?_
    intro o' op' hne hop' hstream hmid
    exact hne (h.alone o op o' op' hop hop' hstream (Or.inl hl) hmid.open)
  | launchFails q l e hp hq =>
    have hl : op.phase.Launching := ⟨q, l, hp⟩
    exact h.quiet hop rfl rfl (fun _ => hl) (fun _ _ => Or.inl hl)
  | unlock hp => exact h.quiet hop rfl rfl (by simp [Phase.Launching]) (by simp [Phase.Thrown])
  | unwind hp =>
    exact h.quiet hop rfl rfl (by simp [Phase.Launching]) (fun _ _ => Or.inr (Or.inl hp))
  | cleanUp hp hc =>
    exact h.append hop (Or.inr (Or.inr hp)) (by simp [Phase.Launching]) (by simp [Phase.Thrown])
      .cleanup (hmayCleanUp hp)
  | leak e hp hc => exact h.quiet hop rfl rfl (by simp [Phase.Launching]) (by simp [Phase.Thrown])

/-- **A step keeps `Exclusion`**, where the lock suffices. -/
theorem exclusion_step {c : Call} (hlock : Locked s) (h : Exclusion s) (hguard : s.LockSuffices c)
    (hst : step maxRwCount s c = some s') : Exclusion s' := by
  by_cases hc : ∃ o, c = .advance o
  · obtain ⟨o, rfl⟩ := hc
    obtain ⟨op, hop, hadv⟩ := advance_cases hst
    exact hadv.exclusion hop hlock h hguard
  · have hc' : ∀ o, c ≠ .advance o := fun o heq => hc ⟨o, heq⟩
    obtain ⟨-, hqueue, -, hops⟩ := step_frame hc' hst
    refine h.of_fewer hqueue ?_ ?_
    · intro o op hop hopen
      rw [open_congr hqueue] at hopen
      rcases hops o op hop with hold | ⟨-, hfound⟩
      · exact ⟨op, hold, rfl, hopen⟩
      · simp [Open, Phase.Launching, Phase.Thrown, hfound] at hopen
    · intro o op hop hmid
      rw [midway_congr hqueue] at hmid
      rcases hops o op hop with hold | ⟨-, hfound⟩
      · exact ⟨op, hold, rfl, hmid⟩
      · simp [Midway, Phase.Launching, Phase.Thrown, hfound] at hmid

/-- Both hold in every state of the runs in which the lock suffices. -/
theorem exclusion_of_reaches (h : (machine maxRwCount).Reaches LockSuffices s) :
    Locked s ∧ Exclusion s :=
  h.invariant (I := fun s => Locked s ∧ Exclusion s) ⟨locked_init, exclusion_init⟩
    fun _ _ _ hi hg hst => ⟨locked_step hi.1 hst, exclusion_step hi.1 hi.2 hg hst⟩

end HipFile.Streams
