import HipFile.Proof.ConcurrentStages

/-!
# Streams that do not see each other

* `Sound`: what holds of a stream wherever it stands.
* `Sound.step`: a step of a stream keeps it, and changes what one of its requests may change.
* `Sound.own`: what a stream does depends on what it sees.
* `Streams.Apart`: requests on different streams do not overlap.
* `separate`: streams whose requests do not overlap do not see each other.
-/

namespace HipFile

open Bytes Fallback

variable {maxRwCount hipStream : ℕ} {rt : Runtime} {st : Streams} {d : DeviceState}
  {env : StreamEnv} {req : AsyncRequest} {client : Params} {u u' r : SharedState}
  {t t' : StreamThread} {s s' : StreamState} {stage : Stage} {stages : List Stage} {a : Activity}
  {a' : Option Activity}

/-! ## An op and its stages -/

/-- **What holds of an op** whose stages are still to be executed: it is as constructed and its
parameters are bound next, or it has its parameters. -/
inductive OpSound (maxRwCount : ℕ) (req : AsyncRequest) (client : Params) (op : AsyncOpFallback) :
    List Stage → Prop
  | unbound {devPtr : ℕ} {stages : List Stage} (hptr : devPtr ≠ 0)
      (hop : op = AsyncOpFallback.construct maxRwCount req devPtr)
      (hfix : req.stream.allFixed = false) (hrest : .bindParams ∉ stages) :
      OpSound maxRwCount req client op (.bindParams :: stages)
  | bound {stages : List Stage}
      (hsettled : Settled maxRwCount req (req.bound maxRwCount client) op)
      (hrest : .bindParams ∉ stages) : OpSound maxRwCount req client op stages

theorem doing_idle (params : Params) (op : AsyncOpFallback) (stage : Stage) :
    Doing params op stage .idle := by
  cases stage <;> trivial

/-- An op whose next stage works on the region has its parameters. -/
theorem OpSound.settled (h : OpSound maxRwCount req client s.op (stage :: stages))
    (hbind : stage ≠ .bindParams) :
    Settled maxRwCount req (req.bound maxRwCount client) s.op := by
  cases h with
  | unbound => exact absurd rfl hbind
  | bound hsettled _ => exact hsettled

/-- The stages that are left of an op. -/
def leftOf (stage : Stage) (stages : List Stage) : Option Activity → List Stage
  | some _ => stage :: stages
  | none => stages

/-- **A stage goes on.** -/
theorem OpSound.next (hM : env.maxRwCount = maxRwCount)
    (h : OpSound maxRwCount req env.client s.op (stage :: stages))
    (hd : Doing (req.bound maxRwCount env.client) s.op stage a)
    (hn : stage.next env a s = some (s', a')) :
    OpSound maxRwCount req env.client s'.op (leftOf stage stages a') ∧
      Left (req.bound maxRwCount env.client) s'.op stage a' ∧
      Within maxRwCount req env.client s s' := by
  cases h with
  | unbound hptr hop hfix hrest =>
    cases hn
    obtain ⟨hsettled, hwithin⟩ := bindParams_settled hM hfix hptr hop
    exact ⟨.bound hsettled hrest, trivial, hwithin⟩
  | bound hsettled hrest =>
    have hbind : stage ≠ .bindParams := fun heq => hrest (heq ▸ List.mem_cons_self)
    obtain ⟨hsettled', hleft, hwithin⟩ := next_settled hsettled hd hbind hn
    refine ⟨.bound hsettled' ?_, hleft, hwithin⟩
    cases a' with
    | some b => exact hrest
    | none => exact fun hmem => hrest (List.mem_cons_of_mem _ hmem)

/-! ## The launches of a stream -/

/-- The stages of an op among launches. -/
def stagesOf (l : List Launch) (o : ℕ) : List Stage :=
  (l.filter fun x => x.op = o).map Launch.stage

theorem stagesOf_cons_self (x : Launch) (l : List Launch) :
    stagesOf (x :: l) x.op = x.stage :: stagesOf l x.op := by
  unfold stagesOf
  rw [List.filter_cons_of_pos (by simp), List.map_cons]

theorem stagesOf_cons_ne {x : Launch} {o : ℕ} (h : x.op ≠ o) (l : List Launch) :
    stagesOf (x :: l) o = stagesOf l o := by
  unfold stagesOf
  rw [List.filter_cons_of_neg (by simpa using h)]

/-- **What holds of a stream wherever it stands.** -/
structure Sound (maxRwCount : ℕ) (st : Streams) (rt : Runtime) (hipStream : ℕ) (t : StreamThread) :
    Prop where
  queued : ∀ x ∈ t.queue, x ∈ st.queue hipStream
  op : ∀ x ∈ t.queue, ∃ req m, st.requests x.op = some req ∧ t.ops x.op = some m ∧
    OpSound maxRwCount req (rt.env x.op).client m.op (stagesOf t.queue x.op)
  activity : ∀ x xs, t.queue = x :: xs → ∀ req m, st.requests x.op = some req →
    t.ops x.op = some m →
    Doing (req.bound maxRwCount (rt.env x.op).client) m.op x.stage t.activity

/-- What is left of the launches. -/
def launchesLeft (x : Launch) (xs : List Launch) : Option Activity → List Launch
  | some _ => x :: xs
  | none => xs

theorem mem_of_mem_launchesLeft {x y : Launch} {xs : List Launch}
    (h : y ∈ launchesLeft x xs a') : y ∈ x :: xs := by
  cases a' with
  | some b => exact h
  | none => exact List.mem_cons_of_mem x h

theorem stagesOf_launchesLeft_self (x : Launch) (xs : List Launch) (a' : Option Activity) :
    stagesOf (launchesLeft x xs a') x.op = leftOf x.stage (stagesOf xs x.op) a' := by
  cases a' with
  | some b => exact stagesOf_cons_self x xs
  | none => rfl

theorem stagesOf_launchesLeft_ne {x : Launch} {o : ℕ} (h : x.op ≠ o) (xs : List Launch)
    (a' : Option Activity) : stagesOf (launchesLeft x xs a') o = stagesOf (x :: xs) o := by
  cases a' with
  | some b => rfl
  | none => exact (stagesOf_cons_ne h xs).symm

/-- **What a step of a stream is.** -/
theorem thread_step_cases (h : t.step rt u = some (u', t')) : ∃ x xs m s' a',
    t.queue = x :: xs ∧ t.ops x.op = some m ∧
    x.stage.next (rt.env x.op) t.activity ((t.device u).streamState (rt.inode x.op) m) =
      some (s', a') ∧
    u' = ((t.device u).put (rt.inode x.op) x.op s').shared ∧
    t' = ((t.device u).put (rt.inode x.op) x.op s').thread (launchesLeft x xs a')
      (a'.getD .idle) := by
  unfold StreamThread.step at h
  cases hqueue : t.queue with
  | nil =>
    rw [hqueue] at h
    cases h
  | cons x xs =>
    rw [hqueue] at h
    simp only at h
    cases hm : t.ops x.op with
    | none =>
      rw [hm] at h
      cases h
    | some m =>
      rw [hm] at h
      simp only at h
      obtain ⟨⟨s', a'⟩, hnext, hr⟩ := Option.map_eq_some_iff.1 h
      refine ⟨x, xs, m, s', a', rfl, hm, hnext, ?_⟩
      cases a' with
      | some b =>
        cases hr
        exact ⟨rfl, rfl⟩
      | none =>
        cases hr
        exact ⟨rfl, rfl⟩

/-- Only what a request may change has changed of what is shared. -/
structure Changed (maxRwCount : ℕ) (req : AsyncRequest) (client : Params) (inode : ℕ)
    (u u' : SharedState) : Prop where
  dev : ∀ i, ¬ req.ChangesDev maxRwCount client i → u'.memory.dev i = u.memory.dev i
  data : ∀ k i, (k = inode → ¬ req.ChangesFile maxRwCount client i) →
    (u'.memory.files k).data i = (u.memory.files k).data i
  monitor : u'.monitor.submittedOps = u.monitor.submittedOps

theorem Within.changed {o inode : ℕ} {m : OpMemory}
    (h : Within maxRwCount req client (d.streamState inode m) s') :
    Changed maxRwCount req client inode d.shared (d.put inode o s').shared := by
  refine ⟨h.dev, fun k i hi => ?_, h.monitor⟩
  by_cases hk : k = inode
  · subst hk
    have hself : (d.put k o s').shared.memory.files k = s'.world.file := Function.update_self ..
    rw [hself]
    exact h.data i (hi rfl)
  · have hother : (d.put inode o s').shared.memory.files k = d.memory.files k :=
      Function.update_of_ne hk ..
    rw [hother]
    rfl

/-- **A step of a stream** keeps what holds of it, and changes what one of its requests may
change. -/
theorem Sound.step (hM : ∀ o, (rt.env o).maxRwCount = maxRwCount)
    (hs : Sound maxRwCount st rt hipStream t) (h : t.step rt u = some (u', t')) :
    Sound maxRwCount st rt hipStream t' ∧ ∃ x ∈ st.queue hipStream, ∃ req,
      st.requests x.op = some req ∧
      Changed maxRwCount req (rt.env x.op).client (rt.inode x.op) u u' := by
  obtain ⟨x, xs, m, s', a', hqueue, hm, hnext, rfl, rfl⟩ := thread_step_cases h
  have hx : x ∈ t.queue := by
    rw [hqueue]
    exact List.mem_cons_self
  obtain ⟨req, m', hreq, hm', hop⟩ := hs.op x hx
  cases hm.symm.trans hm'
  rw [hqueue, stagesOf_cons_self] at hop
  have hdoing := hs.activity x xs hqueue req m hreq hm
  obtain ⟨hop', hleft, hwithin⟩ := OpSound.next
    (s := (t.device u).streamState (rt.inode x.op) m) (hM x.op) hop hdoing hnext
  have hchanged : Changed maxRwCount req (rt.env x.op).client (rt.inode x.op) u
      ((t.device u).put (rt.inode x.op) x.op s').shared := hwithin.changed
  -- the op of the stage has moved, and no other has
  have hself : ((t.device u).put (rt.inode x.op) x.op s').ops x.op =
      some ⟨s'.op, s'.bounce, s'.bytesTransferred, s'.bounceAccesses, s'.gpuAccesses⟩ :=
    put_ops_self (rt.inode x.op)
  have hsub : ∀ y ∈ launchesLeft x xs a', y ∈ t.queue := by
    intro y hy
    rw [hqueue]
    exact mem_of_mem_launchesLeft hy
  refine ⟨⟨fun y hy => hs.queued y (hsub y hy), ?_, ?_⟩, x, hs.queued x hx, req, hreq, hchanged⟩
  · intro y hy
    by_cases hyx : y.op = x.op
    · refine ⟨req, ⟨s'.op, s'.bounce, s'.bytesTransferred, s'.bounceAccesses, s'.gpuAccesses⟩, ?_⟩
      have hstages := stagesOf_launchesLeft_self x xs a'
      rw [hyx]
      exact ⟨hreq, hself, hstages ▸ hop'⟩
    · obtain ⟨reqy, my, hreqy, hmy, hopy⟩ := hs.op y (hsub y hy)
      have hstages := stagesOf_launchesLeft_ne (Ne.symm hyx) xs a'
      rw [hqueue] at hopy
      exact ⟨reqy, my, hreqy, (put_ops_ne (rt.inode x.op) hyx).trans hmy, hstages ▸ hopy⟩
  · intro y ys hys reqy my hreqy hmy
    cases a' with
    | none => exact doing_idle _ _ _
    | some b =>
      obtain ⟨rfl, rfl⟩ := List.cons.inj hys
      cases hreq.symm.trans hreqy
      cases hself.symm.trans hmy
      exact hleft

/-! ## What a stream sees -/

/-- A device byte that a request on the stream reads or writes. -/
def UsesDev (maxRwCount : ℕ) (st : Streams) (rt : Runtime) (hipStream i : ℕ) : Prop :=
  ∃ x ∈ st.queue hipStream, ∃ req, st.requests x.op = some req ∧
    (req.deviceSpan maxRwCount (rt.env x.op).client).Covers i

/-- A byte of a file that a request on the stream reads or writes. -/
def UsesFile (maxRwCount : ℕ) (st : Streams) (rt : Runtime) (hipStream k i : ℕ) : Prop :=
  ∃ x ∈ st.queue hipStream, ∃ req, st.requests x.op = some req ∧ k = rt.inode x.op ∧
    (req.fileSpan maxRwCount (rt.env x.op).client).Covers i

/-- **The same for a stream.** -/
structure SameView (maxRwCount : ℕ) (st : Streams) (rt : Runtime) (hipStream : ℕ)
    (u r : SharedState) : Prop where
  dev : ∀ i, UsesDev maxRwCount st rt hipStream i → r.memory.dev i = u.memory.dev i
  data : ∀ k i, UsesFile maxRwCount st rt hipStream k i →
    (r.memory.files k).data i = (u.memory.files k).data i
  monitor : r.monitor.submittedOps = u.monitor.submittedOps

theorem sameView_equivalence (hipStream : ℕ) :
    Equivalence (SameView maxRwCount st rt hipStream) where
  refl _ := ⟨fun _ _ => rfl, fun _ _ _ => rfl, rfl⟩
  symm h := ⟨fun i hi => (h.dev i hi).symm, fun k i hi => (h.data k i hi).symm, h.monitor.symm⟩
  trans h h' := ⟨fun i hi => (h'.dev i hi).trans (h.dev i hi),
    fun k i hi => (h'.data k i hi).trans (h.data k i hi), h'.monitor.trans h.monitor⟩

/-- **What a stream does depends on what it sees.** -/
theorem Sound.own (hs : Sound maxRwCount st rt hipStream t)
    (hview : SameView maxRwCount st rt hipStream u r) (h : t.step rt u = some (u', t')) :
    ∃ r', t.step rt r = some (r', t') ∧ SameView maxRwCount st rt hipStream u' r' := by
  obtain ⟨x, xs, m, s', a', hqueue, hm, hnext, rfl, rfl⟩ := thread_step_cases h
  have hx : x ∈ t.queue := by
    rw [hqueue]
    exact List.mem_cons_self
  obtain ⟨req, m', hreq, hm', hop⟩ := hs.op x hx
  cases hm.symm.trans hm'
  rw [hqueue, stagesOf_cons_self] at hop
  have hdoing := hs.activity x xs hqueue req m hreq hm
  have hxq := hs.queued x hx
  have halike : Alike (UsesDev maxRwCount st rt hipStream)
      (UsesFile maxRwCount st rt hipStream (rt.inode x.op))
      ((t.device u).streamState (rt.inode x.op) m) ((t.device r).streamState (rt.inode x.op) m) :=
    .mk _ _ ⟨rfl, rfl, hview.dev, hview.data (rt.inode x.op)⟩ hview.monitor
  obtain ⟨r₁, hnext', halike'⟩ := next_alike
    (fun hbind => ⟨hop.settled hbind, hdoing⟩) (fun i hi => ⟨x, hxq, req, hreq, hi⟩)
    (fun i hi => ⟨x, hxq, req, hreq, rfl, hi⟩) halike hnext
  obtain ⟨v, monitor, hworld, hmonitor⟩ := halike'
  have hthread : ((t.device r).put (rt.inode x.op) x.op
        { s' with world := v, monitor := monitor }).thread (launchesLeft x xs a') (a'.getD .idle) =
      ((t.device u).put (rt.inode x.op) x.op s').thread (launchesLeft x xs a')
        (a'.getD .idle) := by
    unfold DeviceState.thread DeviceState.put
    simp only [hworld.trace, hworld.hipInited]
    rfl
  refine ⟨((t.device r).put (rt.inode x.op) x.op
    { s' with world := v, monitor := monitor }).shared, ?_, hworld.dev, ?_, hmonitor⟩
  · unfold StreamThread.step
    rw [hqueue]
    simp only [hm, hnext', Option.map_some]
    rw [← hthread]
    cases a' with
    | some b => rfl
    | none => rfl
  · intro k i hi
    by_cases hk : k = rt.inode x.op
    · subst hk
      have hr : ((t.device r).put (rt.inode x.op) x.op
        { s' with world := v, monitor := monitor }).shared.memory.files (rt.inode x.op) = v.file :=
        Function.update_self ..
      have hu : ((t.device u).put (rt.inode x.op) x.op s').shared.memory.files (rt.inode x.op) =
        s'.world.file := Function.update_self ..
      rw [hr, hu]
      exact hworld.data i hi
    · have hr : ((t.device r).put (rt.inode x.op) x.op
        { s' with world := v, monitor := monitor }).shared.memory.files k = r.memory.files k :=
        Function.update_of_ne hk ..
      have hu : ((t.device u).put (rt.inode x.op) x.op s').shared.memory.files k =
        u.memory.files k := Function.update_of_ne hk ..
      rw [hr, hu]
      exact hview.data k i hi

/-- **Requests on different streams do not overlap**: what one may change, the other neither
reads nor writes. -/
structure Streams.Apart (maxRwCount : ℕ) (st : Streams) (rt : Runtime) : Prop where
  dev : ∀ {h h' : ℕ} {x : Launch} {req : AsyncRequest} {i : ℕ}, h ≠ h' → x ∈ st.queue h →
    st.requests x.op = some req → req.ChangesDev maxRwCount (rt.env x.op).client i →
    ¬ UsesDev maxRwCount st rt h' i
  file : ∀ {h h' : ℕ} {x : Launch} {req : AsyncRequest} {i : ℕ}, h ≠ h' → x ∈ st.queue h →
    st.requests x.op = some req → req.ChangesFile maxRwCount (rt.env x.op).client i →
    ¬ UsesFile maxRwCount st rt h' (rt.inode x.op) i

/-- **Such streams do not see each other.** -/
theorem separate (hM : ∀ o, (rt.env o).maxRwCount = maxRwCount) (hapart : st.Apart maxRwCount rt) :
    Parties.Separate (st.parties rt d) (Sound maxRwCount st rt) (SameView maxRwCount st rt) where
  equiv := sameView_equivalence
  keeps hs h := (hs.step hM h).1
  own hs hview h := hs.own hview h
  others := by
    intro i j u t u' t' hne hs h
    obtain ⟨-, x, hx, req, hreq, hchanged⟩ := hs.step hM h
    refine ⟨fun b hb => ?_, fun k b hb => ?_, hchanged.monitor.symm⟩
    · have hsame := hchanged.dev b fun hch => hapart.dev hne hx hreq hch hb
      exact hsame.symm
    · have hsame := hchanged.data k b ?_
      · exact hsame.symm
      · rintro rfl hch
        exact hapart.file hne hx hreq hch hb

end HipFile
