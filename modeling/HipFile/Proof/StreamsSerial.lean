import HipFile.Proof.StreamsAlone

/-!
# Streams that execute at the same time serve their requests one after another

* `serial_streams`: the streams, one after another.
* `streams_serial`: requests of several streams, executed at the same time, leave what they leave
  one after another, in an order that is the order of each stream.
* `streams_end`: the streams come to an end.
-/

namespace HipFile

open Bytes Fallback

namespace Streams

variable {maxRwCount : ℕ} {rt : Runtime} {st : Streams} {d : DeviceState} {x : Launch}

/-- What the clients are told. -/
def told (st : Streams) (ts : ℕ → StreamThread) (o : ℕ) : Option ℤ :=
  (st.ops o).bind fun op => (ts op.hipStream).reported o

/-- **One stream after another**: the requests of all of them, one after another. -/
theorem serial_streams (hs : (machine maxRwCount).Reaches Registered st)
    (hlt : maxRwCount < 2 ^ 63) (hall : AllReady maxRwCount st rt d) : ∀ {L : List ℕ}
    {u : SharedState} {ts : ℕ → StreamThread}, L.Nodup →
    (∀ k, Sound maxRwCount st rt k (ts k)) →
    u.monitor.submittedOps = d.monitor.submittedOps →
    (∀ k ∈ L, ts k = d.thread (st.queue k) .idle) →
    ∃ (ls os : List ℕ) (s' : SharedState × (ℕ → StreamThread)),
      (st.parties rt d).machine.run (u, ts) ls = some s' ∧
      (∀ k ∈ L, (s'.2 k).queue = []) ∧ (∀ k, k ∉ L → s'.2 k = ts k) ∧ os.Nodup ∧
      (∀ o, o ∈ os ↔ ∃ k ∈ L, ∃ x ∈ st.queue k, x.op = o) ∧
      (∀ k ∈ L, st.queue k = os.flatMap (st.block k)) ∧
      Serial maxRwCount st.requests rt (st.told s'.2) os u.memory s'.1.memory := by
  have hsep := hall.separate
  intro L
  induction L with
  | nil =>
    intro u ts _ _ _ _
    refine ⟨[], [], (u, ts), rfl, nofun, fun _ _ => rfl, List.nodup_nil, ?_, nofun, .nil _⟩
    simp
  | cons k L ih =>
    intro u ts hnodup hI hmonitor hstart
    obtain ⟨hnot, hnodup⟩ := List.nodup_cons.1 hnodup
    obtain ⟨os, d', n, hos, hmem, hqueue, hserial, halone⟩ :=
      stream_alone hs hlt hall u hmonitor k
    rw [← hstart k List.mem_cons_self] at halone
    have hfirst : (st.parties rt d).machine.run (u, ts) (List.replicate n k) =
        some (d'.shared, Function.update ts k (d'.thread [] .idle)) := Parties.run_of_alone halone
    -- what the first stream leaves to the others
    have hI' : ∀ j, Sound maxRwCount st rt j (Function.update ts k (d'.thread [] .idle) j) :=
      (hsep.run_alone hI (fun j => (hsep.equiv j).refl u) hfirst).1
    have hmonitor' : d'.shared.monitor.submittedOps = d.monitor.submittedOps := by
      refine hsep.shared (E := fun u => u.monitor.submittedOps = d.monitor.submittedOps)
        (fun hI hu hst => ?_) hI hmonitor hfirst
      obtain ⟨-, x, -, req, -, hchanged⟩ := hI.step (fun o => ((hall.ready 0).env o).1) hst
      exact hchanged.monitor.trans hu
    have hstart' : ∀ j ∈ L, Function.update ts k (d'.thread [] .idle) j =
        d.thread (st.queue j) .idle := by
      intro j hj
      have hjk : j ≠ k := by
        rintro rfl
        exact hnot hj
      rw [Function.update_of_ne hjk]
      exact hstart j (List.mem_cons_of_mem k hj)
    obtain ⟨ls, os', s', hrest, hends, hothers, hos', hmem', hqueue', hserial'⟩ :=
      ih hnodup hI' hmonitor' hstart'
    have hk : s'.2 k = d'.thread [] .idle := by
      rw [hothers k hnot, Function.update_self]
    refine ⟨List.replicate n k ++ ls, os ++ os', s', ?_, ?_, ?_, ?_, ?_, ?_, ?_⟩
    · rw [Machine.run_append, hfirst]
      exact hrest
    · intro j hj
      rcases List.mem_cons.1 hj with rfl | hj
      · rw [hk]
        rfl
      · exact hends j hj
    · intro j hj
      obtain ⟨hjk, hj⟩ := not_or.1 (List.mem_cons.not.1 hj)
      rw [hothers j hj, Function.update_of_ne hjk]
    · -- an op is on one stream only
      refine List.nodup_append.2 ⟨hos, hos', ?_⟩
      rintro o ho o' ho' rfl
      obtain ⟨x, hx, hxo⟩ := (hmem o).1 ho
      obtain ⟨j, hj, y, hy, hyo⟩ := (hmem' o).1 ho'
      exact hnot (stream_unique hs hx hy (hxo.trans hyo.symm) ▸ hj)
    · intro o
      rw [List.mem_append, hmem, hmem']
      simp only [List.mem_cons, exists_eq_or_imp]
    · intro j hj
      rw [List.flatMap_append]
      rcases List.mem_cons.1 hj with rfl | hj
      · have hnone : os'.flatMap (st.block j) = [] := by
          refine List.flatMap_eq_nil_iff.2 fun o ho => block_eq_nil ?_
          rintro x hx rfl
          obtain ⟨i, hi, y, hy, hyo⟩ := (hmem' x.op).1 ho
          exact hnot (stream_unique hs hx hy hyo.symm ▸ hi)
        rw [hnone, List.append_nil]
        exact hqueue
      · have hnone : os.flatMap (st.block j) = [] := by
          refine List.flatMap_eq_nil_iff.2 fun o ho => block_eq_nil ?_
          rintro x hx rfl
          obtain ⟨y, hy, hyo⟩ := (hmem x.op).1 ho
          exact hnot (stream_unique hs hy hx hyo ▸ hj)
        rw [hnone, List.nil_append]
        exact hqueue' j hj
    · -- the streams after it do not touch what the first one tells its clients
      refine (hserial.congr fun o ho => ?_).append hserial'
      obtain ⟨x, hx, rfl⟩ := (hmem o).1 ho
      obtain ⟨op, hop, rfl⟩ := stream_of_queued hs hx
      unfold told
      rw [hop, Option.bind_some, hk]
      rfl

/-! ## Bytes that no request changes -/

/-- A byte of the device memory that no stream uses. -/
theorem dev_unused (hall : AllReady maxRwCount st rt d) {ts : ℕ → StreamThread} {ls : List ℕ}
    {u : SharedState} {s' : SharedState × (ℕ → StreamThread)}
    (hI : ∀ k, Sound maxRwCount st rt k (ts k))
    (hrun : (st.parties rt d).machine.run (u, ts) ls = some s') {i : ℕ}
    (hi : ∀ k, ¬ UsesDev maxRwCount st rt k i) : s'.1.memory.dev i = u.memory.dev i := by
  refine hall.separate.shared (E := fun v => v.memory.dev i = u.memory.dev i)
    (fun hI hu hst => ?_) hI rfl hrun
  obtain ⟨-, x, hx, req, hreq, hchanged⟩ := hI.step (fun o => ((hall.ready 0).env o).1) hst
  refine (hchanged.dev i ?_).trans hu
  rintro ⟨-, hlow, hhigh⟩
  exact hi _ ⟨x, hx, req, hreq, hlow, hhigh⟩

/-- A byte of a file that no stream uses. -/
theorem data_unused (hall : AllReady maxRwCount st rt d) {ts : ℕ → StreamThread} {ls : List ℕ}
    {u : SharedState} {s' : SharedState × (ℕ → StreamThread)}
    (hI : ∀ k, Sound maxRwCount st rt k (ts k))
    (hrun : (st.parties rt d).machine.run (u, ts) ls = some s') {inode i : ℕ}
    (hi : ∀ k, ¬ UsesFile maxRwCount st rt k inode i) :
    (s'.1.memory.files inode).data i = (u.memory.files inode).data i := by
  refine hall.separate.shared
    (E := fun v => (v.memory.files inode).data i = (u.memory.files inode).data i)
    (fun hI hu hst => ?_) hI rfl hrun
  obtain ⟨-, x, hx, req, hreq, hchanged⟩ := hI.step (fun o => ((hall.ready 0).env o).1) hst
  refine (hchanged.data inode i ?_).trans hu
  rintro hinode ⟨-, hlow, hhigh⟩
  exact hi _ ⟨x, hx, req, hreq, hinode, hlow, hhigh⟩

/-! ## Requests at the same time -/

/-- **Where all streams have come to an end**, they have served their requests one after another. -/
theorem serial_of_end (hs : (machine maxRwCount).Reaches Registered st)
    (hlt : maxRwCount < 2 ^ 63) (hall : AllReady maxRwCount st rt d) {ls : List ℕ}
    {s' : SharedState × (ℕ → StreamThread)}
    (hrun : (st.parties rt d).machine.run (st.parties rt d).machine.init ls = some s')
    (hend : ∀ k, (st.parties rt d).machine.step s' k = none) :
    ∃ (os : List ℕ) (μ : Memory), os.Nodup ∧
      (∀ o, o ∈ os ↔ ∃ k, ∃ x ∈ st.queue k, x.op = o) ∧
      (∀ k, (s'.2 k).queue = [] ∧ st.queue k = os.flatMap (st.block k)) ∧
      Serial maxRwCount st.requests rt (st.told s'.2) os d.memory μ ∧
      s'.1.memory.dev = μ.dev ∧ ∀ inode, (s'.1.memory.files inode).data = (μ.files inode).data := by
  have hsep := hall.separate
  have hI := hall.sound hs
  have hnone : ∀ k, StreamThread.step rt s'.1 (s'.2 k) = none := fun k =>
    Option.map_eq_none_iff.1 (hend k)
  -- the same launches, one stream after another
  obtain ⟨L, hL⟩ := queues_finite hs
  obtain ⟨ls', os, b, hrun', hends, hothers, hnodup, hmem, hqueue, hserial⟩ :=
    serial_streams (u := d.shared) hs hlt hall L.nodup_toList hI rfl fun _ _ => rfl
  have hempty : ∀ k, (b.2 k).queue = [] := by
    intro k
    by_cases hk : k ∈ L
    · exact hends k (Finset.mem_toList.2 hk)
    · rw [hothers k fun hmem => hk (Finset.mem_toList.1 hmem)]
      exact hL k hk
  obtain ⟨hsame, hview⟩ := hsep.run_unique hI hrun hrun' hnone
    fun k => step_of_empty (hempty k)
  -- both runs end alike for every stream; bytes that no stream uses are as before
  refine ⟨os, b.1.memory, hnodup, fun o => ?_, fun k => ⟨hsame ▸ hempty k, ?_⟩, hsame ▸ hserial,
    ?_, fun inode => ?_⟩
  · rw [hmem]
    refine ⟨fun ⟨k, _, hx⟩ => ⟨k, hx⟩, fun ⟨k, x, hx, hxo⟩ => ⟨k, ?_, x, hx, hxo⟩⟩
    by_contra hk
    rw [hL k fun hmem => hk (Finset.mem_toList.2 hmem)] at hx
    cases hx
  · by_cases hk : k ∈ L
    · exact hqueue k (Finset.mem_toList.2 hk)
    · have hblock : ∀ o ∈ os, st.block k o = [] := by
        intro o _
        refine block_eq_nil fun x hx => ?_
        rw [hL k hk] at hx
        cases hx
      rw [hL k hk, List.flatMap_eq_nil_iff.2 hblock]
  · funext i
    by_cases hused : ∃ k, UsesDev maxRwCount st rt k i
    · obtain ⟨k, hk⟩ := hused
      exact (hview k).dev i hk
    · have hrest := dev_unused hall hI hrun (not_exists.1 hused)
      exact hrest.trans (dev_unused hall hI hrun' (not_exists.1 hused)).symm
  · funext i
    by_cases hused : ∃ k, UsesFile maxRwCount st rt k inode i
    · obtain ⟨k, hk⟩ := hused
      exact (hview k).data inode i hk
    · have hrest := data_unused hall hI hrun (not_exists.1 hused)
      exact hrest.trans (data_unused hall hI hrun' (not_exists.1 hused)).symm

/-- **The runs are bounded.** -/
theorem exists_bound (hs : (machine maxRwCount).Reaches Registered st) (hlt : maxRwCount < 2 ^ 63)
    (hall : AllReady maxRwCount st rt d) :
    ∃ N, ∀ ls s', (st.parties rt d).machine.run (st.parties rt d).machine.init ls = some s' →
      ls.length ≤ N := by
  obtain ⟨L, hL⟩ := queues_finite hs
  have halone : ∀ k, ∃ n y, (st.parties rt d).alone k n
      (d.shared, d.thread (st.queue k) .idle) = some y ∧
      StreamThread.step rt y.1 y.2 = none := by
    intro k
    obtain ⟨-, d', n, -, -, -, -, hn⟩ := stream_alone hs hlt hall d.shared rfl k
    exact ⟨n, _, hn, step_of_empty rfl⟩
  -- as many moves as the streams with launches make by themselves
  choose n hn using halone
  refine ⟨∑ k ∈ L, n k, fun ls s' hrun => ?_⟩
  refine hall.separate.length_le (hall.sound hs) (fun k _ => hn k) (fun k hk => ?_) hrun
  exact step_of_empty (hL k hk)

/-- **Streams that execute at the same time serve their requests one after another.** Whatever
threads have submitted them to whatever registered streams, and however the streams' system calls
and copies come between one another: where all of them have come to an end, every launch has been
executed, the device memory and the files hold what the requests leave when each is transferred
as a whole, in an order that is the order of each stream, and each client is told what its own
transfer has counted. -/
theorem streams_serial (pageSize : ℕ)
    (hs : (machine (getMaxRwCount pageSize)).Reaches Registered st)
    (hall : AllReady (getMaxRwCount pageSize) st rt d) {ls : List ℕ}
    {s' : SharedState × (ℕ → StreamThread)}
    (hrun : (st.parties rt d).machine.run (st.parties rt d).machine.init ls = some s')
    (hend : ∀ k, (st.parties rt d).machine.step s' k = none) :
    ∃ (os : List ℕ) (μ : Memory), os.Nodup ∧
      (∀ o, o ∈ os ↔ ∃ k, ∃ x ∈ st.queue k, x.op = o) ∧
      (∀ k, (s'.2 k).queue = [] ∧ st.queue k = os.flatMap (st.block k)) ∧
      Serial (getMaxRwCount pageSize) st.requests rt (st.told s'.2) os d.memory μ ∧
      s'.1.memory.dev = μ.dev ∧ ∀ inode, (s'.1.memory.files inode).data = (μ.files inode).data := by
  have hlt := getMaxRwCount_lt pageSize
  exact serial_of_end hs (by omega) hall hrun hend

/-- **Streams that execute at the same time come to an end**: their runs are bounded, and each can
be continued to one that has executed every launch of every stream. -/
theorem streams_end (pageSize : ℕ)
    (hs : (machine (getMaxRwCount pageSize)).Reaches Registered st)
    (hall : AllReady (getMaxRwCount pageSize) st rt d) :
    ∃ N, ∀ ls s', (st.parties rt d).machine.run (st.parties rt d).machine.init ls = some s' →
      ls.length ≤ N ∧ ∃ ls' e, (st.parties rt d).machine.run s' ls' = some e ∧
        ∀ k, (e.2 k).queue = [] := by
  have hlt := getMaxRwCount_lt pageSize
  obtain ⟨N, hN⟩ := exists_bound hs (by omega) hall
  refine ⟨N, fun ls s' hrun => ⟨hN ls s' hrun, ?_⟩⟩
  obtain ⟨ls', e, hrest, hend⟩ :=
    (st.parties rt d).machine.exists_end hN ls (Nat.le_add_left N _) hrun
  have hwhole : (st.parties rt d).machine.run (st.parties rt d).machine.init (ls ++ ls') =
      some e := by
    rw [Machine.run_append, hrun]
    exact hrest
  obtain ⟨_, _, -, -, hqueue, -⟩ := serial_of_end hs (by omega) hall hwhole hend
  exact ⟨ls', e, hrest, fun k => (hqueue k).1⟩

/-! ## Two streams -/

/-- The HIP streams 1 and 2 are registered; a write is submitted to the one and a read to the
other, by two threads at a time. -/
def twoRun : List Call :=
  [.registerStream sampleQueries 1 0, .registerStream sampleQueries 2 0,
    .submit 1 { sampleCall workingHip with type := .write },
    .submit 2 { sampleCall workingHip with hipStream := 2 }] ++
    [1, 2, 1, 2, 1, 2, 1, 2, 1, 2, 1, 2, 1, 2, 1, 2].map Call.advance

def twoStreams : Streams := ((machine (getMaxRwCount 4096)).run init twoRun).getD init

theorem run_twoRun : (machine (getMaxRwCount 4096)).run init twoRun = some twoStreams := rfl

theorem twoStreams_reaches : (machine (getMaxRwCount 4096)).Reaches Registered twoStreams := by
  have hmeets : (machine (getMaxRwCount 4096)).RunMeets Registered init twoRun :=
    ⟨trivial, trivial, ⟨rfl, ⟨1024, rfl⟩, fun _ => rfl⟩, ⟨rfl, ⟨1024, rfl⟩, fun _ => rfl⟩,
      Machine.runMeets_of_forall (registered_advance _) _⟩
  exact Machine.reaches_run .init hmeets run_twoRun

theorem op_of_mem_twoStreams {k : ℕ} (hx : x ∈ twoStreams.queue k) : x.op = 1 ∨ x.op = 2 := by
  obtain ⟨op, hop, -⟩ := stream_of_queued twoStreams_reaches hx
  obtain hinit | ⟨call, hcall⟩ := ops_of_run run_twoRun (hop ▸ nofun : twoStreams.ops x.op ≠ none)
  · exact absurd rfl hinit
  · simp only [twoRun, List.map_cons, List.map_nil, List.cons_append, List.nil_append,
      List.mem_cons, reduceCtorEq, Call.submit.injEq, List.not_mem_nil, or_self, or_false,
      false_or] at hcall
    exact hcall.imp And.left And.left

/-- The files of the two ops are different, and so are the halves of the buffer. -/
def twoRuntime : Runtime := { halvesRuntime with inode := id }

def twoDevice : DeviceState :=
  { halvesDevice with ops := twoStreams.opMemory (getMaxRwCount 4096) fun _ _ => 0 }

theorem requests_twoStreams :
    twoStreams.requests 1 = some { sampleRequest with type := .write } ∧
      twoStreams.requests 2 = some { sampleRequest with stream.hipStream := 2 } := ⟨rfl, rfl⟩

/-- The two calls have returned, and the parameters of both are bound in stream order. -/
theorem ops_twoStreams {o : ℕ} (ho : o = 1 ∨ o = 2) : ∃ op, twoStreams.ops o = some op ∧
    op.phase = .returned ∧ op.object.stream.allFixed = false := by
  rcases ho with rfl | rfl <;> exact ⟨_, rfl, rfl, rfl⟩

theorem twoStreams_quiet (k : ℕ) : Quiet (getMaxRwCount 4096) twoStreams k where
  returned x hx op hop := by
    obtain ⟨op', hop', hphase, -⟩ := ops_twoStreams (op_of_mem_twoStreams hx)
    rw [hop] at hop'
    cases hop'
    exact hphase
  limited x hx op hop := by
    obtain ⟨op', hop', -, hfixed⟩ := ops_twoStreams (op_of_mem_twoStreams hx)
    rw [hop] at hop'
    cases hop'
    rintro ⟨hall, -⟩
    exact absurd (hall.symm.trans hfixed) (by decide)

theorem twoDevice_ready (k : ℕ) :
    Ready (getMaxRwCount 4096) twoStreams k twoRuntime twoDevice where
  env _ := ⟨rfl, rfl⟩
  interrupted := ⟨0, fun o i _ type count offset => by cases type <;> nofun⟩
  ops := ⟨fun _ _ => 0, rfl⟩
  monitor x hx := by
    have hop := op_of_mem_twoStreams hx
    show x.op ∈ ({1, 2} : Finset ℕ)
    simpa using hop

/-- The write is the op 1, and the read the op 2. -/
theorem twoStreams_type {o : ℕ} {req : AsyncRequest} (ho : o = 1 ∨ o = 2)
    (hreq : twoStreams.requests o = some req) :
    o = 1 ∧ req.type = .write ∨ o = 2 ∧ req.type = .read := by
  rcases ho with rfl | rfl
  · cases requests_twoStreams.1.symm.trans hreq
    exact Or.inl ⟨rfl, rfl⟩
  · cases requests_twoStreams.2.symm.trans hreq
    exact Or.inr ⟨rfl, rfl⟩

theorem twoStreams_apart : twoStreams.Apart (getMaxRwCount 4096) twoRuntime where
  dev := by
    rintro h h' x req i hne hx hreq ⟨htype, hlow, hhigh⟩ ⟨y, hy, req', hreq', hcovers⟩
    have hxy : x.op ≠ y.op := fun heq => hne (stream_unique twoStreams_reaches hx hy heq)
    obtain ⟨-, hwrite⟩ | ⟨hx2, -⟩ := twoStreams_type (op_of_mem_twoStreams hx) hreq
    · rw [hwrite] at htype
      cases htype
    · -- the first half of the buffer, and the second
      have hy1 : y.op = 1 := by
        have := op_of_mem_twoStreams hy
        omega
      rw [hx2] at hreq hlow hhigh
      rw [hy1] at hreq' hcovers
      cases requests_twoStreams.2.symm.trans hreq
      cases requests_twoStreams.1.symm.trans hreq'
      have hlow : 4096 + 16 ≤ i := hlow
      have hcovers : i < 4096 + 16 := hcovers.2
      omega
  file := by
    rintro h h' x req i hne hx hreq ⟨htype, -, -⟩ ⟨y, hy, req', hreq', hinode, -⟩
    exact hne (stream_unique twoStreams_reaches hx hy hinode)

theorem two_allReady : AllReady (getMaxRwCount 4096) twoStreams twoRuntime twoDevice :=
  ⟨twoDevice_ready, twoStreams_quiet, twoStreams_apart⟩

/-- The write and the read, at the same time. -/
theorem streams_serial_sample : ∃ (ls os : List ℕ) (s' : SharedState × (ℕ → StreamThread))
    (μ : Memory),
    (twoStreams.parties twoRuntime twoDevice).machine.run
      (twoStreams.parties twoRuntime twoDevice).machine.init ls = some s' ∧
    os.Nodup ∧ (∀ o, o ∈ os ↔ ∃ k, ∃ x ∈ twoStreams.queue k, x.op = o) ∧
    (∀ k, (s'.2 k).queue = [] ∧ twoStreams.queue k = os.flatMap (twoStreams.block k)) ∧
    Serial (getMaxRwCount 4096) twoStreams.requests twoRuntime (twoStreams.told s'.2) os
      twoDevice.memory μ ∧
    s'.1.memory.dev = μ.dev ∧ ∀ inode, (s'.1.memory.files inode).data = (μ.files inode).data := by
  obtain ⟨N, hN⟩ := exists_bound twoStreams_reaches (by decide) two_allReady
  obtain ⟨ls, s', hrun, hend⟩ :=
    (twoStreams.parties twoRuntime twoDevice).machine.exists_end hN [] (Nat.le_add_left N _) rfl
  obtain ⟨os, μ, hserial⟩ := streams_serial 4096 twoStreams_reaches two_allReady hrun hend
  exact ⟨ls, os, s', μ, hrun, hserial⟩

/-- The two streams come to an end. -/
theorem streams_end_sample : ∃ N, ∀ ls s',
    (twoStreams.parties twoRuntime twoDevice).machine.run
      (twoStreams.parties twoRuntime twoDevice).machine.init ls = some s' →
    ls.length ≤ N ∧ ∃ ls' e,
      (twoStreams.parties twoRuntime twoDevice).machine.run s' ls' = some e ∧
        ∀ k, (e.2 k).queue = [] :=
  streams_end 4096 twoStreams_reaches two_allReady

end Streams

end HipFile
