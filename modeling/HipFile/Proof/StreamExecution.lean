import HipFile.Model.StreamExecution
import HipFile.Proof.AsyncExact
import HipFile.Proof.StreamCalls
import HipFile.Proof.StreamStages

/-!
# A stream serves its requests one after another

* `Transfer`, `Serial`: requests, each transferred as a whole, one after another.
* `runQueue_block`: the stages of one op, among those of the others, do what they do alone.
* `serial_of_registered`: what the stream executes is a serial run of its requests.
-/

namespace HipFile

open Bytes Fallback

/-! ## One request after another -/

/-- The file of an inode, and the device memory. -/
def Memory.world (m : Memory) (inode : ℕ) : World :=
  ⟨m.files inode, m.dev, ⟨0, 0, 0, 0⟩, [], false⟩

/-- **A request, transferred as a whole**: nothing changes outside its region, and a byte count
that is reported is one of bytes that have been transferred end to end. -/
structure Transfer (maxRwCount : ℕ) (req : AsyncRequest) (client : Params) (inode : ℕ) (bytes : ℤ)
    (m m' : Memory) : Prop where
  others : ∀ i, i ≠ inode → m'.files i = m.files i
  only : OnlyRegion req (req.bound maxRwCount client) (m.world inode) (m'.world inode)
  count : ∀ n : ℕ, bytes = n → n ≤ (req.bound maxRwCount client).size ∧
    EndToEnd req (req.bound maxRwCount client) (m.world inode) n (m'.world inode)

/-- **Requests, one after another**, with what each reports. -/
inductive Serial (maxRwCount : ℕ) (reqs : ℕ → Option AsyncRequest) (rt : Runtime)
    (bytes : ℕ → Option ℤ) : List ℕ → Memory → Memory → Prop
  | nil (m : Memory) : Serial maxRwCount reqs rt bytes [] m m
  | cons {o : ℕ} {os : List ℕ} {req : AsyncRequest} {b : ℤ} {m m₁ m' : Memory}
      (hreq : reqs o = some req) (hb : bytes o = some b)
      (h : Transfer maxRwCount req (rt.env o).client (rt.inode o) b m m₁)
      (hrest : Serial maxRwCount reqs rt bytes os m₁ m') :
      Serial maxRwCount reqs rt bytes (o :: os) m m'

variable {rt : Runtime} {rounds maxRwCount o : ℕ} {d d' : DeviceState} {m : OpMemory}
  {s : StreamState} {req : AsyncRequest} {client : Params}

/-! ## The stages of one op -/

@[simp] theorem put_ops_self (inode : ℕ) : (d.put inode o s).ops o =
    some ⟨s.op, s.bounce, s.bytesTransferred, s.bounceAccesses, s.gpuAccesses⟩ :=
  Function.update_self ..

theorem put_ops_ne {o' : ℕ} (inode : ℕ) (h : o' ≠ o) : (d.put inode o s).ops o' = d.ops o' :=
  Function.update_of_ne h ..

theorem put_put (inode : ℕ) (s s' : StreamState) :
    (d.put inode o s).put inode o s' = d.put inode o s' := by
  simp only [DeviceState.put, Function.update_idem]

/-- What a stage leaves is what the next one of the op sees. -/
theorem streamState_put (inode : ℕ) : (d.put inode o s).streamState inode
    ⟨s.op, s.bounce, s.bytesTransferred, s.bounceAccesses, s.gpuAccesses⟩ = s := by
  simp only [DeviceState.put, DeviceState.streamState, Function.update_self]

theorem put_streamState (inode : ℕ) (hm : d.ops o = some m) :
    d.put inode o (d.streamState inode m) = d := by
  have hops : Function.update d.ops o (some m) = d.ops := by rw [← hm, Function.update_eq_self]
  simp only [DeviceState.put, DeviceState.streamState, Function.update_eq_self]
  rw [hops]

/-- **The stages of one op**, one after another on the stream, do what they do alone. -/
theorem runQueue_block (rt : Runtime) (rounds : ℕ) : ∀ {stages : List Stage} {d : DeviceState}
    {m : OpMemory}, d.ops o = some m →
      runQueue rt rounds (stages.map (Launch.mk o)) d =
        ((runStages (rt.env o) rounds stages (d.streamState (rt.inode o) m)).1,
          d.put (rt.inode o) o
            (runStages (rt.env o) rounds stages (d.streamState (rt.inode o) m)).2) := by
  intro stages
  induction stages with
  | nil =>
    intro d m hm
    rw [List.map_nil, runStages, runQueue, put_streamState _ hm]
  | cons stage stages ih =>
    intro d m hm
    rw [List.map_cons, runStages, runQueue, runLaunch, hm]
    simp only
    cases hrun : stage.run (rt.env o) rounds (d.streamState (rt.inode o) m) with
    | mk p s =>
      cases p with
      | finished =>
        simp only
        rw [ih (put_ops_self (rt.inode o)), streamState_put, put_put]
      | running | fault => rfl

theorem runQueue_append {l l' : List Launch} : ∀ {d d' : DeviceState},
    runQueue rt rounds l d = (.finished, d') →
      runQueue rt rounds (l ++ l') d = runQueue rt rounds l' d' := by
  induction l with
  | nil =>
    intro d d' h
    obtain rfl := (Prod.mk.inj h).2
    rfl
  | cons x l ih =>
    intro d d' h
    rw [runQueue] at h
    rw [List.cons_append, runQueue]
    cases hx : runLaunch rt rounds d x with
    | mk p d₁ =>
      rw [hx] at h
      cases p with
      | finished => exact ih h
      | running | fault => cases (Prod.mk.inj h).1

/-! ## A request among the others -/

theorem onlyRegion_congr {params : Params} {w w' v v' : World} (hfile : w.file = v.file)
    (hdev : w.dev = v.dev) (hfile' : w'.file = v'.file) (hdev' : w'.dev = v'.dev) :
    OnlyRegion req params w w' ↔ OnlyRegion req params v v' := by
  unfold OnlyRegion
  rw [hfile, hdev, hfile', hdev']

theorem endToEnd_congr {params : Params} {n : ℕ} {w w' v v' : World} (hfile : w.file = v.file)
    (hdev : w.dev = v.dev) (hfile' : w'.file = v'.file) (hdev' : w'.dev = v'.dev) :
    EndToEnd req params w n w' ↔ EndToEnd req params v n v' := by
  unfold EndToEnd
  rw [hfile, hdev, hfile', hdev']

/-- What a pipeline does is a transfer. -/
theorem exact_transfer {inode : ℕ}
    (h : Exact maxRwCount req client (d.streamState inode m).world s) :
    Transfer maxRwCount req client inode s.bytesTransferred d.memory (d.put inode o s).memory := by
  have hput : ((d.put inode o s).memory.world inode).file = s.world.file := by
    simp only [DeviceState.put, Memory.world, Function.update_self]
  refine ⟨fun i hi => Function.update_of_ne hi _ _, ?_, fun n hn => ?_⟩
  · by_cases hok : RegionOk maxRwCount req (req.bound maxRwCount client)
    · have honly := (h.accepted hok).1
      exact (onlyRegion_congr rfl rfl hput rfl).2 honly
    · have hsame := (h.refused hok).1
      have hrefl : OnlyRegion req (req.bound maxRwCount client) s.world s.world := by
        unfold OnlyRegion
        split <;> exact ⟨rfl, SameOutside.refl _ _ _⟩
      rw [hsame] at hrefl
      exact (onlyRegion_congr rfl rfl (hput.trans (by rw [hsame])) (by rw [← hsame]; rfl)).2 hrefl
  · by_cases hok : RegionOk maxRwCount req (req.bound maxRwCount client)
    · obtain ⟨-, tr, -, hfailed, hdone⟩ := h.accepted hok
      by_cases hfail : AnyIoFailed tr
      · have := (hfailed hfail).1
        omega
      · obtain ⟨k, hk, hbytes, hend⟩ := hdone hfail
        obtain rfl : n = k := by omega
        exact ⟨hk, (endToEnd_congr rfl rfl hput rfl).2 hend⟩
    · have hrefused := (h.refused hok).2
      have hneg := invalidValueStatus_neg
      omega

theorem cleanup_submittedOps (env : StreamEnv) (s : StreamState) :
    (asyncIoCleanup env s).monitor.submittedOps = s.monitor.submittedOps := by
  unfold asyncIoCleanup AsyncMonitor.completeOp
  by_cases hmem : env.addr ∉ s.monitor.submittedOps
  · rw [if_pos hmem]
  · rw [if_neg hmem]

/-- **The stages serve the request**, on whatever they find. -/
def Fulfils (maxRwCount : ℕ) (rt : Runtime) (req : AsyncRequest) (m : OpMemory)
    (stages : List Stage) (o : ℕ) : Prop :=
  ∀ d : DeviceState, o ∈ d.monitor.submittedOps → ∃ s R,
    Exact maxRwCount req (rt.env o).client (d.streamState (rt.inode o) m).world s ∧
    s.monitor.submittedOps = d.monitor.submittedOps ∧
    ∀ rounds, R ≤ rounds → runStages (rt.env o) rounds stages (d.streamState (rt.inode o) m) =
      (.finished, s)

/-- What an op of the stream is, before the stream serves it. -/
structure Awaiting (maxRwCount : ℕ) (rt : Runtime) (reqs : ℕ → Option AsyncRequest)
    (block : ℕ → List Launch) (d : DeviceState) (o : ℕ) : Prop where
  submitted : o ∈ d.monitor.submittedOps
  fulfilled : ∃ req m stages, reqs o = some req ∧ d.ops o = some m ∧
    block o = stages.map (Launch.mk o) ∧ Fulfils maxRwCount rt req m stages o

/-- **Blocks of stages, one for each op**, serve the requests one after another. -/
theorem serial_run {reqs : ℕ → Option AsyncRequest} {block : ℕ → List Launch} :
    ∀ {os : List ℕ} {d : DeviceState}, os.Nodup →
      (∀ o ∈ os, Awaiting maxRwCount rt reqs block d o) → ∃ d' R,
        (∀ rounds, R ≤ rounds → runQueue rt rounds (os.flatMap block) d = (.finished, d')) ∧
        Serial maxRwCount reqs rt d'.reported os d.memory d'.memory ∧
        ∀ o, o ∉ os → d'.ops o = d.ops o := by
  intro os
  induction os with
  | nil =>
    intro d _ _
    exact ⟨d, 0, fun _ _ => rfl, .nil _, fun _ _ => rfl⟩
  | cons o os ih =>
    intro d hnodup hall
    obtain ⟨hnot, hnodup⟩ := List.nodup_cons.1 hnodup
    obtain ⟨hsubmitted, req, m, stages, hreq, hm, hblock, hfulfils⟩ := hall o List.mem_cons_self
    obtain ⟨s, R, hexact, hmonitor, hrun⟩ := hfulfils d hsubmitted
    set d₁ := d.put (rt.inode o) o s with hd₁
    have hothers : ∀ o' ∈ os, Awaiting maxRwCount rt reqs block d₁ o' := by
      intro o' ho'
      obtain ⟨hsubmitted', req', m', stages', hreq', hm', hrest⟩ :=
        hall o' (List.mem_cons_of_mem o ho')
      have hne : o' ≠ o := by
        rintro rfl
        exact hnot ho'
      refine ⟨?_, req', m', stages', hreq', ?_, hrest⟩
      · rw [← hmonitor] at hsubmitted'
        exact hsubmitted'
      · rw [hd₁, put_ops_ne _ hne]
        exact hm'
    obtain ⟨d', R', hrun', hserial, hframe⟩ := ih hnodup hothers
    refine ⟨d', max R R', fun rounds hR => ?_, ?_, fun o' ho' => ?_⟩
    · have hfirst : runQueue rt rounds (block o) d = (.finished, d₁) := by
        rw [hblock, runQueue_block rt rounds hm, hrun rounds (by omega)]
      rw [List.flatMap_cons, runQueue_append hfirst]
      exact hrun' rounds (by omega)
    · have hreported : d'.reported o = some s.bytesTransferred := by
        unfold DeviceState.reported
        rw [hframe o hnot, hd₁, put_ops_self]
        rfl
      exact .cons hreq hreported (exact_transfer hexact) hserial
    · rw [List.mem_cons, not_or] at ho'
      rw [hframe o' ho'.2, hd₁, put_ops_ne _ ho'.1]

/-! ## The queue of a stream -/

/-- **A pipeline serves its request**, and leaves the ops of the monitor. -/
theorem pipeline_serves {hip : HipAsync} {env : StreamEnv} {blockDim N : ℕ} {world : World}
    {s₀ : StreamState} (hB : 0 < blockDim) (hlt : maxRwCount < 2 ^ 63)
    (hacc : asyncAccept maxRwCount req = .ok ()) (hM : env.maxRwCount = maxRwCount)
    (hno : ¬ Oversized maxRwCount req) (hs : Started maxRwCount req env.addr world s₀)
    (he : Enqueued hip req (bindStages req ++ copyStages blockDim req.type) [.cleanup])
    (hN : ∀ i, N ≤ i → ∀ count offset, env.ioOutcome req.type i count offset ≠ .error EINTR) :
    ∃ s R, Exact maxRwCount req env.client world s ∧
      s.monitor.submittedOps = s₀.monitor.submittedOps ∧
      ∀ rounds, R ≤ rounds → runStages env rounds
        (bindStages req ++ copyStages blockDim req.type ++ [.cleanup]) s₀ = (.finished, s) := by
  obtain ⟨s, R, hexact, hrun⟩ := pipeline_total hB hlt hacc hM hno hs hN
  refine ⟨s, R, hexact, ?_, hrun⟩
  obtain ⟨s₂, hbefore, hlast⟩ := finished_of_append (hrun R (Nat.le_refl R))
  have hkeeps := (run_keeps R hacc hM hs he).1
  rw [hbefore] at hkeeps
  rw [runStages_singleton] at hlast
  have hcleanup : asyncIoCleanup env s₂ = s := (Prod.mk.inj hlast).2
  rw [← hcleanup, cleanup_submittedOps, hkeeps]

/-- The launches of an op, from their stages. -/
theorem launches_eq {l : List Launch} (h : ∀ x ∈ l, x.op = o) :
    l = (l.map Launch.stage).map (Launch.mk o) := by
  induction l with
  | nil => rfl
  | cons x l ih =>
    have hx := h x List.mem_cons_self
    have hl := ih fun x hx => h x (List.mem_cons_of_mem _ hx)
    rw [List.map_cons, List.map_cons, ← hl, ← hx]

namespace Streams

/-- The launches of an op on a stream. -/
def block (s : Streams) (hipStream o : ℕ) : List Launch :=
  (s.queue hipStream).filter fun x => x.op = o

/-- The requests of the ops. -/
def requests (s : Streams) (o : ℕ) : Option AsyncRequest := (s.ops o).map SubmittedOp.request

variable {st : Streams} {op : SubmittedOp}

/-- **An op that has something in the queue**: it is as `async_io` has left it, and its stages are
in the queue, every one. -/
theorem pipeline_of_queued (hs : (machine maxRwCount).Reaches Registered st) {hipStream : ℕ}
    {bounce : ℕ → Mem} (hops : d.ops = st.opMemory maxRwCount bounce) {x : Launch}
    (hx : x ∈ st.queue hipStream)
    (hreturned : ∀ op, st.ops x.op = some op → op.phase = .returned) :
    ∃ op devPtr blockDim, st.ops x.op = some op ∧ asyncAccept maxRwCount op.request = .ok () ∧
      devPtr ≠ 0 ∧ 0 < blockDim ∧
      d.ops x.op = some
        ⟨AsyncOpFallback.construct maxRwCount op.request devPtr, bounce x.op, 0, [], []⟩ ∧
      st.block hipStream x.op =
        (bindStages op.request ++ copyStages blockDim op.request.type ++ [Stage.cleanup]).map
          (Launch.mk x.op) ∧
      Enqueued op.call.hip op.request
        (bindStages op.request ++ copyStages blockDim op.request.type) [.cleanup] := by
  obtain ⟨hreach, hshared⟩ := lockSuffices_of_registered hs
  obtain ⟨op, hop, rfl, -⟩ := (exclusion_of_reaches hreach).1.queued hipStream x hx
  -- the op has been accepted, and every launch of its pipeline has been made
  have hblock : st.block op.hipStream x.op = alone maxRwCount x.op op :=
    enqueued_of_returned hreach hop (hreturned op hop)
  have htry : op.reachesTry maxRwCount = true := by
    by_contra hnot
    have hmem : x ∈ st.block op.hipStream x.op := List.mem_filter.2 ⟨hx, by simp⟩
    rw [hblock, alone_of_not_reachesTry (Bool.eq_false_iff.2 hnot)] at hmem
    cases hmem
  obtain ⟨hacc, hpos, ⟨devPtr, halloc⟩, opPtr, hopPtr⟩ := reachesTry_iff.1 htry
  have hworking := (hshared.working x.op op hop).2
  have hsucceeds : Succeeds op.call.hip :=
    ⟨⟨devPtr, halloc⟩, ⟨opPtr, hopPtr⟩, hworking.1, hworking.2⟩
  obtain ⟨s₀, l, tail, hstarted, henqueued, hruns⟩ := asyncIo_run x.op .init 0
    (d.memory.world x.op) (bounce x.op) hacc hpos halloc
  obtain ⟨blockDim, hB, rfl, rfl⟩ := henqueued.all_of_succeeds hsucceeds
  obtain ⟨ptr, hptr, hconstruct⟩ := hstarted.op
  have hmem : ∀ y ∈ st.block op.hipStream x.op, y.op = x.op := fun y hy => by
    simpa using (List.mem_filter.1 hy).2
  refine ⟨op, ptr, blockDim, hop, hacc, hptr, hB, ?_, ?_, henqueued⟩
  · have hzero : (asyncIo maxRwCount op.call.hip x.op op.request
        (.start .init 0)).2.bytesTransferred = 0 := by
      have hstart := congrArg StreamState.bytesTransferred hruns.start
      exact hstart.trans hstarted.bytesTransferred
    rw [hops]
    unfold opMemory
    simp only [hop, Option.bind_some, hruns.op, Option.map_some, hzero, hconstruct]
  · rw [← hruns.launches, launches_eq hmem, hblock]
    rfl

/-- **An op that has something in the queue waits to be served.** -/
theorem awaiting (hs : (machine maxRwCount).Reaches Registered st) {hipStream N : ℕ}
    {bounce : ℕ → Mem} (hlt : maxRwCount < 2 ^ 63)
    (hM : ∀ o, (rt.env o).maxRwCount = maxRwCount ∧ (rt.env o).addr = o)
    (hN : ∀ o i, N ≤ i → ∀ type count offset,
      (rt.env o).ioOutcome type i count offset ≠ .error EINTR)
    (hops : d.ops = st.opMemory maxRwCount bounce) {x : Launch} (hx : x ∈ st.queue hipStream)
    (hreturned : ∀ op, st.ops x.op = some op → op.phase = .returned)
    (hsize : ∀ op, st.ops x.op = some op → ¬ Oversized maxRwCount op.request)
    (hmonitor : x.op ∈ d.monitor.submittedOps) :
    Awaiting maxRwCount rt st.requests (st.block hipStream) d x.op := by
  obtain ⟨op, devPtr, blockDim, hop, hacc, hptr, hB, hmemory, hblock, henqueued⟩ :=
    pipeline_of_queued hs hops hx hreturned
  obtain ⟨hM, haddr⟩ := hM x.op
  have hrequest : st.requests x.op = some op.request := by
    unfold requests
    rw [hop]
    rfl
  refine ⟨hmonitor, op.request, _, _, hrequest, hmemory, hblock, ?_⟩
  intro d' hsubmitted
  have hstarted : Started maxRwCount op.request (rt.env x.op).addr _
      (d'.streamState (rt.inode x.op)
        ⟨AsyncOpFallback.construct maxRwCount op.request devPtr, bounce x.op, 0, [], []⟩) :=
    ⟨⟨devPtr, hptr, rfl⟩, rfl, by rw [haddr]; exact hsubmitted, rfl, rfl, rfl⟩
  exact pipeline_serves hB hlt hacc hM (hsize op hop) hstarted henqueued
    fun i hi count offset => hN x.op i hi op.request.type count offset

/-- What a stream starts with: the ops as `async_io` has left them, those with enqueued stages
with the monitor. The system calls are interrupted finitely often. -/
structure Ready (maxRwCount : ℕ) (st : Streams) (hipStream : ℕ) (rt : Runtime) (d : DeviceState) :
    Prop where
  env : ∀ o, (rt.env o).maxRwCount = maxRwCount ∧ (rt.env o).addr = o
  interrupted : ∃ N, ∀ o i, N ≤ i → ∀ type count offset,
    (rt.env o).ioOutcome type i count offset ≠ .error EINTR
  ops : ∃ bounce, d.ops = st.opMemory maxRwCount bounce
  monitor : ∀ x ∈ st.queue hipStream, x.op ∈ d.monitor.submittedOps

/-- The calls that have enqueued stages on the stream have returned, and none was made with a
fixed size above the limit. -/
structure Quiet (maxRwCount : ℕ) (st : Streams) (hipStream : ℕ) : Prop where
  returned : ∀ x ∈ st.queue hipStream, ∀ op, st.ops x.op = some op → op.phase = .returned
  limited : ∀ x ∈ st.queue hipStream, ∀ op, st.ops x.op = some op →
    ¬ Oversized maxRwCount op.request

/-- **What the stream executes**, op by op. -/
theorem serial_of_registered (hs : (machine maxRwCount).Reaches Registered st) {hipStream : ℕ}
    (hlt : maxRwCount < 2 ^ 63) (hready : Ready maxRwCount st hipStream rt d)
    (hquiet : Quiet maxRwCount st hipStream) :
    ∃ (os : List ℕ) (d' : DeviceState) (R : ℕ), os.Nodup ∧
      (∀ o, o ∈ os ↔ ∃ x ∈ st.queue hipStream, x.op = o) ∧
      st.queue hipStream = os.flatMap (st.block hipStream) ∧
      (∀ rounds, R ≤ rounds → runQueue rt rounds (st.queue hipStream) d = (.finished, d')) ∧
      Serial maxRwCount st.requests rt d'.reported os d.memory d'.memory := by
  obtain ⟨os, hnodup, hmem, hblocks⟩ :=
    (contiguous_of_registered hs hipStream).blocks (Nat.le_refl _)
  obtain ⟨N, hN⟩ := hready.interrupted
  obtain ⟨bounce, hops⟩ := hready.ops
  have hall : ∀ o ∈ os, Awaiting maxRwCount rt st.requests (st.block hipStream) d o := by
    intro o ho
    obtain ⟨x, hx, rfl⟩ := (hmem o).1 ho
    exact awaiting hs hlt hready.env hN hops hx (hquiet.returned x hx) (hquiet.limited x hx)
      (hready.monitor x hx)
  obtain ⟨d', R, hrun, hserial, -⟩ := serial_run hnodup hall
  refine ⟨os, d', R, hnodup, hmem, hblocks, fun rounds hR => ?_, hserial⟩
  have hqueue : st.queue hipStream = os.flatMap (st.block hipStream) := hblocks
  rw [hqueue]
  exact hrun rounds hR

end Streams

end HipFile
