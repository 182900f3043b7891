import HipFile.Lib.Followed
import HipFile.Proof.AsyncActions
import HipFile.Proof.AsyncTransfer

/-!
# Whether the bytes reported are on stable storage

* `Event.Contributes`, `Event.Flushes`: a `pwrite` of bytes that are reported, and an
  `fdatasync` that has succeeded.
* `Fallback.ioImpl_flushed`: the loop of `_io_impl` flushes what it counts.
* `async_not_flushed`: the stages of an op flush nothing.
* `onStableStorage_iff`: so that a write is on stable storage exactly if it is synchronous.
-/

namespace HipFile

/-! ## Events -/

/-- A `pwrite` of the first `n` bytes from the offset, that has written something. -/
def Event.Contributes (fd fileOffset : ℤ) (n : ℕ) : Event → Prop
  | .pwrite fd' _ offset (.ok k) => fd' = fd ∧ 0 < k ∧ offset < fileOffset + n
  | _ => False

/-- An `fdatasync` that has succeeded. -/
def Event.Flushes (fd : ℤ) : Event → Prop
  | .fdatasync fd' (.ok _) => fd' = fd
  | _ => False

theorem not_contributes_of_flushes {fd fileOffset : ℤ} {n : ℕ} {e : Event} (h : e.Flushes fd) :
    ¬ e.Contributes fd fileOffset n := by
  cases e with
  | fdatasync fd' ret => exact fun h => h
  | _ => exact h.elim

/-- **All `pwrite`s of the first `n` bytes are followed by an `fdatasync`.** -/
def Flushed (fd fileOffset : ℤ) (n : ℕ) (calls : List Event) : Prop :=
  Followed (Event.Contributes fd fileOffset n) (Event.Flushes fd) calls

/-! ## The synchronous write -/

namespace Fallback

variable {env : Env} {file : IFile} {buffer : IBuffer} {size chunkSize : ℕ}
  {fileOffset bufferOffset : ℤ} {w : World} {s s' : LoopState}

/-- A round's transfer that returns has ended with an `fdatasync`. -/
theorem transfer_write_flushes {devicePos count n : ℕ} {offset : ℤ}
    (h : transfer env file .write devicePos count offset s = (.ok n, s')) :
    ∃ evs, s'.world.trace =
      s.world.trace ++ (evs ++ [.fdatasync file.bufferedFd (.ok ())]) := by
  obtain ⟨_, s₁, h₁, h⟩ := Prog.bind_eq_ok h
  obtain ⟨_, s₂, h₂, h⟩ := Prog.bind_eq_ok h
  obtain ⟨ioBytes, s₃, h₃, h⟩ := Prog.bind_eq_ok h
  obtain ⟨_, s₄, h₄, h⟩ := Prog.bind_eq_ok h
  cases h
  have hgrows {α : Type} {x : Round α} {s s' : LoopState} {a : α}
      (hx : Calls (fun _ => True) x) (h : x s = (.ok a, s')) :
      ∃ evs, s'.world.trace = s.world.trace ++ evs := by
    have hs := (hx s).1.1.trace
    rw [h] at hs
    obtain ⟨evs, hevs, -⟩ := hs
    exact ⟨evs, hevs⟩
  obtain ⟨evs₁, hevs₁⟩ := hgrows (calls_hipMemcpyDeviceToHost (fun _ => trivial) _ _) h₁
  obtain ⟨evs₂, hevs₂⟩ := hgrows (calls_hipStreamSynchronize fun _ => trivial) h₂
  obtain ⟨evs₃, hevs₃⟩ := hgrows (calls_pwrite fun _ => trivial) h₃
  have hlast : s'.world.trace = s₃.world.trace ++ [.fdatasync file.bufferedFd (.ok ())] := by
    unfold fdatasync World.fdatasync at h₄
    cases hd : env.sys.fdatasync s₃.world.calls with
    | ok u =>
      rw [hd] at h₄
      cases h₄
      rfl
    | error e =>
      rw [hd] at h₄
      cases h₄
  refine ⟨evs₁ ++ (evs₂ ++ evs₃), ?_⟩
  rw [hlast, hevs₃, hevs₂, hevs₁]
  simp only [List.append_assoc]

/-- **What has been counted has been flushed**: the loop's invariant, from the calls `tr₀`. -/
def FlushInv (w : World) (fd fileOffset : ℤ) (s : LoopState) : Prop :=
  ∃ tr, s.world.trace = w.trace ++ tr ∧ Flushed fd fileOffset s.totalIoBytes tr

/-- **A round keeps the invariant**: a round that is counted has flushed everything, and one
that is interrupted has written after the bytes counted. -/
theorem round_flushed (hI : FlushInv w file.bufferedFd fileOffset s) :
    (∀ s', round env file .write buffer size fileOffset bufferOffset chunkSize s = .inl s' →
      FlushInv w file.bufferedFd fileOffset s') ∧
    ∀ r, round env file .write buffer size fileOffset bufferOffset chunkSize s = .inr r →
      ∀ n, r.1 = .ok n → ∃ tr, r.2.trace = w.trace ++ tr ∧
        Flushed file.bufferedFd fileOffset n tr := by
  obtain ⟨tr, htr, hflushed⟩ := hI
  have hcalls := (calls_transfer env file .write
    (devicePosition buffer bufferOffset s.totalIoBytes) (min chunkSize (size - s.totalIoBytes))
    (fileOffset + s.totalIoBytes) s).1
  unfold round
  simp only
  split
  · rename_i ioBytes s₁ htransfer
    -- the last call of the round flushes all before it
    obtain ⟨evs, hevs⟩ := transfer_write_flushes htransfer
    have hnew : FlushInv w file.bufferedFd fileOffset
        { s₁ with totalIoBytes := s₁.totalIoBytes + ioBytes } := by
      refine ⟨tr ++ evs ++ [.fdatasync file.bufferedFd (.ok ())], ?_, ?_⟩
      · simp only
        rw [hevs, htr]
        simp only [List.append_assoc]
      · exact Followed.append_of_mem _ rfl (not_contributes_of_flushes rfl)
    split
    · refine Loop.leaves (Q := fun r : Outcome => ∀ n, r.1 = .ok n → ∃ tr,
        r.2.trace = w.trace ++ tr ∧ Flushed file.bufferedFd fileOffset n tr) ?_
      rintro n ⟨⟩
      exact hnew
    · refine loopTest_spec (fun _ => hnew) fun _ => ?_
      rintro n ⟨⟩
      exact hnew
  · rename_i e s₁ htransfer
    rw [htransfer] at hcalls
    obtain ⟨evs, hevs, hround⟩ := hcalls.1.trace
    have hnew : FlushInv w file.bufferedFd fileOffset s₁ := by
      refine ⟨tr ++ evs, ?_, ?_⟩
      · rw [hevs, htr, List.append_assoc]
      · rw [hcalls.2]
        refine hflushed.append_right fun ev hev hcontr => ?_
        have hcall := hround ev hev
        cases ev with
        | pwrite fd count offset ret =>
          cases ret with
          | ok k =>
            obtain ⟨-, -, hlt⟩ := hcontr
            obtain ⟨-, -, rfl⟩ := hcall
            omega
          | error e => exact hcontr
        | _ => exact hcontr
    split
    · refine loopTest_spec (fun _ => hnew) fun _ => ?_
      rintro n ⟨⟩
      exact hnew
    · refine Loop.leaves (Q := fun r : Outcome => ∀ n, r.1 = .ok n → ∃ tr,
        r.2.trace = w.trace ++ tr ∧ Flushed file.bufferedFd fileOffset n tr) ?_
      exact fun n h => by cases h
  · refine Loop.leaves (Q := fun r : Outcome => ∀ n, r.1 = .ok n → ∃ tr,
      r.2.trace = w.trace ++ tr ∧ Flushed file.bufferedFd fileOffset n tr) ?_
    exact fun n h => by cases h

/-- **The synchronous write flushes what it counts.** -/
theorem ioImpl_flushed {rounds n : ℕ} {w' : World}
    (h : ioImpl env rounds .write file buffer size fileOffset bufferOffset chunkSize w =
      .inr (.ok n, w')) :
    ∃ tr, w'.trace = w.trace ++ tr ∧ Flushed file.bufferedFd fileOffset n tr := by
  unfold ioImpl at h
  split at h
  · cases h
  · rename_i region _
    split at h
    · cases h
    · rename_i w₀ hmmap
      have hstart : FlushInv w file.bufferedFd fileOffset ⟨w₀, fun _ => 0, 0⟩ := by
        refine ⟨[.mmap (env.sys.mmap w.calls)], ?_, ?_⟩
        · have hw₀ : (w.mmap env.sys).2 = w₀ := congrArg Prod.snd hmmap
          rw [← hw₀]
          rfl
        · exact Followed.append_right (Followed.nil _ _) fun e he => by
            rw [List.mem_singleton.1 he]
            exact fun hcontr => hcontr
      have hloop := (@Loop.iter_inv _ _
        (round env file .write buffer region.size fileOffset bufferOffset chunkSize) _ _
        (fun s s' hI hround => (round_flushed hI).1 s' hround)
        (fun s r hI hround => (round_flushed hI).2 r hround) rounds _ hstart).2
      split at h
      · cases h
      · rename_i total w₁ hiter
        cases h
        obtain ⟨tr, htr, hflushed⟩ := hloop _ hiter _ rfl
        refine ⟨tr, ?_, hflushed⟩
        rw [World.statsAddFallbackPath, World.addStats_trace]
        exact htr
      · cases h

end Fallback

/-! ## The asynchronous write -/

variable {env : StreamEnv} {maxRwCount : ℕ} {req : AsyncRequest} {params : Params}
  {s s' : StreamState}

/-- A `pwrite` of the first bytes. -/
def Event.Starts (fd fileOffset : ℤ) : Event → Prop
  | .pwrite fd' _ offset (.ok k) => fd' = fd ∧ 0 < k ∧ offset = fileOffset
  | _ => False

theorem Event.Starts.contributes {fd fileOffset : ℤ} {n : ℕ} {e : Event} (hn : 0 < n)
    (h : e.Starts fd fileOffset) : e.Contributes fd fileOffset n := by
  cases e with
  | pwrite fd' count offset ret =>
    cases ret with
    | ok k =>
      obtain ⟨hfd, hk, rfl⟩ := h
      exact ⟨hfd, hk, by omega⟩
    | error e => exact h
  | _ => exact h

/-- **A positive status has been written**, from the file offset on. -/
def StartInv (world : World) (fd fileOffset : ℤ) (status : ℤ) (w : World) : Prop :=
  ∃ tr, w.trace = world.trace ++ tr ∧ (0 < status → ∃ e ∈ tr, e.Starts fd fileOffset)

/-- The system call of a round of a write. -/
theorem copyCall_write (env : StreamEnv) (s : StreamState) (pos count : ℕ) (offset : ℤ)
    (htype : s.op.ioType = .write) : ∃ s', copyCall env s pos count offset =
        (env.sys.pwrite s.world.calls count offset, s') ∧ s'.op = s.op ∧
      s'.world.trace = s.world.trace ++
        [.pwrite s.op.file.bufferedFd count offset
          (env.sys.pwrite s.world.calls count offset)] := by
  obtain ⟨w', hcall, -, htrace, -⟩ :=
    pwrite_eq s.world env.sys s.op.file.bufferedFd (s.view env) pos count offset
  unfold copyCall
  simp only [htype, hcall]
  exact ⟨_, rfl, rfl, htrace⟩

/-- The copy loop keeps it: its first bytes are written at the file offset. -/
theorem copyRound_starts {world : World} {size : ℕ} {fileOffset : ℤ} {op : AsyncOpFallback}
    {c : CopyState} (htype : op.ioType = .write) (hop : c.state.op = op)
    (hI : StartInv world op.file.bufferedFd fileOffset c.bytesTransferred c.state.world) :
    (∀ c', copyRound env size fileOffset c = .inl c' → c'.state.op = op ∧
      StartInv world op.file.bufferedFd fileOffset c'.bytesTransferred c'.state.world) ∧
    ∀ s', copyRound env size fileOffset c = .inr s' →
      StartInv world op.file.bufferedFd fileOffset s'.op.bytesTransferredInternal s'.world := by
  obtain ⟨tr, htr, hstart⟩ := hI
  have hle := toSsizeT_le c.bytesTransferred
  have hkeep (ev : Event) (hpos : 0 < (c.bytesTransferred : ℤ)) :
      ∃ e ∈ tr ++ [ev], e.Starts op.file.bufferedFd fileOffset :=
    (hstart hpos).imp fun e he => ⟨List.mem_append_left _ he.1, he.2⟩
  unfold copyRound
  split
  · obtain ⟨s₁, hcall, hop₁, htrace⟩ := copyCall_write env c.state c.bytesTransferred
      (size - c.bytesTransferred) (fileOffset + c.bytesTransferred) (by rw [hop]; exact htype)
    rw [hcall]
    rw [htr, List.append_assoc, hop] at htrace
    cases hret : env.sys.pwrite c.state.world.calls (size - c.bytesTransferred)
        (fileOffset + c.bytesTransferred) with
    | error e =>
      rw [hret] at htrace
      simp only
      by_cases he : e = EINTR
      · rw [if_pos he]
        exact Loop.goesOn ⟨hop₁.trans hop, _, htrace, hkeep _⟩
      · rw [if_neg he]
        refine Loop.leaves ⟨_, htrace, fun hpos => ?_⟩
        exact absurd hpos (by decide : ¬ (0 : ℤ) < -1)
    | ok ret =>
      rw [hret] at htrace
      simp only
      by_cases hzero : ret = 0
      · rw [if_pos hzero]
        refine Loop.leaves ⟨_, htrace, fun hpos => hkeep _ ?_⟩
        exact Int.lt_of_lt_of_le hpos hle
      · rw [if_neg hzero]
        refine Loop.goesOn ⟨hop₁.trans hop, _, htrace, fun _ => ?_⟩
        by_cases hfirst : c.bytesTransferred = 0
        · -- the first bytes
          refine ⟨_, List.mem_append_right _ (List.mem_singleton.2 rfl), rfl, by omega, ?_⟩
          rw [hfirst]
          exact Int.add_zero fileOffset
        · exact hkeep _ (by omega)
  · refine Loop.leaves ⟨tr, htr, fun hpos => hstart ?_⟩
    exact Int.lt_of_lt_of_le hpos hle

theorem StartInv.grows {world w w' : World} {fd fileOffset status : ℤ} {P : Event → Prop}
    (h : StartInv world fd fileOffset status w) (hgrows : World.Grows P w w') :
    StartInv world fd fileOffset status w' := by
  obtain ⟨tr, htr, hstart⟩ := h
  obtain ⟨evs, hevs, -⟩ := hgrows.trace
  refine ⟨tr ++ evs, by rw [hevs, htr, List.append_assoc], fun hpos => ?_⟩
  exact (hstart hpos).imp fun e he => ⟨List.mem_append_left _ he.1, he.2⟩

/-- The copy keeps it. -/
theorem cpuCopy_starts {world : World} (rounds : ℕ) (hb : Bound maxRwCount req params s.op)
    (htype : req.type = .write)
    (hI : StartInv world req.file.bufferedFd params.fileOffset s.op.bytesTransferredInternal
      s.world) :
    StartInv world req.file.bufferedFd params.fileOffset
      (asyncIoCpuCopy env rounds s).2.op.bytesTransferredInternal
      (asyncIoCpuCopy env rounds s).2.world := by
  by_cases hst : s.op.bytesTransferredInternal < 0
  · rw [cpuCopy_of_error env rounds hb hst]
    exact hI
  have hgrows := cpuCopy_grows env rounds s
  have hfile : s.op.file.bufferedFd = req.file.bufferedFd := by rw [hb.file]
  have htype' : s.op.ioType = .write := hb.ioType.trans htype
  have hstart : StartInv world s.op.file.bufferedFd params.fileOffset (0 : ℕ) s.world := by
    obtain ⟨tr, htr, -⟩ := hI
    exact ⟨tr, htr, fun hpos => absurd hpos (by decide)⟩
  have hloop := @Loop.iter_inv _ _ (copyRound env params.size params.fileOffset)
    (fun c => c.state.op = s.op ∧ StartInv world s.op.file.bufferedFd params.fileOffset
      c.bytesTransferred c.state.world)
    (fun s' => StartInv world s.op.file.bufferedFd params.fileOffset
      s'.op.bytesTransferredInternal s'.world)
    (fun c c' hc h => (copyRound_starts htype' hc.1 hc.2).1 c' h)
    (fun c s' hc h => (copyRound_starts htype' hc.1 hc.2).2 s' h) rounds ⟨s, 0⟩ ⟨rfl, hstart⟩
  rw [asyncIoCpuCopy_eq rounds hb (by omega)] at hgrows ⊢
  rw [← hfile] at hI ⊢
  cases hiter : Loop.iter (copyRound env params.size params.fileOffset) rounds ⟨s, 0⟩ with
  | inl c =>
    -- still running: the status is as before
    rw [hiter] at hgrows
    have hstatus := congrArg AsyncOpFallback.bytesTransferredInternal (hloop.1 c hiter).1
    simp only [hstatus]
    exact hI.grows hgrows
  | inr s' => exact hloop.2 s' hiter

/-- The kernel keeps it: it sets no positive status. -/
theorem kernel_starts {world : World} {s₁ : StreamState} (blockDim : ℕ)
    (hok : OffsetsOk req params) (hs : Staged maxRwCount req params s₁ s)
    (hI : StartInv world req.file.bufferedFd params.fileOffset s.op.bytesTransferredInternal
      s.world) :
    StartInv world req.file.bufferedFd params.fileOffset
      (hipFileMemcpyKernel env blockDim s).op.bytesTransferredInternal
      (hipFileMemcpyKernel env blockDim s).world := by
  by_cases hst : s.op.bytesTransferredInternal < 0
  · rw [kernel_of_error env blockDim hst]
    exact hI
  · obtain ⟨n, hn⟩ := Int.eq_ofNat_of_zero_le (Int.not_lt.1 hst)
    have hlt := hs.status_lt
    have hrun := kernel_spec env blockDim hs.bound hok hn (by omega)
    rw [hrun.op]
    exact hI.grows (memcpyKernel_grows env blockDim s)

/-- **The copies of an op** write what they count, from the file offset on. -/
theorem copies_start {rounds : ℕ} {copies : List Stage} {s₁ : StreamState}
    (hok : OffsetsOk req params) (htype : req.type = .write)
    (hmoves : ∀ stage ∈ copies, stage.Moves)
    (hs : Staged maxRwCount req params s₁ s₁) (hst : s₁.op.bytesTransferredInternal = 0) :
    StartInv s₁.world req.file.bufferedFd params.fileOffset
      (runStages env rounds copies s₁).2.op.bytesTransferredInternal
      (runStages env rounds copies s₁).2.world := by
  have hstart : StartInv s₁.world req.file.bufferedFd params.fileOffset
      s₁.op.bytesTransferredInternal s₁.world :=
    ⟨[], (List.append_nil _).symm, fun hpos => by omega⟩
  have hinv := runStages_inv env rounds
    (I := fun s => Staged maxRwCount req params s₁ s ∧ StartInv s₁.world req.file.bufferedFd
      params.fileOffset s.op.bytesTransferredInternal s.world) (l := copies)
      (fun stage hmem s h => by
    obtain ⟨hp, hstaged⟩ := h.1.run env rounds hok (hmoves stage hmem)
    refine ⟨hp, hstaged, ?_⟩
    cases stage with
    | cpuCopy => exact cpuCopy_starts rounds h.1.bound htype h.2
    | memcpyKernel blockDim => exact kernel_starts blockDim hok h.1 h.2
    | bindParams => exact (hmoves _ hmem).elim
    | cleanup => exact (hmoves _ hmem).elim) s₁ ⟨hs, hstart⟩
  exact hinv.2.2

/-- No stage makes a call that flushes. -/
theorem runStages_grows (env : StreamEnv) (rounds : ℕ) : ∀ (l : List Stage) (s : StreamState),
    World.Grows Event.Copies s.world (runStages env rounds l s).2.world := by
  intro l
  induction l with
  | nil => exact fun s => World.Grows.refl _ _
  | cons stage l ih =>
    intro s
    have hstage := Stage.run_grows env rounds s stage
    unfold runStages
    rcases hrun : stage.run env rounds s with ⟨p, s'⟩
    rw [hrun] at hstage
    cases p with
    | finished => exact hstage.trans (ih s')
    | running => exact hstage
    | fault => exact hstage

variable {hip : HipAsync} {monitor : AsyncMonitor} {bytesTransferred : ℤ} {rounds : ℕ}
  {world : World} {bounce : Mem}

/-- An op that reports bytes has started to write them, and has flushed nothing. -/
theorem async_not_flushed (htype : req.type = .write)
    (hacc : Fallback.asyncAccept maxRwCount req = .ok ()) (hM : env.maxRwCount = maxRwCount)
    (hrun : (Fallback.asyncIo maxRwCount hip env.addr req (.start monitor bytesTransferred)).2.run
      env rounds world bounce = some (.finished, s)) (hpos : 0 < s.bytesTransferred) :
    ∃ tr, s.world.trace = world.trace ++ tr ∧ ¬ Flushed req.file.bufferedFd
      (req.bound maxRwCount env.client).fileOffset s.bytesTransferred.toNat tr := by
  obtain ⟨hsize, devPtr, halloc⟩ := Fallback.allocated_of_run hacc hrun
  obtain ⟨s₀, l, tail, hs, he, hruns⟩ :=
    Fallback.asyncIo_run env.addr monitor bytesTransferred world bounce hacc hsize halloc
  have hfin := Option.some.inj ((hruns.run env rounds).symm.trans hrun)
  have hgrows := runStages_grows env rounds (l ++ tail) s₀
  rw [hfin, hs.world] at hgrows
  obtain ⟨tr, htr, hcopies⟩ := hgrows.trace
  refine ⟨tr, htr, ?_⟩
  -- the status has been published, and its first bytes have been written
  have hstarts : ∃ e ∈ tr, e.Starts req.file.bufferedFd
      (req.bound maxRwCount env.client).fileOffset := by
    rcases Fallback.run_published hacc hM hs he hfin with ⟨-, h0⟩ | ⟨rfl, s₂, hl, hpub, hw⟩
    · omega
    · obtain ⟨devPtr, hptr, hop⟩ := hs.op
      rcases he.shape.2 with rfl | ⟨copies, rfl, hmoves⟩
      · obtain rfl := (Prod.mk.inj hl).2
        have hzero : s₀.op.bytesTransferredInternal = 0 := by rw [hop]; rfl
        omega
      · obtain ⟨s₁, hbind, hbound⟩ := bindStages_spec hacc hM hptr hop
        rw [runStages_append_finished (hbind rounds)] at hl
        have hworld : s₁.world = world := by
          rw [hbound.others]
          exact hs.world
        rcases hbound.status with ⟨hst, hoff, -⟩ | ⟨hst, -, -⟩
        · obtain ⟨tr', htr', hstart⟩ := copies_start hoff htype hmoves (hs.staged hbound hst) hst
          rw [hl, hworld, ← hw, htr, List.append_cancel_left_eq] at htr'
          rw [hl] at hstart
          rw [htr']
          exact hstart (hpub ▸ hpos)
        · have hneg := invalidValueStatus_neg
          rw [runStages_of_error env rounds hbound.bound (by omega) copies hmoves] at hl
          obtain rfl := (Prod.mk.inj hl).2
          omega
  obtain ⟨e, he, hstart⟩ := hstarts
  refine Followed.not_of_forall he (hstart.contributes (by omega)) fun e' he' hflush => ?_
  have hcopy := hcopies e' he'
  cases e' with
  | fdatasync fd ret => exact hcopy
  | _ => exact hflush

/-! ## Both kinds of writes -/

/-- A write that the fallback serves: a call of `_io_impl`, or an op on its stream. -/
inductive FallbackWrite
  | sync (env : Env) (rounds : ℕ) (file : IFile) (buffer : IBuffer) (size : ℕ)
      (fileOffset bufferOffset : ℤ) (chunkSize : ℕ) (world : World)
  | async (hip : HipAsync) (req : AsyncRequest) (htype : req.type = .write)
      (monitor : AsyncMonitor) (bytesTransferred : ℤ) (env : StreamEnv) (rounds : ℕ)
      (world : World) (bounce : Mem)

/-- What is reported of a write: the file's buffered descriptor, the file offset, the bytes
written, and the calls made before the report. -/
structure WriteReport where
  fd : ℤ
  fileOffset : ℤ
  bytes : ℤ
  calls : List Event

/-- The report of a write, if it comes to one: the value returned, or `*bytes_transferred`. -/
def FallbackWrite.report : FallbackWrite → Option WriteReport
  | .sync env rounds file buffer size fileOffset bufferOffset chunkSize world =>
    match Fallback.ioImpl env rounds .write file buffer size fileOffset bufferOffset chunkSize
        world with
    | .inr (.ok n, w) => some ⟨file.bufferedFd, fileOffset, n, w.trace.drop world.trace.length⟩
    | _ => none
  | .async hip req _ monitor bytesTransferred env rounds world bounce =>
    match (Fallback.asyncIo env.maxRwCount hip env.addr req
        (.start monitor bytesTransferred)).2.run env rounds world bounce with
    | some (.finished, s) => some ⟨req.file.bufferedFd,
        (req.bound env.maxRwCount env.client).fileOffset, s.bytesTransferred,
        s.world.trace.drop world.trace.length⟩
    | _ => none

/-- The write is a call of `_io_impl`. -/
def FallbackWrite.Synchronous : FallbackWrite → Prop
  | .sync .. => True
  | .async .. => False

/-- The bytes reported are on stable storage. -/
def WriteReport.OnStableStorage (r : WriteReport) : Prop :=
  Flushed r.fd r.fileOffset r.bytes.toNat r.calls

/-- **The bytes that a write reports are on stable storage** exactly if it is synchronous. -/
theorem onStableStorage_iff (x : FallbackWrite) (r : WriteReport) (h : x.report = some r)
    (hpos : 0 < r.bytes) : r.OnStableStorage ↔ x.Synchronous := by
  cases x with
  | sync env rounds file buffer size fileOffset bufferOffset chunkSize world =>
    refine ⟨fun _ => trivial, fun _ => ?_⟩
    simp only [FallbackWrite.report] at h
    split at h
    · rename_i n w hio
      obtain ⟨tr, htr, hflushed⟩ := Fallback.ioImpl_flushed hio
      cases h
      simp only [WriteReport.OnStableStorage, htr, List.drop_left, Int.toNat_natCast]
      exact hflushed
    · cases h
  | async hip req htype monitor bytesTransferred env rounds world bounce =>
    refine ⟨fun hstable => ?_, fun hsync => hsync.elim⟩
    simp only [FallbackWrite.report] at h
    split at h
    · rename_i s hrun
      cases h
      have hacc : Fallback.asyncAccept env.maxRwCount req = .ok () := by
        cases hacc : Fallback.asyncAccept env.maxRwCount req with
        | ok u => rfl
        | error e => simp [Fallback.asyncIo, hacc, Submission.run, Submission.start] at hrun
      obtain ⟨tr, htr, hnot⟩ := async_not_flushed htype hacc rfl hrun hpos
      rw [WriteReport.OnStableStorage, htr, List.drop_left] at hstable
      exact hnot hstable
    · cases h

/-- A synchronous write of twelve bytes, in short writes, of which the `fdatasync` of one is
interrupted. -/
def syncWrite : FallbackWrite :=
  .sync Fallback.shortCountsEnv 9 Fallback.sampleFile Fallback.sampleBuffer.toIBuffer 12 2 4 4
    Fallback.tenBytes

/-- An asynchronous write of sixteen bytes. -/
def asyncWrite : FallbackWrite :=
  .async Fallback.workingHip { Fallback.sampleRequest with type := .write } rfl .init 0
    (Fallback.streamEnv 0x7ffff000 Fallback.wholeSys Fallback.sampleRequest.params fun _ => 0) 2
    Fallback.tenBytes fun _ => 0

theorem onStableStorage_syncWrite :
    ∃ r, syncWrite.report = some r ∧ r.bytes = 12 ∧ r.OnStableStorage :=
  ⟨_, rfl, rfl, (onStableStorage_iff syncWrite _ rfl (by decide)).2 trivial⟩

/-- The asynchronous write reports sixteen bytes after one `pwrite`, and no `fdatasync`. -/
theorem not_onStableStorage_asyncWrite : ∃ r, asyncWrite.report = some r ∧ r.bytes = 16 ∧
    r.calls = [.pwrite 3 16 0 (.ok 16)] ∧ ¬ r.OnStableStorage := by
  refine ⟨⟨3, 0, 16, [.pwrite 3 16 0 (.ok 16)]⟩, rfl, rfl, rfl, ?_⟩
  refine Followed.not_of_forall List.mem_cons_self ⟨rfl, by decide, by decide⟩ fun e he hflush => ?_
  rw [List.mem_singleton.1 he] at hflush
  exact hflush

end HipFile
