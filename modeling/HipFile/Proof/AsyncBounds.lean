import HipFile.Proof.AsyncPipeline

/-!
# The bytes that an asynchronous request accesses

* `InBuffers`: every access of a run is inside the bounce buffer and the region.
* `run_inBuffers`: it is, unless a fixed size is larger than the limit.
* `exists_not_inBuffers`: and then it is not.
* `inBuffers_iff`: both together.
-/

namespace HipFile.Fallback

variable {env : StreamEnv} {rounds maxRwCount : ℕ} {req : AsyncRequest} {hip : HipAsync}
  {s s₀ : StreamState} {l tail : List Stage}

/-- **Every access is inside its buffer**: in the bounce buffer below the size with which it
was allocated, and in the GPU buffer inside the region that the client has asked for. -/
structure InBuffers (maxRwCount : ℕ) (req : AsyncRequest) (client : Params) (s : StreamState) :
    Prop where
  bounce : ∀ sp ∈ s.bounceAccesses, ∀ i, sp.Covers i → i < min req.params.size maxRwCount
  gpu : ∀ sp ∈ s.gpuAccesses, ∀ i, sp.Covers i →
    (req.bound maxRwCount client).bufferOffset.val.toNat ≤ i ∧
      i < (req.bound maxRwCount client).bufferOffset.val.toNat +
        min (req.requestedSize client) maxRwCount ∧ i < req.buffer.getLength

theorem inBuffers_of_nil {client : Params} (hb : s.bounceAccesses = []) (hg : s.gpuAccesses = []) :
    InBuffers maxRwCount req client s := by
  refine ⟨fun sp hsp => ?_, fun sp hsp => ?_⟩
  · rw [hb] at hsp
    cases hsp
  · rw [hg] at hsp
    cases hsp

/-- The cleanup accesses neither buffer. -/
theorem cleanup_inBuffers {client : Params} (htail : tail = [] ∨ tail = [.cleanup])
    (h : InBuffers maxRwCount req client s) :
    InBuffers maxRwCount req client (runStages env rounds tail s).2 := by
  rcases htail with rfl | rfl
  · exact h
  · have hacc : (asyncIoCleanup env s).bounceAccesses = s.bounceAccesses ∧
        (asyncIoCleanup env s).gpuAccesses = s.gpuAccesses := by
      unfold asyncIoCleanup
      split <;> exact ⟨rfl, rfl⟩
    simp only [runStages, Stage.run]
    exact ⟨hacc.1 ▸ h.bounce, hacc.2 ▸ h.gpu⟩

/-- The size that the stages work with, unless it escapes the limit. -/
theorem bound_size (hno : ¬ Oversized maxRwCount req) (client : Params) :
    (req.bound maxRwCount client).size = min (req.requestedSize client) maxRwCount := by
  unfold AsyncRequest.bound
  by_cases hfix : req.stream.allFixed = true
  · have hle : req.params.size ≤ maxRwCount := Nat.not_lt.1 fun h => hno ⟨hfix, h⟩
    simp only [if_pos hfix]
    simp only [IStream.allFixed, Bool.and_eq_true] at hfix
    rw [AsyncRequest.requestedSize, if_pos hfix.2, Nat.min_eq_left hle]
  · simp only [if_neg hfix]

/-- **Inside a region that is valid the accesses of `Staged` are inside the buffers.** -/
theorem staged_inBuffers {client : Params} (hno : ¬ Oversized maxRwCount req)
    (hok : RegionOk maxRwCount req (req.bound maxRwCount client))
    (h : Staged maxRwCount req (req.bound maxRwCount client) s₀ s) :
    InBuffers maxRwCount req client s := by
  obtain ⟨hsub, hvalid⟩ := hok
  obtain ⟨-, -, -, hlen⟩ := (paramsValid_iff (req.bound maxRwCount client).bufferOffset.2).1 hvalid
  refine ⟨fun sp hsp i hi => ?_, fun sp hsp i hi => ?_⟩
  · exact Nat.lt_of_lt_of_le (h.bounceAccesses sp hsp i hi) hsub
  · obtain ⟨hge, hlt⟩ := h.gpuAccesses sp hsp i hi
    rw [← bound_size hno client]
    exact ⟨hge, hlt, Nat.lt_of_lt_of_le hlt hlen⟩

/-- **The run of an op stays inside its buffers**, unless a fixed size escapes the limit. -/
theorem run_inBuffers {world : World} (rounds : ℕ) (hacc : asyncAccept maxRwCount req = .ok ())
    (hM : env.maxRwCount = maxRwCount) (hno : ¬ Oversized maxRwCount req)
    (hs : Started maxRwCount req env.addr world s₀) (he : Enqueued hip req l tail) :
    InBuffers maxRwCount req env.client (runStages env rounds (l ++ tail) s₀).2 := by
  obtain ⟨htail, hl⟩ := he.shape
  refine runStages_append_keeps ?_ fun s h => cleanup_inBuffers htail h
  rcases hl with rfl | ⟨copies, rfl, hmoves⟩
  · exact inBuffers_of_nil hs.bounceAccesses hs.gpuAccesses
  obtain ⟨devPtr, hptr, hop⟩ := hs.op
  obtain ⟨s₁, hbind, hbound⟩ := bindStages_spec hacc hM hptr hop
  rw [runStages_append_finished (hbind rounds)]
  rcases hbound.status with ⟨hst, hoff, hregion⟩ | ⟨hst, -, -⟩
  · have hrun := runStages_inv env rounds
      (fun stage hmem s hs => hs.run env rounds hoff (hmoves stage hmem)) s₁ (hs.staged hbound hst)
    exact staged_inBuffers hno (hregion.resolve_right hno) hrun.2
  · -- after an error the stages access nothing
    rw [runStages_of_error env rounds hbound.bound (hst ▸ invalidValueStatus_neg) copies hmoves]
    refine inBuffers_of_nil ?_ ?_
    · rw [hbound.others]
      exact hs.bounceAccesses
    · rw [hbound.others]
      exact hs.gpuAccesses

/-! ## A fixed size above the limit -/

/-- System calls that transfer all they are asked to. -/
def wholeSys : Sys where
  mmap _ := .ok ()
  pread _ count _ := .ok count
  pwrite _ count _ := .ok count
  fdatasync _ := .ok ()
  pread_le h := by cases h; exact Nat.le_refl _
  pwrite_le h := by cases h; exact Nat.le_refl _

/-- The stages of the op at address 64, whose kernel copies in thread order. -/
def streamEnv (maxRwCount : ℕ) (sys : Sys) (client : Params) (stray : Mem) : StreamEnv :=
  ⟨maxRwCount, sys, client, stray, id, 64, fun l => List.Perm.refl l⟩

theorem succeeds_workingHip : Succeeds workingHip :=
  ⟨⟨8192, rfl, rfl, rfl⟩, ⟨12288, rfl⟩, ⟨1024, rfl⟩, fun _ => rfl⟩

/-- A first round that transfers the whole size accesses all of it. -/
theorem copyRound_whole {size : ℕ} (env : StreamEnv) (s : StreamState) (fileOffset : ℤ)
    (hpos : 0 < size)
    (hret : ∀ i count offset, env.ioOutcome s.op.ioType i count offset = .ok count) :
    ∃ c, copyRound env size fileOffset ⟨s, 0⟩ = .inl c ∧
      c.state.bounceAccesses = s.bounceAccesses ++ [⟨0, size⟩] := by
  obtain ⟨s', hcall, hcalled⟩ := copyCall_spec env s 0 (size - 0) (fileOffset + (0 : ℕ))
  rw [hret] at hcall hcalled
  refine ⟨⟨s', 0 + (size - 0)⟩, ?_, hcalled.bounceAccesses⟩
  unfold copyRound
  rw [if_pos hpos, hcall]
  simp only
  rw [if_neg (by omega)]

/-- **With a fixed size above the limit the run leaves the bounce buffer.** -/
theorem exists_not_inBuffers (world : World) (bounce : Mem)
    (hacc : asyncAccept maxRwCount req = .ok ()) (hover : Oversized maxRwCount req) :
    ∃ env rounds p s, env.maxRwCount = maxRwCount ∧
      (asyncIo maxRwCount workingHip env.addr req (.start .init 0)).2.run env rounds world bounce =
        some (p, s) ∧ ¬ InBuffers maxRwCount req env.client s := by
  obtain ⟨hfix, hlt⟩ := hover
  set env := streamEnv maxRwCount wholeSys req.params (fun _ => 0) with henv
  have halloc : Allocated workingHip 8192 := ⟨rfl, rfl, rfl⟩
  obtain ⟨s₀, l, tail, hs, he, hruns⟩ :=
    asyncIo_run env.addr .init 0 world bounce hacc (Nat.ne_of_gt (Nat.zero_lt_of_lt hlt)) halloc
  obtain ⟨blockDim, hB, rfl, rfl⟩ := he.all_of_succeeds succeeds_workingHip
  obtain ⟨devPtr, hptr, hop⟩ := hs.op
  have hbound := paramsBound_fixed req.params hacc hfix hptr hop
  have hsize : (req.bound maxRwCount req.params).size = req.params.size := if_pos hfix
  have hst : s₀.op.bytesTransferredInternal = 0 := by rw [hop]; rfl
  have hnil : bindStages req = [] := if_pos hfix
  have hmin : min req.params.size maxRwCount = maxRwCount := Nat.min_eq_right (Nat.le_of_lt hlt)
  have hoff : OffsetsOk req (req.bound maxRwCount req.params) := by
    rcases hbound.status with ⟨-, h, -⟩ | ⟨h, -⟩
    · exact h
    · exact absurd (hst.symm.trans h) (by decide)
  cases htype : req.type with
  | read =>
    -- the first `pread` fills the bounce buffer and goes on behind it
    have hpos : 0 < req.params.size := Nat.zero_lt_of_lt hlt
    obtain ⟨c, hround, haccess⟩ := copyRound_whole env s₀
      (req.bound maxRwCount req.params).fileOffset.val hpos
      (by rw [hbound.bound.ioType, htype]; exact fun _ _ _ => rfl)
    have hcopy : asyncIoCpuCopy env 1 s₀ = (.running, c.state) := by
      rw [asyncIoCpuCopy_eq 1 hbound.bound hst.ge, hsize, Loop.iter_succ_inl hround]
      rfl
    refine ⟨env, 1, .running, c.state, rfl, ?_, fun hin => ?_⟩
    · rw [hruns.run env 1, hnil, htype]
      simp [copyStages, runStages, Stage.run, hcopy]
    · have hspan := hin.bounce ⟨0, req.params.size⟩
        (by rw [haccess]; exact List.mem_append_right _ (List.mem_singleton.2 rfl)) maxRwCount
        ⟨Nat.zero_le _, by simpa using hlt⟩
      omega
  | write =>
    -- the kernel fills the bounce buffer and goes on behind it
    have hker := kernel_spec_zero env blockDim hbound.bound hoff hst
    set s₁ := hipFileMemcpyKernel env blockDim s₀ with hs₁
    have hop₁ := hker.op
    have hcopy : asyncIoCpuCopy env 0 s₁ = (.running, s₁) :=
      asyncIoCpuCopy_eq 0 (hop₁ ▸ hbound.bound) (hop₁ ▸ hst.ge)
    refine ⟨env, 0, .running, s₁, rfl, ?_, fun hin => ?_⟩
    · rw [hruns.run env 0, hnil, htype]
      simp [copyStages, runStages, Stage.run, ← hs₁, hcopy]
    · obtain ⟨sp, hsp, hcov⟩ := (covers_kernelSpans hB maxRwCount).2 hlt
      have hspan := hin.bounce sp (by
        rw [hker.bounceAccesses, htype]
        simp only [kernelSize, hsize]
        exact List.mem_append_right _ ((env.order_perm _).mem_iff.2 hsp)) maxRwCount hcov
      omega

/-- **When an accepted request stays inside its buffers**: unless everything is fixed and the
size is larger than `getMaxRwCount()`. -/
theorem inBuffers_iff (maxRwCount : ℕ) (req : AsyncRequest)
    (hacc : asyncAccept maxRwCount req = .ok ()) :
    (∀ hip env monitor bytesTransferred rounds world bounce p s, env.maxRwCount = maxRwCount →
      (asyncIo maxRwCount hip env.addr req (.start monitor bytesTransferred)).2.run env rounds world
        bounce = some (p, s) → InBuffers maxRwCount req env.client s) ↔
      ¬ Oversized maxRwCount req := by
  constructor
  · intro hall hover
    obtain ⟨env, rounds, p, s, hM, hrun, hnot⟩ :=
      exists_not_inBuffers tenBytes (fun _ => 0) hacc hover
    exact hnot (hall workingHip env .init 0 rounds tenBytes _ p s hM hrun)
  · intro hno hip env monitor bytesTransferred rounds world bounce p s hM hrun
    obtain ⟨hsize, devPtr, halloc⟩ := allocated_of_run hacc hrun
    obtain ⟨s₀, l, tail, hs, he, hruns⟩ :=
      asyncIo_run env.addr monitor bytesTransferred world bounce hacc hsize halloc
    have hin := run_inBuffers rounds hacc hM hno hs he
    have heq := Option.some.inj ((hruns.run env rounds).symm.trans hrun)
    rwa [heq] at hin

/-- The sample read stays inside its buffers. -/
theorem inBuffers_sampleRequest : ¬ Oversized 0x7ffff000 sampleRequest ∧
    ∀ hip env monitor bytesTransferred rounds world bounce p s, env.maxRwCount = 0x7ffff000 →
      (asyncIo 0x7ffff000 hip env.addr sampleRequest (.start monitor bytesTransferred)).2.run env
        rounds world bounce = some (p, s) → InBuffers 0x7ffff000 sampleRequest env.client s :=
  have hno : ¬ Oversized 0x7ffff000 sampleRequest := fun h => (by cases h.1)
  ⟨hno, (inBuffers_iff 0x7ffff000 sampleRequest rfl).2 hno⟩

/-- A write of one byte more than the limit, with everything fixed. -/
def oversizedRequest : AsyncRequest where
  type := .write
  file := sampleFile
  buffer := ⟨⟨4096, 0x80000000, 0, .device, 0⟩, by decide, by decide⟩
  stream := ⟨1, 0, true, true, true, false⟩
  params := { sampleRequest.params with size := 0x7ffff001 }

/-- Its kernel writes behind the bounce buffer. -/
theorem not_inBuffers_oversizedRequest : asyncAccept 0x7ffff000 oversizedRequest = .ok () ∧
    ∃ env rounds p s, env.maxRwCount = 0x7ffff000 ∧
      (asyncIo 0x7ffff000 workingHip env.addr oversizedRequest (.start .init 0)).2.run env rounds
        tenBytes (fun _ => 0) = some (p, s) ∧
      ¬ InBuffers 0x7ffff000 oversizedRequest env.client s :=
  ⟨rfl, exists_not_inBuffers tenBytes _ rfl ⟨rfl, by decide⟩⟩

end HipFile.Fallback
