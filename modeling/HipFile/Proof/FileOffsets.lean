import HipFile.Model.SignedSums
import HipFile.Proof.AsyncBounds
import HipFile.Proof.FallbackCalls
import HipFile.Proof.FallbackRead

/-!
# The file offsets of the loops

The file offset of a request has no upper bound, so that it may be near the largest value of
its type.

* `OffsetOk`: an offset is where it should be, and has not overflowed.
* `Fallback.SyncOffsetsOk`, `AsyncOffsetsOk`: all offsets of a loop are, for every sequence of
  results.
* `Fallback.offsetsOk_iff`: they are exactly if the request ends at `2^63` at most.
-/

namespace HipFile

/-- **The offset of the next call** is the file offset plus the bytes transferred, without
overflow, and so not negative. -/
structure OffsetOk (fileOffset : ℤ) (done : ℕ) (x : Sums ℤ) : Prop where
  value : x.value = fileOffset + done
  fits : x.Fits 64
  nonneg : 0 ≤ x.value

/-- An offset below the largest. -/
theorem offsetOk_add {fileOffset : ℤ} {done : ℕ} (h0 : 0 ≤ fileOffset)
    (h : fileOffset + done < 2 ^ 63) : OffsetOk fileOffset done (.add fileOffset done) := by
  refine ⟨rfl, ?_, ?_⟩
  · rw [Sums.fits_add, Sums.InRange]
    omega
  · rw [Sums.add_value]
    omega

/-- It is not above the largest. -/
theorem OffsetOk.lt {fileOffset b : ℤ} {done : ℕ}
    (h : OffsetOk fileOffset done (.add fileOffset b)) : fileOffset + done < 2 ^ 63 := by
  have hfits := h.fits
  have hvalue := h.value
  rw [Sums.fits_add, Sums.InRange] at hfits
  rw [Sums.add_value] at hvalue
  omega

namespace Fallback

variable {env : Env} {file : IFile} {type : IoType} {buffer : IBuffer} {size chunkSize : ℕ}
  {fileOffset bufferOffset : ℤ} {w : World} {s s' : LoopState}

/-! ## The loop of `_io_impl` -/

/-- The offset is formed by the rounds of every run of the loop, whatever the calls return. -/
def SyncOffsetsOk (pageSize : ℕ) (type : IoType) (file : IFile) (buffer : IBuffer) (size : ℕ)
    (fileOffset bufferOffset : ℤ) (chunkSize : ℕ) : Prop :=
  ∀ env w rounds s, env.pageSize = pageSize →
    ioImpl env rounds type file buffer size fileOffset bufferOffset chunkSize w = .inl s →
      OffsetOk fileOffset s.totalIoBytes (nextOffset fileOffset s)

/-- A request that is still running has been accepted, and is in its loop. -/
theorem ioImpl_running {rounds : ℕ}
    (h : ioImpl env rounds type file buffer size fileOffset bufferOffset chunkSize w = .inl s) :
    ∃ w₀, Loop.iter (round env file type buffer (min size env.maxRwCount) fileOffset bufferOffset
      chunkSize) rounds ⟨w₀, fun _ => 0, 0⟩ = .inl s := by
  unfold ioImpl at h
  split at h
  · cases h
  · rename_i region hacc
    have hregion : region.size = min size env.maxRwCount := by
      unfold accept at hacc
      obtain ⟨-, hacc⟩ := ite_error_eq_ok.1 hacc
      obtain ⟨-, hacc⟩ := ite_error_eq_ok.1 hacc
      cases hacc
      rfl
    rw [hregion] at h
    split at h
    · cases h
    · rename_i w₀ _
      split at h
      · rename_i s' hiter
        cases h
        exact ⟨w₀, hiter⟩
      · cases h
      · cases h

theorem loopTest_inl (h : loopTest size s = .inl s') : s.totalIoBytes < size ∧ s' = s := by
  unfold loopTest at h
  split at h
  · rename_i hlt
    exact ⟨hlt, (Sum.inl.inj h).symm⟩
  · cases h

/-- A round that the loop goes on after has left some of the size, and has counted a chunk at
most. -/
theorem round_total (h : round env file type buffer size fileOffset bufferOffset chunkSize s =
    .inl s') : s'.totalIoBytes < size ∧ s'.totalIoBytes ≤ s.totalIoBytes + chunkSize := by
  have hcalls := (calls_transfer env file type (devicePosition buffer bufferOffset s.totalIoBytes)
    (min chunkSize (size - s.totalIoBytes)) (fileOffset + s.totalIoBytes) s).1.2
  unfold round at h
  simp only at h
  split at h
  · rename_i ioBytes s₁ htransfer
    rw [htransfer] at hcalls
    have hle := transfer_le htransfer
    split at h
    · cases h
    · obtain ⟨hlt, rfl⟩ := loopTest_inl h
      refine ⟨hlt, ?_⟩
      show s₁.totalIoBytes + ioBytes ≤ s.totalIoBytes + chunkSize
      simp only at hcalls
      omega
  · rename_i e s₁ htransfer
    rw [htransfer] at hcalls
    split at h
    · obtain ⟨hlt, rfl⟩ := loopTest_inl h
      simp only at hcalls
      omega
    · cases h
  · cases h

/-- **The loop's progress**: nothing has been counted, or some of the size is left. Rounds of
no bytes count nothing. -/
def InProgress (size chunkSize : ℕ) (s : LoopState) : Prop :=
  s.totalIoBytes = 0 ∨ 0 < chunkSize ∧ s.totalIoBytes < size

theorem iter_inProgress {rounds : ℕ} {s₀ : LoopState} (h0 : s₀.totalIoBytes = 0)
    (h : Loop.iter (round env file type buffer size fileOffset bufferOffset chunkSize) rounds s₀ =
      .inl s) : InProgress size chunkSize s := by
  refine (Loop.iter_inv (I := InProgress size chunkSize) (Q := fun _ => True) ?_
    (fun _ _ _ _ => trivial) rounds s₀ (Or.inl h0)).1 s h
  intro s₁ s₂ hI hround
  obtain ⟨hlt, hle⟩ := round_total hround
  unfold InProgress at hI ⊢
  omega

/-! ### A kernel that moves one byte a call -/

/-- System calls that transfer one byte. -/
def oneByte : Sys where
  mmap _ := .ok ()
  pread _ count _ := .ok (min 1 count)
  pwrite _ count _ := .ok (min 1 count)
  fdatasync _ := .ok ()
  pread_le h := by cases h; exact Nat.min_le_right _ _
  pwrite_le h := by cases h; exact Nat.min_le_right _ _

/-- Both backends enabled, and HIP calls that succeed. -/
def oneByteEnv (pageSize : ℕ) : Env :=
  { shortCountsEnv with pageSize := pageSize, sys := oneByte }

theorem transfer_oneByte (pageSize : ℕ) (file : IFile) (type : IoType) (devicePos : ℕ)
    {count : ℕ} (offset : ℤ) (s : LoopState) (hpos : 0 < count) :
    ∃ s', transfer (oneByteEnv pageSize) file type devicePos count offset s = (.ok 1, s') ∧
      s'.totalIoBytes = s.totalIoBytes := by
  have hcalls := (calls_transfer (oneByteEnv pageSize) file type devicePos count offset s).1.2
  have hone : min 1 count = 1 := by omega
  suffices hret : (transfer (oneByteEnv pageSize) file type devicePos count offset s).1 = .ok 1 from
    ⟨_, Prod.ext hret rfl, hcalls⟩
  cases type with
  | read =>
    have hread (i : ℕ) : (oneByteEnv pageSize).sys.pread i count offset = .ok 1 :=
      congrArg Except.ok hone
    simp only [transfer, Prog.bind_apply, pread, World.pread, hread]
    rfl
  | write =>
    have hwrite (i : ℕ) : (oneByteEnv pageSize).sys.pwrite i count offset = .ok 1 :=
      congrArg Except.ok hone
    have hmem (i : ℕ) : (oneByteEnv pageSize).hip.hipMemcpy i = .ok () := rfl
    have hsync (i : ℕ) : (oneByteEnv pageSize).hip.hipStreamSynchronize i = .ok () := rfl
    simp only [transfer, Prog.bind_apply, hipMemcpyDeviceToHost, World.hipMemcpyDeviceToHost, hmem,
      hipStreamSynchronize, World.hipStreamSynchronize, hsync, pwrite, World.pwrite, hwrite]
    rfl

theorem round_oneByte (pageSize : ℕ) (file : IFile) (type : IoType) (buffer : IBuffer)
    (fileOffset bufferOffset : ℤ) (hchunk : 0 < chunkSize) (hlt : s.totalIoBytes + 1 < size) :
    ∃ s', s'.totalIoBytes = s.totalIoBytes + 1 ∧
      round (oneByteEnv pageSize) file type buffer size fileOffset bufferOffset chunkSize s =
        .inl s' := by
  have hcount : 0 < min chunkSize (size - s.totalIoBytes) := by omega
  obtain ⟨s₁, htransfer, htotal⟩ := transfer_oneByte pageSize file type
    (devicePosition buffer bufferOffset s.totalIoBytes) (fileOffset + s.totalIoBytes) s hcount
  refine ⟨{ s₁ with totalIoBytes := s₁.totalIoBytes + 1 }, congrArg (· + 1) htotal, ?_⟩
  unfold round
  simp only
  rw [htransfer]
  simp only [Nat.one_ne_zero, if_false]
  rw [loopTest, if_pos (by simp only; omega)]

theorem iter_oneByte (pageSize : ℕ) (file : IFile) (type : IoType) (buffer : IBuffer)
    (fileOffset bufferOffset : ℤ) (hchunk : 0 < chunkSize) :
    ∀ rounds s, s.totalIoBytes + rounds < size →
      ∃ s', s'.totalIoBytes = s.totalIoBytes + rounds ∧
        Loop.iter (round (oneByteEnv pageSize) file type buffer size fileOffset bufferOffset
          chunkSize) rounds s = .inl s' := by
  intro rounds
  induction rounds with
  | zero => exact fun s _ => ⟨s, rfl, rfl⟩
  | succ rounds ih =>
    intro s hlt
    obtain ⟨s₁, htotal, hround⟩ :=
      round_oneByte pageSize file type buffer fileOffset bufferOffset hchunk
        (show s.totalIoBytes + 1 < size by omega)
    obtain ⟨s', htotal', hiter⟩ := ih s₁ (by omega)
    refine ⟨s', by omega, ?_⟩
    rw [Loop.iter_succ_inl hround]
    exact hiter

/-- A request goes through all counts below its size. -/
theorem ioImpl_oneByte {pageSize : ℕ} (rounds : ℕ) (file : IFile) (type : IoType)
    {buffer : IBuffer} {fileOffset bufferOffset : ℤ} (hchunk : 0 < chunkSize)
    (hv : paramsValid buffer (min size (getMaxRwCount pageSize)) fileOffset bufferOffset = true)
    (hlt : rounds < min size (getMaxRwCount pageSize)) : ∃ s, s.totalIoBytes = rounds ∧
      ioImpl (oneByteEnv pageSize) rounds type file buffer size fileOffset bufferOffset chunkSize
        tenBytes = .inl s := by
  have hmax : (oneByteEnv pageSize).maxRwCount = getMaxRwCount pageSize := rfl
  rw [← hmax] at hv hlt
  have hmmap : tenBytes.mmap (oneByteEnv pageSize).sys =
      (.ok (), tenBytes.log (.mmap (.ok ()))) := rfl
  obtain ⟨s, htotal, hiter⟩ := iter_oneByte pageSize file type buffer fileOffset bufferOffset hchunk
    rounds ⟨tenBytes.log (.mmap (.ok ())), fun _ => 0, 0⟩ (by rw [Nat.zero_add]; exact hlt)
  refine ⟨s, by rw [htotal, Nat.zero_add], ?_⟩
  unfold ioImpl
  rw [accept_ok rfl hv]
  simp only [hmmap, hiter]

/-- A request whose end is not above `2^63` reaches no offset that is. -/
theorem syncOffsetsOk {pageSize : ℕ} {fileOffset : HoffT} (h0 : 0 ≤ fileOffset.val)
    (h : chunkSize = 0 ∨ fileOffset.val + (min size (getMaxRwCount pageSize) : ℕ) ≤ 2 ^ 63) :
    SyncOffsetsOk pageSize type file buffer size fileOffset bufferOffset chunkSize := by
  intro env w rounds s hpage hrun
  obtain ⟨w₀, hiter⟩ := ioImpl_running hrun
  have hlt := fileOffset.2.2
  have hI := iter_inProgress rfl hiter
  rw [Env.maxRwCount, hpage] at hI
  unfold InProgress at hI
  refine offsetOk_add h0 ?_
  omega

/-- A request whose end is above `2^63` reaches that offset. -/
theorem not_syncOffsetsOk {pageSize : ℕ} (file : IFile) (type : IoType) (fileOffset : HoffT)
    (hv : paramsValid buffer (min size (getMaxRwCount pageSize)) fileOffset bufferOffset = true)
    (h0 : 0 ≤ fileOffset.val) (hchunk : 0 < chunkSize)
    (hover : 2 ^ 63 < fileOffset.val + (min size (getMaxRwCount pageSize) : ℕ)) :
    ¬ SyncOffsetsOk pageSize type file buffer size fileOffset bufferOffset chunkSize := by
  intro hok
  have hlt := fileOffset.2.2
  obtain ⟨s, htotal, hrun⟩ := ioImpl_oneByte (2 ^ 63 - fileOffset.val).toNat file type hchunk hv
    (by omega)
  have hnext := (hok _ _ _ s rfl hrun).lt
  omega

/-! ## The loop of `async_io_cpu_copy` -/

/-- The offset is formed by the rounds of every run of the copy that have bytes left, whatever
the calls return. -/
def AsyncOffsetsOk (type : IoType) (size : ℕ) (fileOffset : ℤ) : Prop :=
  ∀ env rounds s c, s.op.ioType = type → s.op.size = .value size →
    s.op.fileOffset = .value fileOffset →
      Loop.iter (copyRound env size fileOffset) rounds ⟨s, 0⟩ = .inl c →
        c.bytesTransferred < size →
          OffsetOk fileOffset c.bytesTransferred (c.nextOffset fileOffset)

theorem asyncOffsetsOk {fileOffset : HoffT} (h0 : 0 ≤ fileOffset.val)
    (h : fileOffset.val + size ≤ 2 ^ 63) : AsyncOffsetsOk type size fileOffset := by
  intro env rounds s c _ _ _ _ hlt
  unfold CopyState.nextOffset
  rw [toSsizeT_of_lt (by omega)]
  exact offsetOk_add h0 (by omega)

theorem copyRound_oneByte (maxRwCount : ℕ) (client : Params) (stray : Mem) (fileOffset : ℤ)
    {c : CopyState} (hlt : c.bytesTransferred < size) : ∃ s',
      copyRound (streamEnv maxRwCount oneByte client stray) size fileOffset c =
        .inl ⟨s', c.bytesTransferred + 1⟩ := by
  obtain ⟨s', hcall, -⟩ := copyCall_spec (streamEnv maxRwCount oneByte client stray) c.state
    c.bytesTransferred (size - c.bytesTransferred) (fileOffset + c.bytesTransferred)
  have hone (i : ℕ) : (streamEnv maxRwCount oneByte client stray).ioOutcome c.state.op.ioType i
      (size - c.bytesTransferred) (fileOffset + c.bytesTransferred) = .ok 1 := by
    have hmin : min 1 (size - c.bytesTransferred) = 1 := by omega
    cases c.state.op.ioType <;> exact congrArg Except.ok hmin
  rw [hone] at hcall
  refine ⟨s', ?_⟩
  unfold copyRound
  rw [if_pos hlt, hcall]
  simp only [Nat.one_ne_zero, if_false]

theorem iter_copyRound_oneByte (maxRwCount : ℕ) (client : Params) (stray : Mem) (fileOffset : ℤ) :
    ∀ rounds c, c.bytesTransferred + rounds ≤ size → ∃ s',
      Loop.iter (copyRound (streamEnv maxRwCount oneByte client stray) size fileOffset) rounds c =
        .inl ⟨s', c.bytesTransferred + rounds⟩ := by
  intro rounds
  induction rounds with
  | zero => exact fun c _ => ⟨c.state, rfl⟩
  | succ rounds ih =>
    intro c hle
    obtain ⟨s₁, hround⟩ := copyRound_oneByte maxRwCount client stray fileOffset
      (show c.bytesTransferred < size by omega)
    obtain ⟨s', hiter⟩ := ih ⟨s₁, c.bytesTransferred + 1⟩ (by simp only; omega)
    refine ⟨s', ?_⟩
    rw [Loop.iter_succ_inl hround, hiter, Nat.add_right_comm, Nat.add_assoc]

/-- The state of a stream whose op has its parameters. -/
def boundState (type : IoType) (size : ℕ) (fileOffset : ℤ) : StreamState where
  op :=
    { AsyncOpFallback.construct 0x7ffff000 sampleRequest 8192 with
      ioType := type
      size := .value size
      fileOffset := .value fileOffset }
  world := tenBytes
  bounce _ := 0
  monitor := .init
  bytesTransferred := 0
  bounceAccesses := []
  gpuAccesses := []

theorem not_asyncOffsetsOk (type : IoType) (fileOffset : HoffT) (h0 : 0 ≤ fileOffset.val)
    (hover : 2 ^ 63 < fileOffset.val + size) : ¬ AsyncOffsetsOk type size fileOffset := by
  intro hok
  have hlt := fileOffset.2.2
  obtain ⟨s, hrun⟩ := iter_copyRound_oneByte (getMaxRwCount 4096) sampleRequest.params
    (fun _ => 0) fileOffset.val (2 ^ 63 - fileOffset.val).toNat
    ⟨boundState type size fileOffset, 0⟩ (show 0 + _ ≤ size by omega)
  have hnext := (hok _ _ _ _ rfl rfl rfl hrun (by simp only; omega)).lt
  simp only at hnext
  omega

/-! ## Both loops -/

/-- **The offsets of both loops are right** exactly if the request ends at `2^63` at most: in
the loop of `_io_impl` the request is limited first, and without a chunk nothing is moved. -/
theorem offsetsOk_iff (pageSize : ℕ) (type : IoType) (file : IFile) (buffer : IBuffer) (size : ℕ)
    (fileOffset : HoffT) (bufferOffset : ℤ) (chunkSize : ℕ)
    (hv : paramsValid buffer (min size (getMaxRwCount pageSize)) fileOffset bufferOffset = true) :
    (SyncOffsetsOk pageSize type file buffer size fileOffset bufferOffset chunkSize ↔
      chunkSize = 0 ∨ fileOffset.val + (min size (getMaxRwCount pageSize) : ℕ) ≤ 2 ^ 63) ∧
    (AsyncOffsetsOk type size fileOffset ↔ fileOffset.val + size ≤ 2 ^ 63) := by
  have h0 : 0 ≤ fileOffset.val := by
    unfold paramsValid at hv
    obtain ⟨hf, -⟩ := ite_false_eq_true.1 hv
    omega
  refine ⟨⟨fun hok => ?_, syncOffsetsOk h0⟩, ⟨fun hok => ?_, asyncOffsetsOk h0⟩⟩
  · by_contra hcon
    exact not_syncOffsetsOk file type fileOffset hv h0 (by omega) (by omega) hok
  · by_contra hcon
    exact not_asyncOffsetsOk type fileOffset h0 (by omega) hok

/-- Sixteen bytes at the start of a file. -/
theorem offsetsOk_start :
    SyncOffsetsOk 4096 .read sampleFile sampleBuffer.toIBuffer 16 0 4 DefaultChunkSize ∧
      AsyncOffsetsOk .read 16 0 :=
  have h := offsetsOk_iff 4096 .read sampleFile sampleBuffer.toIBuffer 16 ⟨0, by decide⟩ 4
    DefaultChunkSize (by decide)
  ⟨h.1.2 (Or.inr (by decide)), h.2.2 (by decide)⟩

/-- Two bytes at the largest offset: after one of them the next offset is `2^63`. -/
theorem not_offsetsOk_largest :
    paramsValid sampleBuffer.toIBuffer (min 2 (getMaxRwCount 4096)) (2 ^ 63 - 1) 0 = true ∧
      ¬ SyncOffsetsOk 4096 .read sampleFile sampleBuffer.toIBuffer 2 (2 ^ 63 - 1) 0
        DefaultChunkSize ∧
      ¬ AsyncOffsetsOk .read 2 (2 ^ 63 - 1) := by
  have hv : paramsValid sampleBuffer.toIBuffer (min 2 (getMaxRwCount 4096)) (2 ^ 63 - 1) 0 =
      true := by decide
  refine ⟨hv, ?_, ?_⟩
  · exact not_syncOffsetsOk sampleFile .read ⟨2 ^ 63 - 1, by decide⟩ hv (by decide) (by decide)
      (by decide)
  · exact not_asyncOffsetsOk .read ⟨2 ^ 63 - 1, by decide⟩ (by decide) (by decide)

end Fallback

end HipFile
