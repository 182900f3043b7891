import HipFile.Model.Fallback

/-!
# The synchronous fallback read

* `transfer_read_cases`: what a round's `pread` and copy do.
* `ReadInv`: after `done` bytes the device holds exactly the first `done` file
  bytes of the request, and nothing else has changed.
* `ioImpl_read_exact`: the read ends with the bytes asked for that the file has,
  for every chunk size and every pattern of short reads and interruptions.
-/

namespace HipFile.Fallback

open Bytes

variable {env : Env} {file : IFile} {buffer : Buffer} {size chunkSize : ℕ}
  {fileOffset bufferOffset : HoffT}

/-! ## One round -/

/-- **What the transfer of a read round does**: the `pread` throws, or it returns
`n` bytes and they are on the device. -/
theorem transfer_read_cases (hmem : ∀ i, env.hip.hipMemcpy i = .ok ()) (file : IFile)
    (devicePos count : ℕ) (offset : ℤ) (s : LoopState) :
    (∃ e s', transfer env file .read devicePos count offset s = (.error (.systemError e), s') ∧
      env.sys.pread s.world.calls count offset = .error e ∧ s'.totalIoBytes = s.totalIoBytes ∧
      s'.world.file = s.world.file ∧ s'.world.dev = s.world.dev ∧
      s.world.calls < s'.world.calls) ∨
    (∃ n s', transfer env file .read devicePos count offset s = (.ok n, s') ∧
      env.sys.pread s.world.calls count offset = .ok n ∧ s'.totalIoBytes = s.totalIoBytes ∧
      s'.world.file = s.world.file ∧
      s'.world.dev = splice s.world.dev devicePos s.world.file.data offset.toNat n ∧
      s.world.calls < s'.world.calls) := by
  set w := s.world.log (.pread file.bufferedFd count offset (env.sys.pread s.world.calls count
    offset)) with hw
  cases h : env.sys.pread s.world.calls count offset with
  | error e =>
    refine Or.inl ⟨e, { s with world := w }, ?_, rfl, rfl, rfl, rfl, by simp [hw]⟩
    simp only [transfer, Prog.bind_apply, pread, World.pread, h, hw]
  | ok n =>
    set buf := splice s.bounceBuffer 0 s.world.file.data offset.toNat n with hbuf
    refine Or.inr ?_
    by_cases hn : 0 < n
    · refine ⟨n, ⟨{ w.log (.hipMemcpy (.ok ())) with
        dev := splice s.world.dev devicePos s.world.file.data offset.toNat n }, buf,
        s.totalIoBytes⟩, ?_, rfl, rfl, rfl, rfl, ?_⟩
      · simp only [transfer, Prog.bind_apply, pread, World.pread, h, if_pos hn,
          hipMemcpyHostToDevice, World.hipMemcpyHostToDevice, hmem, Prog.pure_apply, hw, hbuf]
        rw [splice_through _ _ _ _ _ _ (le_refl n)]
        rfl
      · simp [hw, World.calls]
    · obtain rfl : n = 0 := by omega
      refine ⟨0, { s with world := w, bounceBuffer := buf }, ?_, rfl, rfl, rfl,
        (splice_zero _ _ _ _).symm, by simp [hw]⟩
      simp only [transfer, Prog.bind_apply, pread, World.pread, h, if_neg hn, Prog.pure_apply, hw,
        hbuf]

/-! ## The loop -/

/-- What the read loop may assume of the calls it makes: HIP copies succeed; a
`pread` returns bytes the file has, and none only when asked for none or at the
end of the file; it fails with `EINTR` only, and finitely often. -/
structure ReadCalls (env : Env) (file : FileData) : Prop where
  memcpy : ∀ i, env.hip.hipMemcpy i = .ok ()
  available : ∀ {i count offset n}, env.sys.pread i count offset = .ok n → 0 < n →
    offset + n ≤ file.eof
  progress : ∀ {i count offset}, env.sys.pread i count offset = .ok 0 →
    count = 0 ∨ (file.eof : ℤ) ≤ offset
  eintr : ∀ {i count offset e}, env.sys.pread i count offset = .error e → e = EINTR
  finitely : ∃ N, ∀ i, N ≤ i → ∀ count offset, env.sys.pread i count offset ≠ .error EINTR

/-- **The read loop's invariant**, from the world `w` the loop starts in. -/
structure ReadInv (w : World) (start : ℕ) (fileOffset : ℤ) (size : ℕ) (s : LoopState) : Prop where
  file : s.world.file = w.file
  dev : s.world.dev = splice w.dev start w.file.data fileOffset.toNat s.totalIoBytes
  done_le : s.totalIoBytes ≤ size
  done_eof : s.totalIoBytes = 0 ∨ fileOffset + s.totalIoBytes ≤ w.file.eof

/-- The state the read loop leaves: `n` bytes moved and nothing else. -/
def ReadDone (w : World) (start : ℕ) (fileOffset : ℤ) (n : ℕ) (r : Outcome) : Prop :=
  r.1 = .ok n ∧ r.2.file = w.file ∧ r.2.dev = splice w.dev start w.file.data fileOffset.toNat n

variable {w : World} {start : ℕ} {s s' : LoopState}

theorem ReadInv.done (hI : ReadInv w start fileOffset size s)
    (h : s.totalIoBytes = min size (w.file.eof - fileOffset.val.toNat)) :
    ReadDone w start fileOffset (min size (w.file.eof - fileOffset.val.toNat))
      (.ok s.totalIoBytes, s.world) :=
  ⟨by rw [h], hI.file, by rw [← h]; exact hI.dev⟩

/-- Leaving through the loop's test, the whole size has been read. -/
theorem ReadInv.done_of_le (hI : ReadInv w start fileOffset size s) (h0 : 0 ≤ fileOffset.val)
    (h : ¬ s.totalIoBytes < size) :
    s.totalIoBytes = min size (w.file.eof - fileOffset.val.toNat) := by
  have hle := hI.done_le
  have := hI.done_eof
  omega

/-- A round that moves nothing keeps the invariant. -/
theorem ReadInv.idle (hI : ReadInv w start fileOffset size s)
    (hfile : s'.world.file = s.world.file) (hdev : s'.world.dev = s.world.dev)
    (htot : s'.totalIoBytes = s.totalIoBytes) : ReadInv w start fileOffset size s' := by
  refine ⟨hfile.trans hI.file, ?_, ?_, ?_⟩
  · rw [hdev, htot]
    exact hI.dev
  · rw [htot]
    exact hI.done_le
  · rw [htot]
    exact hI.done_eof

/-- A `pread` at the position after the bytes moved extends them by the bytes it
returns. -/
theorem ReadInv.read (hI : ReadInv w start fileOffset size s) (h0 : 0 ≤ fileOffset.val) {n : ℕ}
    (hn : s.totalIoBytes + n ≤ size) (heof : fileOffset.val + s.totalIoBytes + n ≤ w.file.eof)
    (hfile : s'.world.file = s.world.file)
    (hdev : s'.world.dev = splice s.world.dev (start + s.totalIoBytes) s.world.file.data
      (fileOffset.val + (s.totalIoBytes : ℤ)).toNat n)
    (htot : s'.totalIoBytes = s.totalIoBytes) :
    ReadInv w start fileOffset size { s' with totalIoBytes := s'.totalIoBytes + n } := by
  have hpos : (fileOffset.val + (s.totalIoBytes : ℤ)).toNat =
      fileOffset.val.toNat + s.totalIoBytes := by omega
  refine ⟨hfile.trans hI.file, ?_, by simp only; omega, Or.inr (by simp only; omega)⟩
  simp only
  rw [hdev, hI.file, hI.dev, hpos, htot]
  exact splice_append _ _ _ _ _ _

/-- **One round of the read keeps the invariant** and, if it goes on, uses up an
interruption or moves a byte; if it leaves, the read is done. -/
theorem round_read (file : IFile)
    (hv : paramsValid buffer.toIBuffer size fileOffset bufferOffset = true)
    (hchunk : 0 < chunkSize) (hcalls : ReadCalls env w.file) {N : ℕ}
    (hN : ∀ i, N ≤ i → ∀ count offset, env.sys.pread i count offset ≠ .error EINTR)
    (hI : ReadInv w (regionStart buffer bufferOffset) fileOffset size s) :
    (∀ s',
      round env file .read buffer.toIBuffer size fileOffset bufferOffset chunkSize s = .inl s' →
      ReadInv w (regionStart buffer bufferOffset) fileOffset size s' ∧
        (N - s'.world.calls) + (size - s'.totalIoBytes) <
          (N - s.world.calls) + (size - s.totalIoBytes)) ∧
    ∀ r, round env file .read buffer.toIBuffer size fileOffset bufferOffset chunkSize s = .inr r →
      ReadDone w (regionStart buffer bufferOffset) fileOffset
        (min size (w.file.eof - fileOffset.val.toNat)) r := by
  obtain ⟨hf0, -, -, -⟩ := (paramsValid_iff bufferOffset.2).1 hv
  have hle := hI.done_le
  have heof := hI.done_eof
  set pos := devicePosition buffer.toIBuffer bufferOffset s.totalIoBytes with hpos
  set count := min chunkSize (size - s.totalIoBytes) with hcount
  unfold round
  simp only [← hpos, ← hcount]
  rcases transfer_read_cases hcalls.memcpy file pos count (fileOffset + s.totalIoBytes) s with
    ⟨e, s₁, ht, hp, htot, hfile, hdev, hlog⟩ | ⟨n, s₁, ht, hp, htot, hfile, hdev, hlog⟩
  · -- interrupted: nothing moved, and the call number is below `N`
    obtain rfl := hcalls.eintr hp
    have hlt : s.world.calls < N := by
      by_contra hge
      exact hN _ (by omega) _ _ hp
    have hI₁ := hI.idle hfile hdev htot
    simp only [ht, if_true]
    refine loopTest_spec (fun _ => ⟨hI₁, ?_⟩) fun hge => hI₁.done (hI₁.done_of_le hf0 hge)
    omega
  · have hn := env.sys.pread_le hp
    simp only [ht]
    by_cases hn0 : n = 0
    · -- end of file, or nothing asked for
      subst hn0
      rw [splice_zero] at hdev
      have hI₁ := hI.idle hfile hdev htot
      simp only [if_true]
      refine Loop.leaves (hI₁.done ?_)
      rcases hcalls.progress hp with h0 | h0 <;> omega
    · have hav := hcalls.available hp (by omega)
      rw [hpos, devicePosition_eq hv (by omega)] at hdev
      have hI₁ := hI.read hf0 (by omega) hav hfile hdev htot
      simp only [hn0, if_false]
      refine loopTest_spec (fun _ => ⟨hI₁, ?_⟩) fun hge => hI₁.done (hI₁.done_of_le hf0 hge)
      simp only
      omega

/-! ## The request -/

/-- **A fallback read is exact for every chunk size.** -/
theorem ioImpl_read_exact (env : Env) (file : IFile) (buffer : Buffer) (size : ℕ)
    (fileOffset bufferOffset : HoffT) (chunkSize : ℕ) (w : World)
    (hfb : env.config.fallback = true) (hmmap : env.sys.mmap w.calls = .ok ())
    (hchunk : 0 < chunkSize)
    (hv : paramsValid buffer.toIBuffer (min size env.maxRwCount) fileOffset bufferOffset = true)
    (hcalls : ReadCalls env w.file) :
    ∃ n w' R, n = min size (min env.maxRwCount (w.file.eof - fileOffset.val.toNat)) ∧
      (∀ rounds, R ≤ rounds → ioImpl env rounds .read file buffer.toIBuffer size fileOffset
        bufferOffset chunkSize w = .inr (.ok n, w')) ∧
      Agree n w'.dev (regionStart buffer bufferOffset) w.file.data fileOffset.val.toNat ∧
      SameOutside (regionStart buffer bufferOffset) n w.dev w'.dev ∧ w'.file = w.file := by
  obtain ⟨N, hN⟩ := hcalls.finitely
  set w₁ := w.log (.mmap (.ok ())) with hw₁
  have hstart : ReadInv w₁ (regionStart buffer bufferOffset) fileOffset (min size env.maxRwCount)
      ⟨w₁, fun _ => 0, 0⟩ := ⟨rfl, (splice_zero _ _ _ _).symm, Nat.zero_le _, Or.inl rfl⟩
  have hround := fun s hI => round_read (s := s) (w := w₁) file hv hchunk hcalls hN hI
  set n := min (min size env.maxRwCount) (w.file.eof - fileOffset.val.toNat) with hn
  set μ : LoopState → ℕ := fun s =>
    (N - s.world.calls) + (min size env.maxRwCount - s.totalIoBytes) with hμ
  obtain ⟨⟨out, w₂⟩, ⟨hout, hfile, hdev⟩, hrun⟩ := Loop.total μ
    (fun s s' hI h => (hround s hI).1 s' h) (fun s r hI h => (hround s hI).2 r h) hstart
  simp only at hout hfile hdev
  subst hout
  refine ⟨n, w₂.statsAddFallbackPath env.config .read n, μ ⟨w₁, fun _ => 0, 0⟩ + 1,
    Nat.min_assoc _ _ _, fun rounds hr => ?_, ?_, ?_, ?_⟩
  · have hit := hrun rounds (Nat.lt_of_succ_le hr)
    simp only [ioImpl, accept_ok hfb hv, World.mmap, hmmap, ← hw₁, hit]
    rfl
  · rw [World.statsAddFallbackPath, World.addStats_dev, hdev]
    exact agree_splice
  · rw [World.statsAddFallbackPath, World.addStats_dev, hdev]
    exact fun i hi => splice_outside _ _ _ hi
  · rw [World.statsAddFallbackPath, World.addStats_file, hfile]
    rfl

/-! ## An example -/

/-- A kernel that moves at most three bytes a call, never beyond byte 10 of the
file, and that interrupts one `pread` and one `fdatasync`. -/
def shortCounts : Sys where
  mmap _ := .ok ()
  pread i count offset :=
    if i = 1 then .error EINTR else .ok (min (min 3 count) (10 - offset.toNat))
  pwrite _ count _ := .ok (min 3 count)
  fdatasync i := if i = 4 then .error EINTR else .ok ()
  pread_le h := by split at h <;> simp_all; omega
  pwrite_le h := by simp_all; omega

/-- Both backends enabled, 4 KiB pages, and HIP calls that succeed. -/
def shortCountsEnv : Env where
  pageSize := 4096
  config := ⟨true, true, 1, false⟩
  sys := shortCounts
  hip := ⟨fun _ => .ok (), fun _ => .ok (), fun _ => .ok (), fun _ => none⟩

/-- A file that counts from 1 to 10, and device memory that is all ones. -/
def tenBytes : World where
  file := ⟨fun i => if i < 10 then i.toUInt8 + 1 else 0, 10, fun i hi => if_neg (by omega)⟩
  dev _ := 255
  stats := ⟨0, 0, 0, 0⟩
  trace := []
  hipInited := false

/-- A regular file without an unbuffered descriptor. -/
def sampleFile : IFile := ⟨1, 3, 3, none, 0, 0, false, true, true, false⟩

/-- A buffer of 32 bytes at address 4096. -/
def sampleBuffer : Buffer where
  toIBuffer := ⟨4096, 32, 0, .device, 0⟩
  nonnull := by decide
  inSpace := by decide

theorem readCalls_shortCounts : ReadCalls shortCountsEnv tenBytes.file where
  memcpy _ := rfl
  available {i count offset n} h hn := by
    have h : shortCounts.pread i count offset = .ok n := h
    unfold shortCounts at h
    simp only at h
    split at h
    · simp at h
    · simp only [Except.ok.injEq] at h
      change offset + (n : ℤ) ≤ (10 : ℕ)
      omega
  progress {i count offset} h := by
    have h : shortCounts.pread i count offset = .ok 0 := h
    unfold shortCounts at h
    simp only at h
    split at h
    · simp at h
    · simp only [Except.ok.injEq] at h
      change count = 0 ∨ ((10 : ℕ) : ℤ) ≤ offset
      omega
  eintr {i count offset e} h := by
    have h : shortCounts.pread i count offset = .error e := h
    unfold shortCounts at h
    simp only at h
    split at h <;> simp_all
  finitely := ⟨2, fun i hi count offset h => by
    have h : shortCounts.pread i count offset = .error EINTR := h
    unfold shortCounts at h
    simp only at h
    rw [if_neg (by omega)] at h
    simp at h⟩

/-- Twelve bytes asked for from offset 2, of which the file has eight. -/
theorem ioImpl_read_exact_sample : ∃ n w' R, n = 8 ∧
    (∀ rounds, R ≤ rounds → ioImpl shortCountsEnv rounds .read sampleFile sampleBuffer.toIBuffer 12
      2 4 4 tenBytes = .inr (.ok n, w')) ∧
    Agree n w'.dev 4100 tenBytes.file.data 2 ∧ SameOutside 4100 n tenBytes.dev w'.dev ∧
    w'.file = tenBytes.file :=
  ioImpl_read_exact shortCountsEnv sampleFile sampleBuffer 12 ⟨2, by decide⟩ ⟨4, by decide⟩
    4 tenBytes rfl rfl (by decide) (by decide) readCalls_shortCounts

end HipFile.Fallback
