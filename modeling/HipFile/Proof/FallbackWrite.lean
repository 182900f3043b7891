import HipFile.Proof.FallbackRead

/-!
# The synchronous fallback write

An `fdatasync` may be interrupted after the `pwrite` took effect, and the round is
then made again, perhaps with another short count.

* `transfer_write_cases`: what a round's copy, `pwrite` and `fdatasync` do.
* `WriteInv`: the bytes counted are in the file, and whatever was written without
  being counted lies inside the request.
* `ioImpl_write_exact`: the write ends with the device bytes it counts in the file.
-/

namespace HipFile.Fallback

open Bytes

variable {env : Env} {file : IFile} {buffer : Buffer} {size chunkSize : ℕ}
  {fileOffset bufferOffset : HoffT}

/-! ## One round -/

/-- **What the transfer of a write round does**: the `pwrite` throws and the file is
as before; or it writes `n` bytes, and then the `fdatasync` throws or the round
counts them. -/
theorem transfer_write_cases (hmem : ∀ i, env.hip.hipMemcpy i = .ok ())
    (hsync : ∀ i, env.hip.hipStreamSynchronize i = .ok ()) (file : IFile) (devicePos count : ℕ)
    (offset : ℤ) (s : LoopState) :
    ∃ ret s' tr, transfer env file .write devicePos count offset s = (ret, s') ∧
      s'.totalIoBytes = s.totalIoBytes ∧ s'.world.dev = s.world.dev ∧
      s'.world.trace = s.world.trace ++ tr ∧ tr ≠ [] ∧
      ((∃ i e, s.world.calls ≤ i ∧ env.sys.pwrite i count offset = .error e ∧
          ret = .error (.systemError e) ∧ s'.world.file = s.world.file) ∨
        ∃ i n, env.sys.pwrite i count offset = .ok n ∧
          s'.world.file.data = splice s.world.file.data offset.toNat s.world.dev devicePos n ∧
          .pwrite file.bufferedFd count offset (.ok n) ∈ tr ∧
          (ret = .ok n ∨ ∃ j e, s.world.calls ≤ j ∧ env.sys.fdatasync j = .error e ∧
            ret = .error (.systemError e))) := by
  set buf := splice s.bounceBuffer 0 s.world.dev devicePos count with hbuf
  set w₂ := (s.world.log (.hipMemcpy (.ok ()))).log (.hipStreamSynchronize (.ok ())) with hw₂
  have hcalls : s.world.calls ≤ w₂.calls := by simp only [hw₂, World.log_calls]; omega
  cases h : env.sys.pwrite w₂.calls count offset with
  | error e =>
    set w₃ := w₂.log (.pwrite file.bufferedFd count offset (.error e)) with hw₃
    refine ⟨.error (.systemError e), { s with world := w₃, bounceBuffer := buf }, _, ?_, rfl, rfl,
      (List.append_assoc _ _ _).trans (List.append_assoc _ _ _), by simp,
      Or.inl ⟨w₂.calls, e, hcalls, h, rfl, rfl⟩⟩
    simp only [transfer, Prog.bind_apply, hipMemcpyDeviceToHost, World.hipMemcpyDeviceToHost, hmem,
      hipStreamSynchronize, World.hipStreamSynchronize, hsync, pwrite, World.pwrite, ← hw₂, h, hw₃,
      ← hbuf]
  | ok n =>
    -- the bytes are in the file by now, whatever the `fdatasync` reports
    set w₃ := w₂.log (.pwrite file.bufferedFd count offset (.ok n)) with hw₃
    set w₄ : World := { w₃ with file := w₂.file.write offset.toNat buf 0 n } with hw₄
    set w₅ := w₄.log (.fdatasync file.bufferedFd (env.sys.fdatasync w₄.calls)) with hw₅
    have hw₄calls : s.world.calls ≤ w₄.calls := by
      have : w₄.calls = w₂.calls + 1 := World.log_calls _ _
      omega
    have hdata : w₅.file.data = splice s.world.file.data offset.toNat s.world.dev devicePos n := by
      simp only [hw₅, hw₄, World.log_file, FileData.write_data, hbuf]
      exact splice_through _ _ _ _ _ _ (env.sys.pwrite_le h)
    have htrace : w₅.trace = s.world.trace ++ [.hipMemcpy (.ok ()), .hipStreamSynchronize (.ok ()),
        .pwrite file.bufferedFd count offset (.ok n),
        .fdatasync file.bufferedFd (env.sys.fdatasync w₄.calls)] := by
      simp [hw₅, hw₄, hw₃, hw₂]
    cases hd : env.sys.fdatasync w₄.calls with
    | error e =>
      refine ⟨.error (.systemError e), { s with world := w₅, bounceBuffer := buf }, _, ?_, rfl, rfl,
        htrace, by simp, Or.inr ⟨w₂.calls, n, h, hdata, by simp,
          Or.inr ⟨w₄.calls, e, hw₄calls, hd, rfl⟩⟩⟩
      simp only [transfer, Prog.bind_apply, hipMemcpyDeviceToHost, World.hipMemcpyDeviceToHost,
        hmem, hipStreamSynchronize, World.hipStreamSynchronize, hsync, pwrite, World.pwrite, ← hw₂,
        h, fdatasync, World.fdatasync, ← hbuf, ← hw₃,
        ← hw₄, hd, hw₅]
    | ok u =>
      refine ⟨.ok n, { s with world := w₅, bounceBuffer := buf }, _, ?_, rfl, rfl,
        htrace, by simp, Or.inr ⟨w₂.calls, n, h, hdata, by simp, Or.inl rfl⟩⟩
      simp only [transfer, Prog.bind_apply, hipMemcpyDeviceToHost, World.hipMemcpyDeviceToHost,
        hmem, hipStreamSynchronize, World.hipStreamSynchronize, hsync, pwrite, World.pwrite, ← hw₂,
        h, fdatasync, World.fdatasync, ← hbuf, ← hw₃,
        ← hw₄, hd, hw₅, Prog.pure_apply]

/-! ## The loop -/

/-- What the write loop may assume of the calls it makes: HIP copies succeed, and
`pwrite` and `fdatasync` fail with `EINTR` only, and finitely often. -/
structure WriteCalls (env : Env) : Prop where
  memcpy : ∀ i, env.hip.hipMemcpy i = .ok ()
  streamSynchronize : ∀ i, env.hip.hipStreamSynchronize i = .ok ()
  pwrite_eintr : ∀ {i count offset e}, env.sys.pwrite i count offset = .error e → e = EINTR
  fdatasync_eintr : ∀ {i e}, env.sys.fdatasync i = .error e → e = EINTR
  finitely : ∃ N, ∀ i, N ≤ i → (∀ count offset, env.sys.pwrite i count offset ≠ .error EINTR) ∧
    env.sys.fdatasync i ≠ .error EINTR

/-- A `pwrite` of a positive count that wrote nothing is among the calls. -/
def ZeroWrite (tr : List Event) : Prop :=
  ∃ fd count offset, 0 < count ∧ .pwrite fd count offset (.ok 0) ∈ tr

/-- **The write loop's invariant**, from the world `w` the loop starts in. -/
structure WriteInv (w : World) (start : ℕ) (fileOffset : ℤ) (size : ℕ) (s : LoopState) : Prop where
  dev : s.world.dev = w.dev
  counted : Agree s.totalIoBytes s.world.file.data fileOffset.toNat w.dev start
  outside : SameOutside fileOffset.toNat size w.file.data s.world.file.data
  done_le : s.totalIoBytes ≤ size
  trace : ∃ tr, s.world.trace = w.trace ++ tr

/-- What the write loop leaves. -/
def WriteDone (w : World) (start : ℕ) (fileOffset : ℤ) (size : ℕ) (r : Outcome) : Prop :=
  ∃ n tr, r.1 = .ok n ∧ n ≤ size ∧ r.2.dev = w.dev ∧
    Agree n r.2.file.data fileOffset.toNat w.dev start ∧
    SameOutside fileOffset.toNat size w.file.data r.2.file.data ∧
    r.2.trace = w.trace ++ tr ∧ (n = size ∨ ZeroWrite tr)

variable {w : World} {start : ℕ} {s s' : LoopState}

/-- Leaving the loop with the whole size, the write is done. -/
theorem WriteInv.done_of_le (hI : WriteInv w start fileOffset size s)
    (h : ¬ s.totalIoBytes < size) :
    WriteDone w start fileOffset size (.ok s.totalIoBytes, s.world) := by
  obtain ⟨tr, htr⟩ := hI.trace
  have hle := hI.done_le
  exact ⟨s.totalIoBytes, tr, rfl, hle, hI.dev, hI.counted, hI.outside, htr, Or.inl (by omega)⟩

/-- A `pwrite` at the position after the bytes counted extends the agreement by
the bytes written and stays inside the request. -/
theorem WriteInv.write (hI : WriteInv w start fileOffset size s) (h0 : 0 ≤ fileOffset.val) {n : ℕ}
    (hn : s.totalIoBytes + n ≤ size)
    (hdata : s'.world.file.data = splice s.world.file.data
      (fileOffset.val + (s.totalIoBytes : ℤ)).toNat s.world.dev (start + s.totalIoBytes) n) :
    Agree (s.totalIoBytes + n) s'.world.file.data fileOffset.val.toNat w.dev start ∧
      SameOutside fileOffset.val.toNat size w.file.data s'.world.file.data := by
  have hpos : (fileOffset.val + (s.totalIoBytes : ℤ)).toNat =
      fileOffset.val.toNat + s.totalIoBytes := by omega
  rw [hdata, hI.dev, hpos]
  exact ⟨hI.counted.splice_next, hI.outside.trans (sameOutside_splice (by omega) (by omega))⟩

/-- **One round of the write keeps the invariant** and, if it goes on, uses up an
interruption or counts a byte; if it leaves, the write is done. -/
theorem round_write (file : IFile)
    (hv : paramsValid buffer.toIBuffer size fileOffset bufferOffset = true)
    (hchunk : 0 < chunkSize) (hcalls : WriteCalls env) {N : ℕ}
    (hN : ∀ i, N ≤ i → (∀ count offset, env.sys.pwrite i count offset ≠ .error EINTR) ∧
      env.sys.fdatasync i ≠ .error EINTR)
    (hI : WriteInv w (regionStart buffer bufferOffset) fileOffset size s) :
    (∀ s',
      round env file .write buffer.toIBuffer size fileOffset bufferOffset chunkSize s = .inl s' →
      WriteInv w (regionStart buffer bufferOffset) fileOffset size s' ∧
        (N - s'.world.calls) + (size - s'.totalIoBytes) <
          (N - s.world.calls) + (size - s.totalIoBytes)) ∧
    ∀ r, round env file .write buffer.toIBuffer size fileOffset bufferOffset chunkSize s = .inr r →
      WriteDone w (regionStart buffer bufferOffset) fileOffset size r := by
  obtain ⟨hf0, -, -, -⟩ := (paramsValid_iff bufferOffset.2).1 hv
  have hle := hI.done_le
  obtain ⟨tr₀, htr₀⟩ := hI.trace
  set pos := devicePosition buffer.toIBuffer bufferOffset s.totalIoBytes with hpos
  set count := min chunkSize (size - s.totalIoBytes) with hcount
  unfold round
  simp only [← hpos, ← hcount]
  obtain ⟨ret, s₁, tr, ht, htot, hdev, htrace, hne, hcase⟩ := transfer_write_cases
    hcalls.memcpy hcalls.streamSynchronize file pos count (fileOffset + s.totalIoBytes) s
  have hlen : 0 < tr.length := List.length_pos_iff.2 hne
  have hlog : s₁.world.calls = s.world.calls + tr.length := by
    unfold World.calls; rw [htrace, List.length_append]
  have htrace₁ : s₁.world.trace = w.trace ++ (tr₀ ++ tr) := by
    rw [htrace, htr₀, List.append_assoc]
  rcases hcase with ⟨i, e, hi, hp, rfl, hfile⟩ | ⟨i, n, hp, hdata, hmem, hret⟩
  · -- the `pwrite` was interrupted
    obtain rfl := hcalls.pwrite_eintr hp
    have hlt : s.world.calls < N := by
      by_contra hge
      exact (hN i (by omega)).1 _ _ hp
    have hI₁ : WriteInv w (regionStart buffer bufferOffset) fileOffset size s₁ :=
      ⟨hdev.trans hI.dev, by rw [hfile, htot]; exact hI.counted, by rw [hfile]; exact hI.outside,
        by omega, _, htrace₁⟩
    simp only [ht, if_true]
    refine loopTest_spec (fun _ => ⟨hI₁, ?_⟩) hI₁.done_of_le
    omega
  · have hn := env.sys.pwrite_le hp
    have hdata' : s₁.world.file.data = splice s.world.file.data
        (fileOffset.val + (s.totalIoBytes : ℤ)).toNat s.world.dev
        (regionStart buffer bufferOffset + s.totalIoBytes) n := by
      rw [hdata]
      by_cases hn0 : n = 0
      · rw [hn0, splice_zero, splice_zero]
      · rw [hpos, devicePosition_eq hv (by omega)]
    obtain ⟨hcounted, houtside⟩ := hI.write hf0 (by omega) hdata'
    rcases hret with rfl | ⟨j, e, hj, hd, rfl⟩
    · have hI₁ : WriteInv w (regionStart buffer bufferOffset) fileOffset size
          { s₁ with totalIoBytes := s₁.totalIoBytes + n } :=
        ⟨hdev.trans hI.dev, by simp only [htot]; exact hcounted, houtside, by simp only; omega, _,
          htrace₁⟩
      simp only [ht]
      by_cases hn0 : n = 0
      · -- nothing written: the loop is left
        simp only [hn0, if_true]
        refine Loop.leaves ?_
        by_cases hsize : s.totalIoBytes < size
        · exact ⟨s₁.totalIoBytes, tr₀ ++ tr, by simp, by omega, hI₁.dev, by
            rw [htot]; exact hcounted.mono (by omega), houtside, htrace₁,
            Or.inr ⟨_, count, _, by omega, List.mem_append_right _ (hn0 ▸ hmem)⟩⟩
        · subst hn0
          exact hI₁.done_of_le (by simp only; omega)
      · simp only [hn0, if_false]
        refine loopTest_spec (fun _ => ⟨hI₁, ?_⟩) hI₁.done_of_le
        simp only
        omega
    · -- the `fdatasync` was interrupted: bytes are written that are not counted
      obtain rfl := hcalls.fdatasync_eintr hd
      have hlt : s.world.calls < N := by
        by_contra hge
        exact (hN j (by omega)).2 hd
      have hI₁ : WriteInv w (regionStart buffer bufferOffset) fileOffset size s₁ :=
        ⟨hdev.trans hI.dev, by rw [htot]; exact hcounted.mono (by omega), houtside, by omega, _,
          htrace₁⟩
      simp only [ht, if_true]
      refine loopTest_spec (fun _ => ⟨hI₁, ?_⟩) hI₁.done_of_le
      omega

/-! ## The request -/

/-- **A fallback write is exact for every chunk size.** -/
theorem ioImpl_write_exact (env : Env) (file : IFile) (buffer : Buffer) (size : ℕ)
    (fileOffset bufferOffset : HoffT) (chunkSize : ℕ) (w : World)
    (hfb : env.config.fallback = true) (hmmap : env.sys.mmap w.calls = .ok ())
    (hchunk : 0 < chunkSize)
    (hv : paramsValid buffer.toIBuffer (min size env.maxRwCount) fileOffset bufferOffset = true)
    (hcalls : WriteCalls env) :
    ∃ n w' tr R, (∀ rounds, R ≤ rounds → ioImpl env rounds .write file buffer.toIBuffer size
        fileOffset bufferOffset chunkSize w = .inr (.ok n, w')) ∧
      n ≤ min size env.maxRwCount ∧
      Agree n w'.file.data fileOffset.val.toNat w.dev (regionStart buffer bufferOffset) ∧
      w'.trace = w.trace ++ tr ∧ (n = min size env.maxRwCount ∨ ZeroWrite tr) ∧
      SameOutside fileOffset.val.toNat (min size env.maxRwCount) w.file.data w'.file.data ∧
      w'.dev = w.dev := by
  obtain ⟨N, hN⟩ := hcalls.finitely
  set w₁ := w.log (.mmap (.ok ())) with hw₁
  have hstart : WriteInv w₁ (regionStart buffer bufferOffset) fileOffset (min size env.maxRwCount)
      ⟨w₁, fun _ => 0, 0⟩ :=
    ⟨rfl, agree_zero, SameOutside.refl _ _ _, Nat.zero_le _, [], (List.append_nil _).symm⟩
  have hround := fun s hI => round_write (s := s) (w := w₁) file hv hchunk hcalls hN hI
  -- a round makes a call that may be interrupted, or writes bytes
  set μ : LoopState → ℕ := fun s =>
    (N - s.world.calls) + (min size env.maxRwCount - s.totalIoBytes) with hμ
  obtain ⟨⟨out, w₂⟩, ⟨n, tr, hout, hn, hdev, hcounted, houtside, htrace, hfull⟩, hrun⟩ :=
    Loop.total μ (fun s s' hI h => (hround s hI).1 s' h) (fun s r hI h => (hround s hI).2 r h)
      hstart
  simp only at hout hdev hcounted houtside htrace
  subst hout
  refine ⟨n, w₂.statsAddFallbackPath env.config .write n, .mmap (.ok ()) :: tr,
    μ ⟨w₁, fun _ => 0, 0⟩ + 1, fun rounds hr => ?_, hn, ?_, ?_, ?_, ?_, ?_⟩
  · have hit := hrun rounds (Nat.lt_of_succ_le hr)
    simp only [ioImpl, accept_ok hfb hv, World.mmap, hmmap, ← hw₁, hit]
  · rw [World.statsAddFallbackPath, World.addStats_file]
    exact hcounted
  · rw [World.statsAddFallbackPath, World.addStats_trace, htrace]
    simp [hw₁]
  · rcases hfull with h | ⟨fd, count, offset, hpos, hmem⟩
    · exact Or.inl h
    · exact Or.inr ⟨fd, count, offset, hpos, List.mem_cons_of_mem _ hmem⟩
  · rw [World.statsAddFallbackPath, World.addStats_file]
    exact houtside
  · rw [World.statsAddFallbackPath, World.addStats_dev, hdev]
    rfl

theorem writeCalls_shortCounts : WriteCalls shortCountsEnv where
  memcpy _ := rfl
  streamSynchronize _ := rfl
  pwrite_eintr h := by simp [shortCountsEnv, shortCounts] at h
  fdatasync_eintr {i e} h := by
    have h : shortCounts.fdatasync i = .error e := h
    unfold shortCounts at h
    simp only at h
    split at h <;> simp_all
  finitely := ⟨5, fun i hi => ⟨fun count offset h => by simp [shortCountsEnv, shortCounts] at h,
    fun h => by
      have h : shortCounts.fdatasync i = .error EINTR := h
      unfold shortCounts at h
      simp only at h
      rw [if_neg (by omega)] at h
      simp at h⟩⟩

/-- Twelve bytes to offset 2; the first of the two `fdatasync`s is interrupted. -/
theorem ioImpl_write_exact_sample : ∃ n w' tr R,
    (∀ rounds, R ≤ rounds → ioImpl shortCountsEnv rounds .write sampleFile sampleBuffer.toIBuffer 12
      2 4 4 tenBytes = .inr (.ok n, w')) ∧
    n ≤ 12 ∧ Agree n w'.file.data 2 tenBytes.dev 4100 ∧ w'.trace = tenBytes.trace ++ tr ∧
    (n = 12 ∨ ZeroWrite tr) ∧ SameOutside 2 12 tenBytes.file.data w'.file.data ∧
    w'.dev = tenBytes.dev :=
  ioImpl_write_exact shortCountsEnv sampleFile sampleBuffer 12 ⟨2, by decide⟩ ⟨4, by decide⟩
    4 tenBytes rfl rfl (by decide) (by decide) writeCalls_shortCounts

end HipFile.Fallback
