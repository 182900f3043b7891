import HipFile.Model.Fallback
import HipFile.Model.Fastpath
import HipFile.Proof.FallbackCalls
import HipFile.Proof.FallbackRead

/-!
# The requests that the two backends accept

The fallback limits the size of a request to `getMaxRwCount()` and then checks the
region; the fast path checks the region of the whole size and then limits it.

* `Fallback.rejects_iff`, `Fastpath.rejects_iff`: the requests each refuses.
* `sameAcceptance_iff`: the requests on which the two agree.
-/

namespace HipFile

open Fallback (shortCountsEnv sampleBuffer tenBytes)

variable {env : Env} {type : IoType} {file : IFile} {buffer : IBuffer} {size chunkSize : ℕ}
  {fileOffset bufferOffset : ℤ} {w : World}

/-! ## The fallback -/

/-- The fallback refuses the request with `std::invalid_argument`. -/
def Fallback.Rejects (env : Env) (type : IoType) (file : IFile) (buffer : IBuffer) (size : ℕ)
    (fileOffset bufferOffset : ℤ) (chunkSize : ℕ) (w : World) : Prop :=
  ∃ rounds what w', Fallback.ioImpl env rounds type file buffer size fileOffset bufferOffset
    chunkSize w = .inr (.error (.invalidArgument what), w')

namespace Fallback

variable {s : LoopState} {e : Exn}

/-- A round that leaves the loop by an exception leaves it by one of a call's. -/
theorem fromCall_round {w' : World}
    (h : round env file type buffer size fileOffset bufferOffset chunkSize s =
      .inr (.error e, w')) : FromCall e := by
  unfold round at h
  simp only at h
  split at h
  · unfold loopTest at h
    split_ifs at h <;> simp at h
  · rename_i ht
    unfold loopTest at h
    split_ifs at h
    · simp at h
    · simp only [Sum.inr.injEq, Prod.mk.injEq, Except.error.injEq] at h
      exact h.1 ▸ Or.inl ⟨_, rfl⟩
  · rename_i ht
    simp only [Sum.inr.injEq, Prod.mk.injEq, Except.error.injEq] at h
    exact h.1 ▸ (calls_transfer env file type _ _ _ s).2 _ (congrArg Prod.fst ht)

/-- **The fallback refuses the requests whose limited region is not in the buffer.** -/
theorem rejects_iff (hfb : env.config.fallback = true) :
    Rejects env type file buffer size fileOffset bufferOffset chunkSize w ↔
      paramsValid buffer (min size env.maxRwCount) fileOffset bufferOffset = false := by
  constructor
  · rintro ⟨rounds, what, w', h⟩
    by_contra hv
    simp only [Bool.not_eq_false] at hv
    simp only [ioImpl, accept_ok hfb hv] at h
    split at h
    · simp at h
    · split at h
      · simp at h
      · simp at h
      · -- an exception after the checks is one of a call's
        rename_i e _ hit
        simp only [Sum.inr.injEq, Prod.mk.injEq, Except.error.injEq] at h
        have hexit : ∀ (s : LoopState) (r : Outcome), True → round env file type buffer
            (min size env.maxRwCount) fileOffset bufferOffset chunkSize s = .inr r →
            ∀ e, r.1 = .error e → FromCall e := by
          rintro s ⟨_, w'⟩ _ hr e rfl
          exact fromCall_round hr
        have hround := (Loop.iter_inv (I := fun _ => True) (fun _ _ _ _ => trivial) hexit _ _
          trivial).2 _ hit
        exact not_fromCall_invalidArgument what (h.1 ▸ hround e rfl)
  · intro hv
    exact ⟨0, _, w, by simp only [ioImpl, accept, hfb, hv]; rfl⟩

end Fallback

/-! ## The fast path -/

namespace Fastpath

/-- The fast path refuses the request with `std::invalid_argument`. -/
def Rejects (env : Env) (type : IoType) (file : IFile) (buffer : IBuffer) (size : ℕ)
    (fileOffset bufferOffset : ℤ) (w : World) : Prop :=
  ∃ what w', ioImpl env type file buffer size fileOffset bufferOffset w =
    (.error (.invalidArgument what), w')

variable {fd : ℤ}

/-- An accepted request, when the fast path is enabled. -/
theorem accept_ok (hfast : env.config.fastpath = true) (hfd : file.unbufferedFd = some fd)
    (hv : paramsValid buffer size fileOffset bufferOffset = true) :
    accept env file buffer size fileOffset bufferOffset =
      .ok (fd, ⟨devptr buffer bufferOffset, fileOffset, min size env.maxRwCount⟩) := by
  simp [accept, hfast, hfd, hv]

/-- `hipAmdFileRead`, `hipAmdFileWrite` do not throw `std::invalid_argument`. -/
theorem hipAmdFile_ne_invalidArgument {hip : HipIo} {devicePtr n : ℕ} {offset : ℤ} {what : String}
    {w' : World} : w.hipAmdFile hip type fd devicePtr n offset ≠
      (.error (.invalidArgument what), w') := by
  intro h
  unfold World.hipAmdFile at h
  split at h
  · simp at h
  · simp only at h
    split at h
    · simp at h
    · split at h <;> simp at h

/-- **The fast path refuses the requests whose whole region is not in the buffer.** -/
theorem rejects_iff (hfast : env.config.fastpath = true) (hfd : file.unbufferedFd = some fd) :
    Rejects env type file buffer size fileOffset bufferOffset w ↔
      paramsValid buffer size fileOffset bufferOffset = false := by
  constructor
  · rintro ⟨what, w', h⟩
    by_contra hv
    simp only [Bool.not_eq_false] at hv
    simp only [ioImpl, accept_ok hfast hfd hv] at h
    split at h
    · simp at h
    · split at h
      · rename_i hamd
        simp only [Prod.mk.injEq, Except.error.injEq] at h
        exact hipAmdFile_ne_invalidArgument (h.1 ▸ hamd)
      · simp at h
  · intro hv
    exact ⟨_, w, by simp only [ioImpl, accept, hfast, hfd, hv]; rfl⟩

end Fastpath

/-! ## Both -/

/-- The two backends compute the same device address. -/
theorem devptr_eq_devicePosition (buffer : IBuffer) (bufferOffset : ℤ) :
    Fastpath.devptr buffer bufferOffset = devicePosition buffer bufferOffset 0 := by
  unfold Fastpath.devptr devicePosition toSsizeT toSizeT wordModulus
  split_ifs <;> omega

/-- The backends accept the same requests: the same are refused with
`std::invalid_argument`, and of an accepted request the same region is moved. -/
structure SameAcceptance (env : Env) (type : IoType) (file : IFile) (buffer : IBuffer) (size : ℕ)
    (fileOffset bufferOffset : ℤ) (chunkSize : ℕ) (w : World) : Prop where
  rejects : Fastpath.Rejects env type file buffer size fileOffset bufferOffset w ↔
    Fallback.Rejects env type file buffer size fileOffset bufferOffset chunkSize w
  region : ∀ fd r r', Fastpath.accept env file buffer size fileOffset bufferOffset = .ok (fd, r) →
    Fallback.accept env buffer size fileOffset bufferOffset = .ok r' →
    r = r' ∧ r.size = min size env.maxRwCount

/-- The region a backend accepts is the same, whenever both accept one. -/
theorem region_eq (hfast : env.config.fastpath = true) (hfb : env.config.fallback = true) {fd : ℤ}
    (hfd : file.unbufferedFd = some fd) {fd' : ℤ} {r r' : Region}
    (h : Fastpath.accept env file buffer size fileOffset bufferOffset = .ok (fd', r))
    (h' : Fallback.accept env buffer size fileOffset bufferOffset = .ok r') :
    r = r' ∧ r.size = min size env.maxRwCount := by
  simp only [Fastpath.accept, hfast, hfd] at h
  simp only [Fallback.accept, hfb] at h'
  split at h
  · simp at h
  · split at h
    · simp at h
    · split at h'
      · simp at h'
      · split at h'
        · simp at h'
        · simp only [Except.ok.injEq, Prod.mk.injEq] at h h'
          rw [← h.2, ← h', devptr_eq_devicePosition]
          exact ⟨rfl, rfl⟩

/-- **The two backends accept the same requests except** those that end beyond the
buffer although `getMaxRwCount()` bytes from their start would fit. -/
theorem sameAcceptance_iff (env : Env) (type : IoType) (file : IFile) (buffer : IBuffer) (size : ℕ)
    (fileOffset bufferOffset : HoffT) (chunkSize : ℕ) (w : World)
    (hfast : env.config.fastpath = true) (hfb : env.config.fallback = true)
    (hfd : file.unbufferedFd.isSome) :
    SameAcceptance env type file buffer size fileOffset bufferOffset chunkSize w ↔
      ¬ (0 ≤ fileOffset.val ∧ 0 ≤ bufferOffset.val ∧
        bufferOffset.val.toNat < buffer.getLength ∧
        env.maxRwCount ≤ buffer.getLength - bufferOffset.val.toNat ∧
        buffer.getLength - bufferOffset.val.toNat < size) := by
  obtain ⟨fd, hfd⟩ := Option.isSome_iff_exists.1 hfd
  have hrejects : (Fastpath.Rejects env type file buffer size fileOffset bufferOffset w ↔
      Fallback.Rejects env type file buffer size fileOffset bufferOffset chunkSize w) ↔
      (paramsValid buffer size fileOffset bufferOffset = true ↔
        paramsValid buffer (min size env.maxRwCount) fileOffset bufferOffset = true) := by
    rw [Fastpath.rejects_iff hfast hfd, Fallback.rejects_iff hfb, ← Bool.not_eq_true,
      ← Bool.not_eq_true, not_iff_not]
  rw [paramsValid_iff bufferOffset.2, paramsValid_iff bufferOffset.2] at hrejects
  constructor
  · intro h
    have := hrejects.1 h.rejects
    omega
  · intro h
    refine ⟨hrejects.2 ?_, fun fd' r r' => region_eq hfast hfb hfd⟩
    omega

/-- A regular file opened with an unbuffered descriptor too. -/
def directFile : IFile := ⟨1, 3, 3, some 4, 4, 4096, false, true, true, false⟩

/-- A buffer of exactly `getMaxRwCount()` bytes, with 4 KiB pages. -/
def fullBuffer : IBuffer := ⟨4096, 0x7ffff000, 0, .device, 0⟩

/-- A request of twelve bytes for which there is room. -/
theorem sameAcceptance_twelve :
    SameAcceptance shortCountsEnv .read directFile sampleBuffer.toIBuffer 12 2 4 4096 tenBytes :=
  (sameAcceptance_iff shortCountsEnv .read directFile sampleBuffer.toIBuffer 12 ⟨2, by decide⟩
    ⟨4, by decide⟩ 4096 tenBytes rfl rfl rfl).2 (by decide)

/-- One byte more than the buffer holds, and than one transfer may move: the
fallback reads the whole buffer, the fast path refuses. -/
theorem not_sameAcceptance_fullBuffer :
    ¬ SameAcceptance shortCountsEnv .read directFile fullBuffer 0x7ffff001 0 0 4096 tenBytes := by
  intro h
  have hrejects := h.rejects
  rw [Fastpath.rejects_iff rfl rfl, Fallback.rejects_iff rfl] at hrejects
  exact absurd (hrejects.1 (by decide)) (by decide)

end HipFile
