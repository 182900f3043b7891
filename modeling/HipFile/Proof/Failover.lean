import HipFile.Model.BackendWithFallback

/-!
# Failover

* `FailsWith`: the exception that a failed `_io_impl` ends in, thrown by it or for a negative
  count.
* `io_ok`, `io_error`: the two ends of `BackendWithFallback::io`.
* `failover_transparent`: each of them, with the calls made.
-/

namespace HipFile

variable {ω : Type}

/-- The backends of a request that fails over. -/
inductive Attempt
  | primary
  | fallback
  deriving DecidableEq, Repr

/-- **The fast path with a fallback registered**, where both record their calls. -/
def recordedFastpath (score : IFile → IBuffer → ℕ → ℤ → ℤ → ℤ) (ioImpl : IoImpl ω ℤ)
    (fallbackBackend : Backend ω) : BackendWithFallback (ω × List (IoCall Attempt)) where
  score := score
  ioImpl := IoImpl.recorded .primary ioImpl
  isFallbackEligible := Fastpath.isFallbackEligible
  fallbackBackend := some (fallbackBackend.recorded .fallback)

/-- What `_io_impl` returns or throws makes the `try` block throw `e`. -/
def FailsWith (r : Except Exn ℤ) (e : Exn) : Prop :=
  r = .error e ∨ ∃ n < 0, r = .ok n ∧ e = .systemError (-toInt n)

theorem FailsWith.bind {r : Except Exn ℤ} {e : Exn} (h : FailsWith r e) :
    (r >>= throwNegative) = .error e := by
  rcases h with rfl | ⟨n, hn, rfl, rfl⟩
  · rfl
  · exact if_pos hn

theorem isFallbackEligible_iff {e : Exn} : Fastpath.isFallbackEligible e = true ↔
    e = .systemError ENODEV ∨ e = .systemError EREMOTEIO := by
  cases e with
  | systemError code => simp [Fastpath.isFallbackEligible]
  | _ => simp [Fastpath.isFallbackEligible]

namespace BackendWithFallback

variable {this : BackendWithFallback ω} {type : IoType} {file : IFile} {buffer : IBuffer}
  {size : ℕ} {fileOffset bufferOffset : ℤ} {w : ω}

theorem io_ok {n : ℤ} (hn : 0 ≤ n)
    (h : (this.ioImpl type file buffer size fileOffset bufferOffset w).1 = .ok n) :
    this.io type file buffer size fileOffset bufferOffset w =
      (.ok n.toNat, (this.ioImpl type file buffer size fileOffset bufferOffset w).2) := by
  have hbind : ((.ok n : Except Exn ℤ) >>= throwNegative) = .ok n.toNat :=
    if_neg (not_lt.2 hn)
  simp only [io, h, hbind]

theorem io_error {e : Exn}
    (h : FailsWith (this.ioImpl type file buffer size fileOffset bufferOffset w).1 e) :
    this.io type file buffer size fileOffset bufferOffset w =
      this.failover e type file buffer size fileOffset bufferOffset
        (this.ioImpl type file buffer size fileOffset bufferOffset w).2 := by
  simp only [io, h.bind]

end BackendWithFallback

/-- **Failover is transparent**: a failure that the fallback may serve ends as the fallback
alone ends, run from the world that the fast path has left; any other outcome is that of the
fast path. -/
theorem failover_transparent (score : IFile → IBuffer → ℕ → ℤ → ℤ → ℤ) (ioImpl : IoImpl ω ℤ)
    (fallbackBackend : Backend ω) (type : IoType) (file : IFile) (buffer : IBuffer) (size : ℕ)
    (fileOffset bufferOffset : ℤ) (w : ω) :
    let primary := ioImpl type file buffer size fileOffset bufferOffset w
    let out := (recordedFastpath score ioImpl fallbackBackend).io type file buffer size fileOffset
      bufferOffset (w, [])
    let call := fun attempt : Attempt =>
      IoCall.mk attempt type file buffer size fileOffset bufferOffset
    let eligible := fun e => (e = .systemError ENODEV ∨ e = .systemError EREMOTEIO) ∧
      0 ≤ fallbackBackend.score file buffer size fileOffset bufferOffset
    ((∃ n, 0 ≤ n ∧ primary.1 = .ok n) ∨ ∃ e, FailsWith primary.1 e) ∧
      (∀ n, 0 ≤ n → primary.1 = .ok n →
        out = (.ok n.toNat, primary.2, [call .primary])) ∧
      (∀ e, FailsWith primary.1 e → eligible e →
        (out.1, out.2.1) =
            fallbackBackend.io type file buffer size fileOffset bufferOffset primary.2 ∧
          out.2.2 = [call .primary, call .fallback]) ∧
      ∀ e, FailsWith primary.1 e → ¬ eligible e →
        out = (.error e, primary.2, [call .primary]) := by
  intro primary out call eligible
  refine ⟨?_, fun n hn h => BackendWithFallback.io_ok hn h, fun e h he => ?_, fun e h he => ?_⟩
  · cases hp : primary.1 with
    | error e => exact Or.inr ⟨e, Or.inl rfl⟩
    | ok n =>
      by_cases hn : 0 ≤ n
      · exact Or.inl ⟨n, hn, rfl⟩
      · exact Or.inr ⟨_, Or.inr ⟨n, not_le.1 hn, rfl, rfl⟩⟩
  · have hout : out = (fallbackBackend.recorded .fallback).io type file buffer size fileOffset
        bufferOffset (primary.2, [call .primary]) :=
      (BackendWithFallback.io_error h).trans (if_pos ⟨isFallbackEligible_iff.2 he.1, he.2⟩)
    rw [hout]
    exact ⟨rfl, rfl⟩
  · exact (BackendWithFallback.io_error h).trans
      (if_neg fun hif => he ⟨isFallbackEligible_iff.1 hif.1, hif.2⟩)

end HipFile
