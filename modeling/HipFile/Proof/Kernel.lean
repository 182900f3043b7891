import HipFile.Proof.AsyncBounds

/-!
# The copy kernel

* `kernelSpans_pairwise`: no two steps of the threads touch the same byte.
* `kernel_exact`: the kernel copies the bytes of its region and no other, for every block size
  and every order of the steps, and with an error it does nothing.
-/

namespace HipFile

open Bytes

variable {blockDim size thread thread' : ℕ} {sp sp' : Span}

/-! ## The steps -/

/-- The steps of one thread are disjoint. -/
theorem threadSpans_pairwise (blockDim size thread : ℕ) :
    (threadSpans blockDim size thread).Pairwise Span.Disjoint := by
  have hwords : (((List.range (size / 8)).filter fun idx => idx % blockDim = thread).map
      fun idx => Span.mk (8 * idx) 8).Pairwise Span.Disjoint := by
    rw [List.pairwise_map]
    refine (List.pairwise_lt_range.filter _).imp fun h => Span.disjoint_of_le ?_
    simp only
    omega
  have hbytes : ((List.range (size % 8)).map fun i => Span.mk (8 * (size / 8) + i) 1).Pairwise
      Span.Disjoint := by
    rw [List.pairwise_map]
    refine List.pairwise_lt_range.imp fun h => Span.disjoint_of_le ?_
    simp only
    omega
  unfold threadSpans
  refine List.pairwise_append.2 ⟨hwords, ?_, ?_⟩
  · split
    · exact hbytes
    · exact List.Pairwise.nil
  · -- the words end before the last bytes start
    intro sp hsp sp' hsp'
    obtain ⟨idx, hidx, rfl⟩ := List.mem_map.1 hsp
    have hlt := List.mem_range.1 (List.mem_of_mem_filter hidx)
    split at hsp'
    · obtain ⟨i, -, rfl⟩ := List.mem_map.1 hsp'
      refine Span.disjoint_of_le ?_
      simp only
      omega
    · exact absurd hsp' List.not_mem_nil

/-- Two threads have different words, and only one of them the last bytes. -/
theorem threadSpans_disjoint (hne : thread ≠ thread') (hsp : sp ∈ threadSpans blockDim size thread)
    (hsp' : sp' ∈ threadSpans blockDim size thread') : sp.Disjoint sp' := by
  rcases mem_threadSpans.1 hsp with ⟨idx, hidx, hmod, rfl⟩ | ⟨h0, i, hi, rfl⟩
  · rcases mem_threadSpans.1 hsp' with ⟨idx', hidx', hmod', rfl⟩ | ⟨-, i', hi', rfl⟩
    · have hidx : idx ≠ idx' := fun h => hne (by rw [← hmod, ← hmod', h])
      rcases Nat.lt_or_gt_of_ne hidx with h | h
      · refine Span.disjoint_of_le ?_
        simp only
        omega
      · refine (Span.disjoint_of_le ?_).symm
        simp only
        omega
    · refine Span.disjoint_of_le ?_
      simp only
      omega
  · rcases mem_threadSpans.1 hsp' with ⟨idx', hidx', -, rfl⟩ | ⟨h0', -⟩
    · refine (Span.disjoint_of_le ?_).symm
      simp only
      omega
    · exact absurd (h0.trans h0'.symm) hne

/-- **No two steps touch the same byte.** -/
theorem kernelSpans_pairwise (blockDim size : ℕ) :
    (kernelSpans blockDim size).Pairwise Span.Disjoint := by
  unfold kernelSpans
  rw [List.pairwise_flatMap]
  refine ⟨fun thread _ => threadSpans_pairwise blockDim size thread, ?_⟩
  exact List.pairwise_lt_range.imp fun h sp hsp sp' hsp' =>
    threadSpans_disjoint (Nat.ne_of_lt h) hsp hsp'

/-- The steps are those of the threads' loops. -/
theorem kernelSpans_eq_threadLoops (blockDim size : ℕ) :
    kernelSpans blockDim size = (List.range blockDim).flatMap (threadLoops blockDim size) := by
  unfold kernelSpans
  refine List.flatMap_congr fun thread h => ?_
  exact (threadLoops_eq size (List.mem_range.1 h)).symm

/-! ## The kernel -/

/-- **An exact copy**: the steps of the threads' loops, each once and no two at the same byte;
the destination has the `size` bytes of the source, and nothing else has changed. -/
structure KernelExact (env : StreamEnv) (blockDim size region bufferOffset : ℕ)
    (s s' : StreamState) : Prop where
  steps : ∃ steps, steps.Perm ((List.range blockDim).flatMap (threadLoops blockDim size)) ∧
    steps.Pairwise Span.Disjoint ∧ s'.bounceAccesses = s.bounceAccesses ++ steps ∧
      s'.gpuAccesses = s.gpuAccesses ++ steps.map (Span.shift bufferOffset)
  bytes : match s.op.ioType with
    | .read => Agree size s'.world.dev region (s.view env) 0 ∧
        SameOutside region size s.world.dev s'.world.dev ∧ s'.bounce = s.bounce
    | .write => Agree size s'.bounce 0 s.world.dev region ∧
        SameOutside 0 size s.bounce s'.bounce ∧ s'.world.dev = s.world.dev
  file : s'.world.file = s.world.file
  op : s'.op = s.op

/-- **The kernel copies exactly the bytes requested**: those its copy has counted on a read, and
the bound size on a write. With an error it changes nothing. -/
theorem kernel_exact (env : StreamEnv) (blockDim : ℕ) (s : StreamState) (opSize : ℕ)
    (bufferOffset : ℤ) (hB : 0 < blockDim) (hstatus : OffT s.op.bytesTransferredInternal)
    (hsize : s.op.size = .value opSize) (hoffset : s.op.bufferOffset = .value bufferOffset)
    (hbounce : s.op.bounceBufferDevPtr ≠ 0) (hgpu : s.op.gpuBuffer ≠ 0) :
    (0 ≤ s.op.bytesTransferredInternal →
      KernelExact env blockDim (kernelSize s.op.ioType opSize s.op.bytesTransferredInternal.toNat)
        ((s.op.gpuBuffer + toSizeT bufferOffset) % wordModulus) (toSizeT bufferOffset) s
        (hipFileMemcpyKernel env blockDim s)) ∧
    (s.op.bytesTransferredInternal < 0 → hipFileMemcpyKernel env blockDim s = s) := by
  refine ⟨fun h0 => ?_, kernel_of_error env blockDim⟩
  have hcast := toSizeT_of_nonneg h0 hstatus.lt_wordModulus
  have hperm := env.order_perm
    (kernelSpans blockDim (kernelSize s.op.ioType opSize s.op.bytesTransferredInternal.toNat))
  have hpair := hperm.pairwise_iff (R := Span.Disjoint) (fun h => h.symm)
  unfold hipFileMemcpyKernel
  rw [if_neg (by omega)]
  simp only [hsize, hoffset]
  rw [if_neg (by simp [hbounce, hgpu])]
  cases htype : s.op.ioType with
  | read =>
    simp only [htype, kernelSize] at hperm hpair ⊢
    rw [hcast]
    refine ⟨⟨_, ?_, ?_, rfl, rfl⟩, ?_, rfl, rfl⟩
    · rw [← kernelSpans_eq_threadLoops]
      exact hperm
    · exact hpair.2 (kernelSpans_pairwise _ _)
    · simp only [htype]
      rw [copySpans_kernelSpans env hB]
      exact ⟨agree_splice, sameOutside_splice (Nat.le_refl _) (Nat.le_refl _), trivial⟩
  | write =>
    simp only [htype, kernelSize] at hperm hpair ⊢
    refine ⟨⟨_, ?_, ?_, rfl, rfl⟩, ?_, rfl, rfl⟩
    · rw [← kernelSpans_eq_threadLoops]
      exact hperm
    · exact hpair.2 (kernelSpans_pairwise _ _)
    · simp only [htype]
      rw [copySpans_kernelSpans env hB]
      exact ⟨agree_splice, sameOutside_splice (Nat.le_refl _) (Nat.le_refl _), trivial⟩

/-- An op of thirteen bytes. -/
def kernelState : StreamState where
  op :=
    { AsyncOpFallback.construct 0x7ffff000 Fallback.sampleRequest 8192 with
      size := .value 13
      bufferOffset := .value 4
      bytesTransferredInternal := 13 }
  world := Fallback.tenBytes
  bounce i := i.toUInt8
  monitor := .init
  bytesTransferred := 0
  bounceAccesses := []
  gpuAccesses := []

/-- Three threads, whose steps are made in the reverse order. -/
def reverseEnv : StreamEnv :=
  { Fallback.streamEnv 0x7ffff000 Fallback.wholeSys Fallback.sampleRequest.params (fun _ => 0) with
    order := List.reverse
    order_perm := List.reverse_perm }

theorem kernel_exact_reverse :
    KernelExact reverseEnv 3 13 4100 4 kernelState (hipFileMemcpyKernel reverseEnv 3 kernelState) :=
  (kernel_exact reverseEnv 3 kernelState 13 4 (by decide) (by decide) rfl rfl (by decide)
    (by decide)).1 (by decide)

end HipFile
