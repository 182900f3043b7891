import HipFile.Model.SignedSums
import HipFile.Proof.FastpathAlignment
import HipFile.Proof.Region
import HipFile.Proof.ReturnValue

/-!
# The address that the fast path forms

The sum of the buffer's address and the client's offset is formed before the offset is
checked.

* `AddressOk`: neither sum overflows, and what is accepted lies in the buffer.
* `Fastpath.addressOk_iff`: so it is, unless the offset takes the address across `2^63`.
-/

namespace HipFile.Fastpath

variable {env : Env} {file : IFile} {size : ℕ}

/-- **The address is formed without overflow**, by the score and by the checks, and lies
within the buffer if the request is accepted. -/
structure AddressOk (env : Env) (file : IFile) (buffer : IBuffer) (size : ℕ)
    (fileOffset bufferOffset : ℤ) : Prop where
  score : (scoreSums env file buffer size fileOffset bufferOffset).Fits 64
  accept : (acceptSums env file buffer size fileOffset bufferOffset).Fits 64
  within : ∀ fd region,
    (acceptSums env file buffer size fileOffset bufferOffset).value = .ok (fd, region) →
      buffer.getBuffer ≤ region.devicePtr ∧
        region.devicePtr < buffer.getBuffer + buffer.getLength

/-- The sum fits unless it leaves the half of the address space that it starts in. -/
theorem addressSum_fits_iff (buffer : IBuffer) (bufferOffset : HoffT)
    (haddr : buffer.getBuffer < wordModulus) : (addressSum buffer bufferOffset).Fits 64 ↔
      (buffer.getBuffer < 2 ^ 63 ↔ buffer.getBuffer + bufferOffset.val < 2 ^ 63) := by
  have hoff := bufferOffset.2
  unfold OffT at hoff
  rw [addressSum, Sums.fits_add]
  unfold Sums.InRange toSsizeT wordModulus at *
  split_ifs <;> omega

/-- The score forms the sum for every request. -/
theorem scoreSums_fits_iff (env : Env) (file : IFile) (buffer : IBuffer) (size : ℕ)
    (fileOffset bufferOffset : ℤ) :
    (scoreSums env file buffer size fileOffset bufferOffset).Fits 64 ↔
      (addressSum buffer bufferOffset).Fits 64 := by
  simp only [scoreSums, Sums.fits_bind, Sums.fits_pure, and_true]

/-- The checks form no other sum. -/
theorem acceptSums_fits {buffer : IBuffer} {fileOffset bufferOffset : ℤ}
    (h : (addressSum buffer bufferOffset).Fits 64) :
    (acceptSums env file buffer size fileOffset bufferOffset).Fits 64 := by
  unfold acceptSums
  split
  · exact Sums.fits_pure _
  · rw [Sums.fits_bind]
    refine ⟨h, ?_⟩
    split
    · exact Sums.fits_pure _
    · split <;> exact Sums.fits_pure _

/-- An accepted address is that of a byte of the buffer. -/
theorem accept_within {buffer : Buffer} {fileOffset bufferOffset : HoffT} {fd : ℤ}
    {region : Region}
    (h : accept env file buffer.toIBuffer size fileOffset bufferOffset = .ok (fd, region)) :
    buffer.getBuffer ≤ region.devicePtr ∧
      region.devicePtr < buffer.getBuffer + buffer.getLength := by
  unfold accept at h
  split at h
  · cases h
  · split at h
    · cases h
    · split at h
      · cases h
      · rename_i hv
        obtain ⟨-, hb0, hlt, -⟩ := (paramsValid_iff bufferOffset.2).1 (not_not.1 hv)
        cases h
        have hspace := buffer.inSpace
        have hptr : devptr buffer.toIBuffer bufferOffset =
            buffer.getBuffer + bufferOffset.val.toNat := by
          unfold devptr toSizeT toSsizeT wordModulus at *
          split_ifs <;> omega
        simp only [hptr]
        omega

/-- **The address is formed without overflow** exactly if the buffer's address and the address
with the offset are both below `2^63` or both not. -/
theorem addressOk_iff (env : Env) (file : IFile) (buffer : Buffer) (size : ℕ)
    (fileOffset bufferOffset : HoffT) (haddr : buffer.getBuffer < wordModulus) :
    AddressOk env file buffer.toIBuffer size fileOffset bufferOffset ↔
      (buffer.getBuffer < 2 ^ 63 ↔ buffer.getBuffer + bufferOffset.val < 2 ^ 63) := by
  rw [← addressSum_fits_iff buffer.toIBuffer bufferOffset haddr]
  constructor
  · exact fun h => (scoreSums_fits_iff _ _ _ _ _ _).1 h.score
  · intro h
    refine ⟨(scoreSums_fits_iff _ _ _ _ _ _).2 h, acceptSums_fits h, fun fd region hok => ?_⟩
    rw [acceptSums_value] at hok
    exact accept_within hok

/-- The buffer that `oneAllocation` has at `0x10000`. -/
def allocationBuffer : Buffer := ⟨⟨0x10000, 8192, 0, .device, 0⟩, by decide, by decide⟩

/-- An offset in the middle of it. -/
theorem addressOk_middle :
    AddressOk amdEnv (alignedFile 4096) allocationBuffer.toIBuffer 4096 0 4096 :=
  (addressOk_iff amdEnv (alignedFile 4096) allocationBuffer 4096 ⟨0, by decide⟩
    ⟨4096, by decide⟩ (by decide)).2 (by decide)

/-- The largest offset, which a client may pass for any buffer that is found. -/
theorem not_addressOk_largest :
    (DriverState.getFileAndBuffer oneAllocation 8 0x10000 oneFile).1 =
        .ok (foundFile, allocationBuffer.toIBuffer) ∧
      ¬ AddressOk amdEnv foundFile allocationBuffer.toIBuffer 16 0 (2 ^ 63 - 1) := by
  refine ⟨rfl, fun h => ?_⟩
  have hfits := (scoreSums_fits_iff _ _ _ _ _ _).1 h.score
  exact absurd ((addressSum_fits_iff allocationBuffer.toIBuffer ⟨2 ^ 63 - 1, by decide⟩
    (by decide)).1 hfits) (by decide)

end HipFile.Fastpath
