import HipFile.Model.Region
import HipFile.Proof.Batch
import HipFile.Proof.Registration

/-!
# Accepted regions lie inside the allocation

HIP's answers about address ranges are given by a relation between pointers and
ranges, from which every call draws.

* `bufferMap_inAllocation`: the buffers of the map lie inside the ranges that HIP gave.
* `accepted_inAllocation`: so do the regions that `paramsValid` accepts, and on the way
  to them no computation wraps.
-/

namespace HipFile

/-! ## The computations -/

section

variable {w : ℕ} {base rangeSize ptr : BitVec w}

/-- The check of a registration adds pointer and length only where they fit. -/
theorem isValidBufferRegionWords_exact (length : BitVec w)
    (hrange : base.toNat + rangeSize.toNat < 2 ^ w) :
    (isValidBufferRegionWords base rangeSize ptr length).Exact := by
  have hptr := ptr.isLt
  have hspace : (Calc.sub (BitVec.allOnes w) ptr).Exact := by
    rw [Calc.exact_sub, BitVec.toNat_allOnes]; omega
  unfold isValidBufferRegionWords
  rw [Calc.exact_bind]
  refine ⟨hspace, ?_⟩
  simp only [Calc.sub_value, BitVec.lt_def, Calc.sub_toNat hspace, BitVec.toNat_allOnes]
  by_cases hs : 2 ^ w - 1 - ptr.toNat < length.toNat
  · simp only [hs, if_true, Calc.exact_pure]
  · simp only [hs, if_false, Calc.exact_bind, Calc.exact_add]
    refine ⟨by omega, hrange, ?_⟩
    split <;> exact Calc.exact_pure _

theorem temporaryLengthWords_exact (hbase : base.toNat ≤ ptr.toNat)
    (hptr : ptr.toNat ≤ base.toNat + rangeSize.toNat) :
    (temporaryLengthWords base rangeSize ptr).Exact := by
  have hbefore : (Calc.sub ptr base).Exact := by rw [Calc.exact_sub]; exact hbase
  unfold temporaryLengthWords
  rw [Calc.exact_bind, Calc.sub_value, Calc.exact_sub rangeSize, Calc.sub_toNat hbefore]
  exact ⟨hbefore, by omega⟩

/-- The check of a request subtracts the offset only where it is smaller. -/
theorem paramsValidWords_exact (length size fileOffset bufferOffset : BitVec w) :
    (paramsValidWords length size fileOffset bufferOffset).Exact := by
  unfold paramsValidWords
  split
  · exact Calc.exact_pure _
  · split
    · exact Calc.exact_pure _
    · split
      · exact Calc.exact_pure _
      · rename_i hl
        rw [Calc.exact_bind, Calc.exact_sub]
        refine ⟨by rw [BitVec.le_def] at hl; omega, ?_⟩
        split <;> exact Calc.exact_pure _

end

/-! ## The buffers of the map -/

/-- The answers that HIP gives: a pointer, and the range of its allocation. -/
abbrev Allocations := ℕ → HipMemAddressRange → Prop

/-- A range holds its pointer and lies in the address space. -/
def Allocations.Sound (A : Allocations) : Prop :=
  ∀ p range, A p range → range.base ≤ p ∧ p < range.base + range.size ∧
    range.base + range.size ≤ wordModulus - 1

/-- The runtime's answers are such answers. -/
def HipQueries.AnswersFrom (hip : HipQueries) (A : Allocations) : Prop :=
  ∀ p range, hip.hipMemGetAddressRange p = .ok range → A p range

/-- The runtime that a method asks gives such answers. -/
def DriverState.Call.AnswersFrom (A : Allocations) : DriverState.Call → Prop
  | .registerBuffer hip _ _ _ => hip.AnswersFrom A
  | _ => True

/-- The buffer lies inside the range that HIP gave for it. -/
def IBuffer.InAllocation (A : Allocations) (b : IBuffer) (range : HipMemAddressRange) : Prop :=
  A b.getBuffer range ∧ b.getBuffer + b.getLength ≤ range.base + range.size

variable {A : Allocations} {hip : HipQueries}

/-- **A registered buffer lies inside its allocation.** -/
theorem Buffer.registered_inAllocation (hA : A.Sound) (hhip : hip.AnswersFrom A)
    {buf length : ℕ} {flags : ℤ} {b : IBuffer}
    (h : Buffer.registered hip buf length flags = .ok b) : ∃ range, b.InAllocation A range := by
  unfold Buffer.registered at h
  split at h
  · cases h
  · rename_i attrs _
    cases hr : hip.hipMemGetAddressRange buf with
    | error e =>
      rw [isValidBufferRegion, hr] at h
      by_cases he : e = .notFound <;> simp [he] at h
    | ok range =>
      rw [isValidBufferRegion_of_range hr] at h
      obtain ⟨-, -, hspace⟩ := hA buf range (hhip buf range hr)
      have hmod : (range.base + range.size) % wordModulus = range.base + range.size :=
        Nat.mod_eq_of_lt (by unfold wordModulus at *; omega)
      by_cases hv : length ≤ wordModulus - 1 - buf ∧
          buf + length ≤ (range.base + range.size) % wordModulus
      · rw [decide_eq_true hv] at h
        simp only [Except.ok.injEq] at h
        subst h
        exact ⟨range, hhip buf range hr, hmod ▸ hv.2⟩
      · rw [decide_eq_false hv] at h
        cases h

/-- **A temporary buffer is the rest of its allocation.** -/
theorem Buffer.temporary_inAllocation (hA : A.Sound) (hhip : hip.AnswersFrom A) {buf : ℕ}
    {b : IBuffer} (h : Buffer.temporary hip buf = .ok b) : ∃ range, b.InAllocation A range := by
  unfold Buffer.temporary at h
  split at h
  · cases h
  · rename_i attrs _
    cases hr : hip.hipMemGetAddressRange buf with
    | error e => rw [hr] at h; cases h
    | ok range =>
      rw [hr] at h
      simp only [Except.ok.injEq] at h
      subst h
      obtain ⟨hbase, hlt, hspace⟩ := hA buf range (hhip buf range hr)
      refine ⟨range, hhip buf range hr, ?_⟩
      simp only
      rw [toSizeT_of_nonneg (by omega) (by unfold wordModulus at *; omega)]
      omega

/-- Every buffer of the map lies inside an allocation. -/
def BufferMap.InAllocation (A : Allocations) (m : BufferMap) : Prop :=
  ∀ buf b, m.fromPtr buf = some b → ∃ range, b.InAllocation A range

theorem BufferMap.empty_inAllocation : BufferMap.empty.InAllocation A := nofun

open DriverState

theorem clearAtZero_inAllocation {s : DriverState} (h : s.bufferMap.InAllocation A) :
    (clearAtZero s).bufferMap.InAllocation A := by
  unfold clearAtZero
  split
  · exact BufferMap.empty_inAllocation
  · exact h

/-- **The methods of the driver keep the buffers inside their allocations.** -/
theorem apply_inAllocation (hA : A.Sound) {s : DriverState} (h : s.bufferMap.InAllocation A)
    {c : DriverState.Call} (hc : c.AnswersFrom A) : (c.apply s).bufferMap.InAllocation A := by
  have hinit : (implicitInit s).bufferMap = s.bufferMap := (implicitInit_maps s).2.1
  cases c with
  | registerBuffer hip buf length flags =>
    show (BufferMap.registerBuffer hip buf length flags
      (implicitInit s).bufferMap).2.InAllocation A
    rw [hinit]
    unfold BufferMap.registerBuffer
    split
    · exact h
    · split
      · exact h
      · rename_i b hb
        intro buf' b' hb'
        simp only [Function.update_apply] at hb'
        split at hb'
        · cases hb'
          -- the new buffer has passed the constructor's checks
          exact Buffer.registered_inAllocation hA hc hb
        · exact h buf' b' hb'
  | deregisterBuffer buf useCount =>
    show ((do requireInit; onBufferMap (BufferMap.deregisterBuffer buf useCount) : Method Unit)
      s).2.bufferMap.InAllocation A
    rw [requireInit_bind]
    split
    · exact h
    · show (BufferMap.deregisterBuffer buf useCount s.bufferMap).2.InAllocation A
      unfold BufferMap.deregisterBuffer
      split
      · exact h
      · split
        · exact h
        · intro buf' b' hb'
          simp only [Function.update_apply] at hb'
          split at hb'
          · cases hb'
          · exact h buf' b' hb'
  | registerFile uf handle =>
    show (implicitInit s).bufferMap.InAllocation A
    rw [hinit]; exact h
  | deregisterFile fh useCount =>
    show ((do requireInit; onFileMap (FileMap.deregisterFile fh useCount) : Method Unit)
      s).2.bufferMap.InAllocation A
    rw [requireInit_bind]
    split <;> exact h
  | registerStream hip hipStream flags => exact h
  | deregisterStream hipStream => exact h
  | incrRefCount => exact h
  | decrRefCount =>
    show (requireNonneg (clearAtZero (dropRef s))).2.bufferMap.InAllocation A
    have hdrop : (dropRef s).bufferMap.InAllocation A := by
      unfold dropRef; split <;> exact h
    have hclear := clearAtZero_inAllocation hdrop
    unfold requireNonneg
    split <;> exact hclear
  | ensureInitialized =>
    show (implicitInit s).bufferMap.InAllocation A
    rw [hinit]; exact h

/-- **The buffers of the map lie inside their allocations**, in every run. -/
theorem bufferMap_inAllocation (hA : A.Sound) {s : DriverState}
    (hs : DriverState.machine.Reaches (fun _ c => c.AnswersFrom A) s) :
    s.bufferMap.InAllocation A := by
  refine hs.invariant (I := fun s => s.bufferMap.InAllocation A) BufferMap.empty_inAllocation ?_
  intro s c s' h hc hst
  obtain rfl := Option.some.inj hst
  exact apply_inAllocation hA h hc

/-- What `getBuffer` returns, registered or temporary, lies inside its allocation. -/
theorem getBuffer_inAllocation (hA : A.Sound) (hhip : hip.AnswersFrom A) {s : DriverState}
    (h : s.bufferMap.InAllocation A) {buf : ℕ} {b : IBuffer}
    (hb : (DriverState.getBuffer hip buf s).1 = .ok b) : ∃ range, b.InAllocation A range := by
  have hb' : (BufferMap.getBuffer hip buf s.bufferMap).1 = .ok b := hb
  unfold BufferMap.getBuffer at hb'
  split at hb'
  · exact Buffer.temporary_inAllocation hA hhip hb'
  · rename_i b' hreg
    obtain rfl := Except.ok.inj hb'
    exact h buf b' hreg

/-! ## Accepted requests -/

/-- What is computed on the way to an accepted region, in machine words, does not wrap
and has the values of the numbers: the check of a registration, the length of a
temporary buffer, and the check of the request. -/
structure IBuffer.NoWrap (b : IBuffer) (range : HipMemAddressRange)
    (size fileOffset bufferOffset : Word) : Prop where
  registered : (isValidBufferRegionWords (word range.base) (word range.size) (word b.getBuffer)
    (word b.getLength)).Exact
  registered_value : ∀ hip : HipQueries, hip.hipMemGetAddressRange b.getBuffer = .ok range →
    isValidBufferRegion hip b.getBuffer b.getLength =
      .ok (isValidBufferRegionWords (word range.base) (word range.size) (word b.getBuffer)
        (word b.getLength)).value
  temporary : (temporaryLengthWords (word range.base) (word range.size) (word b.getBuffer)).Exact
  temporary_value : toSizeT (range.size - (b.getBuffer - range.base)) =
    (temporaryLengthWords (word range.base) (word range.size) (word b.getBuffer)).value.toNat
  request : (paramsValidWords (word b.getLength) size fileOffset bufferOffset).Exact
  request_value : paramsValid b size.toNat fileOffset.toInt bufferOffset.toInt =
    (paramsValidWords (word b.getLength) size fileOffset bufferOffset).value

/-- The region of the request lies inside the buffer, and the buffer inside the range. -/
structure IBuffer.Contains (b : IBuffer) (range : HipMemAddressRange)
    (size fileOffset bufferOffset : Word) : Prop where
  fileOffset_nonneg : 0 ≤ fileOffset.toInt
  bufferOffset_eq : bufferOffset.toInt = bufferOffset.toNat
  base_le : range.base ≤ b.getBuffer + bufferOffset.toNat
  end_le_buffer : b.getBuffer + bufferOffset.toNat + size.toNat ≤ b.getBuffer + b.getLength
  end_le_range : b.getBuffer + bufferOffset.toNat + size.toNat ≤ range.base + range.size

section

variable {b : IBuffer} {range : HipMemAddressRange} {size fileOffset bufferOffset : Word}

theorem IBuffer.InAllocation.noWrap (hA : A.Sound) (hb : b.InAllocation A range) :
    b.NoWrap range size fileOffset bufferOffset := by
  obtain ⟨hbase, hlt, hspace⟩ := hA _ _ hb.1
  have hend := hb.2
  unfold wordModulus at hspace
  have hbase' : (word range.base).toNat = range.base := word_toNat (by unfold wordModulus; omega)
  have hsize' : (word range.size).toNat = range.size := word_toNat (by unfold wordModulus; omega)
  have hptr' : (word b.getBuffer).toNat = b.getBuffer :=
    word_toNat (by unfold wordModulus; omega)
  have hlen' : (word b.getLength).toNat = b.getLength :=
    word_toNat (by unfold wordModulus; omega)
  have hvalid (hip : HipQueries) := isValidBufferRegion_words hip (word range.base)
    (word range.size) (word b.getBuffer) (word b.getLength)
  have hrest := temporaryLength_words (word range.base) (word range.size) (word b.getBuffer)
  rw [hbase', hsize', hptr'] at hrest
  simp only [hbase', hsize', hptr', hlen'] at hvalid
  exact {
    registered := isValidBufferRegionWords_exact _ (by rw [hbase', hsize']; omega)
    registered_value := fun hip h => hvalid hip h
    temporary := temporaryLengthWords_exact (by rw [hbase', hptr']; exact hbase)
      (by rw [hbase', hsize', hptr']; omega)
    temporary_value := hrest
    request := paramsValidWords_exact _ _ _ _
    request_value := paramsValid_words size fileOffset bufferOffset hlen'.symm }

theorem IBuffer.InAllocation.contains (hA : A.Sound) (hb : b.InAllocation A range)
    (hv : paramsValid b size.toNat fileOffset.toInt bufferOffset.toInt = true) :
    b.Contains range size fileOffset bufferOffset := by
  obtain ⟨hbase, -, -⟩ := hA _ _ hb.1
  have hend := hb.2
  have hoff : OffT bufferOffset.toInt := by
    have h1 := BitVec.le_toInt bufferOffset
    have h2 := bufferOffset.toInt_lt
    exact ⟨h1, h2⟩
  obtain ⟨hfile, hpos, -, hlen⟩ := (paramsValid_iff hoff).1 hv
  have hlt := bufferOffset.isLt
  have heq : bufferOffset.toInt = bufferOffset.toNat := by
    rw [BitVec.toInt_eq_toNat_cond] at hpos ⊢
    split <;> omega
  rw [heq, Int.toNat_natCast] at hlen
  exact ⟨hfile, heq, by omega, by omega, by omega⟩

end

/-- **What is accepted lies inside the allocation**: for any buffer that the driver
hands out, registered with any length or temporary, in any run. The region check of a
batch operation is the same. -/
theorem accepted_inAllocation (A : Allocations) (hA : A.Sound) (s : DriverState)
    (hs : DriverState.machine.Reaches (fun _ c => c.AnswersFrom A) s) (hip : HipQueries)
    (hhip : hip.AnswersFrom A) (buf : ℕ) (b : IBuffer)
    (hb : (DriverState.getBuffer hip buf s).1 = .ok b) :
    (∃ range, A b.getBuffer range ∧ ∀ size fileOffset bufferOffset : Word,
      paramsValid b size.toNat fileOffset.toInt bufferOffset.toInt = true →
        b.NoWrap range size fileOffset bufferOffset ∧
          b.Contains range size fileOffset bufferOffset) ∧
    ∀ (address : ℕ) (params : HipFileIOParams) (shared : SharedBuffer) (file : IFile),
      (∃ op, BatchOperation.construct address params shared file = .ok op) ↔
        paramsValid shared.object params.size params.fileOffset params.devPtrOffset = true ∧
          params.devPtrBase = shared.object.getBuffer ∧ params.fh = file.handle ∧
          (params.opcode = .batchRead ∨ params.opcode = .batchWrite) ∧ params.mode = .batch := by
  constructor
  · obtain ⟨range, hin⟩ := getBuffer_inAllocation hA hhip (bufferMap_inAllocation hA hs) hb
    exact ⟨range, hin.1, fun size fileOffset bufferOffset hv =>
      ⟨hin.noWrap hA, hin.contains hA hv⟩⟩
  · intro address params shared file
    simp only [BatchOperation.construct_eq_ok_iff]
    constructor
    · rintro ⟨op, -, hbase, hfh, hv, hop, hmode⟩
      exact ⟨hv, hbase, hfh, hop, hmode⟩
    · rintro ⟨hv, hbase, hfh, hop, hmode⟩
      exact ⟨_, rfl, hbase, hfh, hv, hop, hmode⟩

/-- A runtime with one allocation of 8192 bytes at `0x10000`. -/
def oneAllocation : HipQueries where
  hipPointerGetAttributes _ := .ok ⟨.device, 0⟩
  hipMemGetAddressRange p :=
    if 0x10000 ≤ p ∧ p < 0x12000 then .ok ⟨0x10000, 8192⟩ else .error .notFound
  hipStreamGetDevice _ := .error .invalidValue

/-- Registered with 4096 bytes, of which a request gets the last 512. -/
theorem accepted_inAllocation_sample :
    ∃ range, oneAllocation.hipMemGetAddressRange 0x10000 = .ok range ∧
      range.base ≤ 0x10000 + 3584 ∧ 0x10000 + 3584 + 512 ≤ range.base + range.size := by
  have hA : Allocations.Sound
      (fun p range => oneAllocation.hipMemGetAddressRange p = .ok range) := by
    intro p range h
    simp only [oneAllocation] at h
    split at h
    · rename_i hp
      cases h
      refine ⟨hp.1, hp.2, by decide⟩
    · cases h
  obtain ⟨⟨range, hrange, h⟩, -⟩ := accepted_inAllocation _ hA
    (DriverState.Call.apply .init (.registerBuffer oneAllocation 0x10000 4096 0))
    (.step (.registerBuffer oneAllocation 0x10000 4096 0) .init (fun _ _ h => h) rfl)
    oneAllocation (fun _ _ h => h) 0x10000 ⟨0x10000, 4096, 0, .device, 0⟩ (by decide)
  have hc := (h 512 0 3584 (by decide)).2
  exact ⟨range, hrange, hc.base_le, hc.end_le_range⟩

end HipFile
