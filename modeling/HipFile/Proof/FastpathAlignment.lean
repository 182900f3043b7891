import HipFile.Proof.Acceptance

/-!
# The alignment of what the fast path is handed

`Fastpath::score` checks the alignment of the whole size, and `Fastpath::_io_impl` limits the
size to `getMaxRwCount()`, a multiple of the page size.

* `getMaxRwCount_two_pow`, `dvd_getMaxRwCount_iff`: the limit, for a page size that is a power
  of two.
* `Fastpath.mem_madeCalls`: the call that an accepted request makes.
* `Fastpath.handedAligned_iff`: it is aligned, unless the size is cut at a page boundary that
  is not aligned.
-/

namespace HipFile

/-! ## The limit -/

/-- The limit has the bits from the page size up to bit 31. -/
theorem getMaxRwCount_two_pow (p : ℕ) : getMaxRwCount (2 ^ p) = (2 ^ (31 - p) - 1) <<< p := by
  have hcast : ((2 ^ p : ℕ) : ℤ) - 1 = ((2 ^ p - 1 : ℕ) : ℤ) := by
    have := Nat.two_pow_pos p
    omega
  have hmask : getPageMask (2 ^ p) = 2 ^ 64 - ((2 ^ p - 1) % 2 ^ 64 + 1) := by
    rw [getPageMask, hcast, toSizeT_natCast, wordModulus]
    omega
  refine Nat.eq_of_testBit_eq fun i => ?_
  rw [getMaxRwCount, INT_MAX, hmask, Nat.testBit_and, Nat.testBit_two_pow_sub_one,
    Nat.testBit_two_pow_sub_succ (Nat.mod_lt _ (by decide)), Nat.testBit_mod_two_pow,
    Nat.testBit_two_pow_sub_one, Nat.testBit_shiftLeft, Nat.testBit_two_pow_sub_one]
  by_cases hi : i < 31
  · by_cases hp : i < p
    · simp [hp]
    · have h64 : i < 64 := by omega
      have hle : p ≤ i := by omega
      have hsub : i - p < 31 - p := by omega
      simp [hi, hp, h64, hle, hsub]
  · have hsub : ¬ i - p < 31 - p := by omega
    simp [hi, hsub]

/-- **The limit is a multiple of every power of two up to the page size**, and of no other. -/
theorem dvd_getMaxRwCount_iff (a p : ℕ) : 2 ^ a ∣ getMaxRwCount (2 ^ p) ↔ a ≤ p ∨ 31 ≤ p := by
  rw [getMaxRwCount_two_pow, Nat.shiftLeft_eq]
  constructor
  · intro h
    by_contra hno
    rw [not_or, not_le, not_le] at hno
    -- else twice the page size divides an odd multiple of it
    have hpow : 2 ^ p * 2 ∣ 2 ^ p * (2 ^ (31 - p) - 1) := by
      rw [← pow_succ, mul_comm]
      exact (pow_dvd_pow 2 hno.1).trans h
    have htwo := Nat.dvd_of_mul_dvd_mul_left (Nat.two_pow_pos p) hpow
    obtain ⟨k, hk⟩ : ∃ k, 31 - p = k + 1 := ⟨30 - p, by omega⟩
    rw [hk, pow_succ] at htwo
    have := Nat.two_pow_pos k
    omega
  · rintro (h | h)
    · exact (pow_dvd_pow 2 h).mul_left _
    · rw [Nat.sub_eq_zero_of_le h]
      simp

namespace Fastpath

/-- The test of a mask is one of a multiple. -/
theorem aligned_two_pow (a value : ℕ) : aligned (2 ^ a) value = true ↔ 2 ^ a ∣ value := by
  unfold aligned
  rw [Nat.and_two_pow_sub_one_eq_mod, Nat.dvd_iff_mod_eq_zero]
  simp

variable {env : Env} {type : IoType} {file : IFile} {buffer : IBuffer} {size : ℕ}
  {fileOffset bufferOffset : HoffT} {w : World}

/-- **What a score that accepts has checked**, for alignments that are powers of two. -/
theorem score_aligned {a m : ℕ} (hoffset : file.dioOffsetAlign = 2 ^ a)
    (hmem : file.dioMemAlign = 2 ^ m)
    (hscore : 0 ≤ score env file buffer size fileOffset bufferOffset) :
    env.config.fastpath = true ∧ file.unbufferedFd.isSome = true ∧ 0 ≤ fileOffset.val ∧
      2 ^ a ∣ fileOffset.val.toNat ∧ 2 ^ a ∣ size ∧ 2 ^ m ∣ devptr buffer bufferOffset := by
  unfold score at hscore
  split at hscore
  · rename_i h
    obtain ⟨hfast, hfd, -, hf0, -, -, hf, hsize, hptr⟩ := h
    rw [hoffset, aligned_two_pow] at hf hsize
    rw [hmem, aligned_two_pow] at hptr
    rw [toSizeT_of_nonneg hf0 fileOffset.2.lt_wordModulus] at hf
    exact ⟨hfast, hfd, hf0, hf, hsize, hptr⟩
  · exact absurd hscore (by decide)

/-! ## The call -/

/-- A request of this direction, once accepted, comes to its call. -/
def Calls (env : Env) (type : IoType) (w : World) : Prop :=
  (env.hip.hipAmdFile type).isSome = true ∧
    (w.hipInited = true ∨ env.hip.hipInit w.calls = .ok ())

/-- The calls made on the way from one world to another. -/
def madeCalls (w w' : World) : List Event := w'.trace.drop w.trace.length

theorem madeCalls_eq {w w' : World} {tr : List Event} (h : w'.trace = w.trace ++ tr) :
    madeCalls w w' = tr := by
  rw [madeCalls, h, List.drop_left]

/-- The initialisation makes at most its own call, and decides whether the next is made. -/
theorem hipInitOnce_trace (w : World) (hip : HipIo) : ∃ init,
    (w.hipInitOnce hip).2.trace = w.trace ++ init ∧ (∀ e ∈ init, ∃ ret, e = .hipInit ret) ∧
      ((w.hipInitOnce hip).1 = .ok () ↔ w.hipInited = true ∨ hip.hipInit w.calls = .ok ()) := by
  unfold World.hipInitOnce
  by_cases hinited : w.hipInited = true
  · rw [if_pos hinited]
    exact ⟨[], (List.append_nil _).symm, nofun, by simp [hinited]⟩
  · rw [if_neg hinited]
    refine ⟨[.hipInit (hip.hipInit w.calls)], ?_, ?_, ?_⟩
    · cases hip.hipInit w.calls <;> rfl
    · exact fun e he => ⟨_, List.mem_singleton.1 he⟩
    · cases hip.hipInit w.calls <;> simp [hinited]

/-- The runtime's function is called if there is one. -/
theorem hipAmdFile_trace (w : World) (hip : HipIo) (type : IoType) (fd : ℤ) (devicePtr n : ℕ)
    (offset : ℤ) : (w.hipAmdFile hip type fd devicePtr n offset).2.trace = w.trace ++
      if (hip.hipAmdFile type).isSome then [.hipAmdFile type fd devicePtr n offset] else [] := by
  unfold World.hipAmdFile
  cases hip.hipAmdFile type with
  | none => exact (List.append_nil _).symm
  | some call =>
    simp only
    split
    · rfl
    · split <;> rfl

variable {fd : ℤ} {region : Region}

/-- An initialisation that fails is the last call. -/
theorem ioImpl_trace_error {w₀ : World} {e : HipError}
    (haccept : accept env file buffer size fileOffset bufferOffset = .ok (fd, region))
    (hinit : w.hipInitOnce env.hip = (.error e, w₀)) :
    (ioImpl env type file buffer size fileOffset bufferOffset w).2.trace = w₀.trace := by
  simp only [ioImpl, haccept, hinit]

/-- After it the runtime's function is called. -/
theorem ioImpl_trace_ok (type : IoType) {w₀ : World}
    (haccept : accept env file buffer size fileOffset bufferOffset = .ok (fd, region))
    (hinit : w.hipInitOnce env.hip = (.ok (), w₀)) :
    (ioImpl env type file buffer size fileOffset bufferOffset w).2.trace = w₀.trace ++
      if (env.hip.hipAmdFile type).isSome then
        [.hipAmdFile type fd region.devicePtr region.size region.fileOffset] else [] := by
  rw [← hipAmdFile_trace]
  simp only [ioImpl, haccept, hinit]
  rcases w₀.hipAmdFile env.hip type fd region.devicePtr region.size region.fileOffset with
    ⟨r, w₁⟩
  cases r with
  | error e => rfl
  | ok n => exact World.addStats_trace _ _ _

/-- **The calls of an accepted request**: the runtime's function is called with the descriptor
and the region that have been accepted. -/
theorem mem_madeCalls
    (haccept : accept env file buffer size fileOffset bufferOffset = .ok (fd, region))
    (type' : IoType) (fd' : ℤ) (devicePtr n : ℕ) (offset : ℤ) :
    .hipAmdFile type' fd' devicePtr n offset ∈
        madeCalls w (ioImpl env type file buffer size fileOffset bufferOffset w).2 ↔
      Calls env type w ∧ type' = type ∧ fd' = fd ∧ devicePtr = region.devicePtr ∧
        n = region.size ∧ offset = region.fileOffset := by
  obtain ⟨init, htrace, hinit, hok⟩ := hipInitOnce_trace w env.hip
  have hnot : Event.hipAmdFile type' fd' devicePtr n offset ∉ init := fun h => by
    obtain ⟨ret, hret⟩ := hinit _ h
    cases hret
  rcases hi : w.hipInitOnce env.hip with ⟨r, w₀⟩
  rw [hi] at htrace hok
  cases r with
  | error e =>
    rw [madeCalls_eq ((ioImpl_trace_error haccept hi).trans htrace)]
    refine ⟨fun h => absurd h hnot, fun h => ?_⟩
    cases hok.2 h.1.2
  | ok u =>
    have hmade := ioImpl_trace_ok type haccept hi
    rw [htrace, List.append_assoc] at hmade
    rw [madeCalls_eq hmade, List.mem_append, or_iff_right hnot]
    have hready := hok.1 rfl
    by_cases hsome : (env.hip.hipAmdFile type).isSome = true
    · rw [if_pos hsome, List.mem_singleton, Event.hipAmdFile.injEq]
      exact ⟨fun h => ⟨⟨hsome, hready⟩, h⟩, fun h => h.2⟩
    · rw [if_neg hsome]
      exact ⟨nofun, fun h => absurd h.1.1 hsome⟩

/-! ## The alignment -/

/-- **What the runtime's function is handed is aligned**: it gets the unbuffered descriptor, a
device address that is a multiple of `dioMemAlign`, and an offset and a size that are
multiples of `dioOffsetAlign`. -/
def HandedAligned (env : Env) (type : IoType) (file : IFile) (buffer : IBuffer) (size : ℕ)
    (fileOffset bufferOffset : ℤ) (w : World) : Prop :=
  ∀ type' fd devicePtr n offset, .hipAmdFile type' fd devicePtr n offset ∈
      madeCalls w (ioImpl env type file buffer size fileOffset bufferOffset w).2 →
    file.unbufferedFd = some fd ∧ file.dioMemAlign ∣ devicePtr ∧
      (file.dioOffsetAlign : ℤ) ∣ offset ∧ file.dioOffsetAlign ∣ n

/-- A limited size is aligned if it is not cut, or cut at an aligned page boundary. -/
theorem dvd_min_iff {a p size : ℕ} (hsize : 2 ^ a ∣ size) :
    2 ^ a ∣ min size (getMaxRwCount (2 ^ p)) ↔
      size ≤ getMaxRwCount (2 ^ p) ∨ 2 ^ a ≤ 2 ^ p ∨ 2 ^ 31 ≤ 2 ^ p := by
  rw [Nat.pow_le_pow_iff_right (by decide), Nat.pow_le_pow_iff_right (by decide),
    ← dvd_getMaxRwCount_iff]
  rcases Nat.le_total size (getMaxRwCount (2 ^ p)) with h | h
  · rw [Nat.min_eq_left h]
    exact ⟨fun _ => Or.inl h, fun _ => hsize⟩
  · rw [Nat.min_eq_right h]
    refine ⟨Or.inr, fun hor => ?_⟩
    rcases hor with hle | hdvd
    · rwa [← Nat.le_antisymm hle h]
    · exact hdvd

/-- **What the fast path is handed is aligned** exactly if no call is made, or the size is
within the limit, or the alignment is not above the page size (or the limit is zero). -/
theorem handedAligned_iff (env : Env) (type : IoType) (file : IFile) (buffer : IBuffer) (size : ℕ)
    (fileOffset bufferOffset : HoffT) (w : World) (hpage : ∃ p, env.pageSize = 2 ^ p)
    (hoffset : ∃ a, file.dioOffsetAlign = 2 ^ a) (hmem : ∃ m, file.dioMemAlign = 2 ^ m)
    (hscore : 0 ≤ score env file buffer size fileOffset bufferOffset)
    (hv : paramsValid buffer size fileOffset bufferOffset = true) :
    HandedAligned env type file buffer size fileOffset bufferOffset w ↔
      ¬ Calls env type w ∨ size ≤ env.maxRwCount ∨ file.dioOffsetAlign ≤ env.pageSize ∨
        2 ^ 31 ≤ env.pageSize := by
  obtain ⟨p, hp⟩ := hpage
  obtain ⟨a, ha⟩ := hoffset
  obtain ⟨m, hm⟩ := hmem
  obtain ⟨hfast, hfd, hf0, hfile, hsize, hptr⟩ := score_aligned ha hm hscore
  obtain ⟨fd, hfd⟩ := Option.isSome_iff_exists.1 hfd
  have haccept := accept_ok hfast hfd hv
  have hcut := dvd_min_iff (p := p) hsize
  rw [Env.maxRwCount, hp, ha, ← hcut]
  constructor
  · intro h
    by_cases hcalls : Calls env type w
    · have haligned := h type fd _ _ _
        ((mem_madeCalls haccept type fd _ _ _).2 ⟨hcalls, rfl, rfl, rfl, rfl, rfl⟩)
      refine Or.inr ?_
      have hn := haligned.2.2.2
      rwa [ha, Env.maxRwCount, hp] at hn
    · exact Or.inl hcalls
  · intro h type' fd' devicePtr n offset hmade
    obtain ⟨hcalls, -, rfl, rfl, rfl, rfl⟩ := (mem_madeCalls haccept type' fd' _ _ _).1 hmade
    refine ⟨hfd, ?_, ?_, ?_⟩
    · rw [hm]
      exact hptr
    · rw [ha, ← Int.toNat_of_nonneg hf0]
      exact Int.natCast_dvd_natCast.2 hfile
    · rw [ha, Env.maxRwCount, hp]
      exact h.resolve_left (not_not.2 hcalls)

/-! ## Two requests with 4 KiB pages -/

/-- A runtime whose functions transfer all that they are asked for. -/
def amdHip : HipIo where
  hipMemcpy _ := .ok ()
  hipStreamSynchronize _ := .ok ()
  hipInit _ := .ok ()
  hipAmdFile type := some fun _ _ devicePtr size offset file dev =>
    match type with
    | .read => ⟨none, 0, size, file, Bytes.splice dev devicePtr file.data offset.toNat size⟩
    | .write => ⟨none, 0, size, file.write offset.toNat dev devicePtr size, dev⟩

/-- Both backends, and that runtime. -/
def amdEnv : Env := ⟨4096, ⟨true, true, 1, false⟩, Fallback.shortCounts, amdHip⟩

/-- A file that wants offsets and sizes that are multiples of `align`. -/
def alignedFile (align : ℕ) : IFile := ⟨1, 3, 3, some 4, 4, align, false, true, true, false⟩

/-- A buffer of 4 GiB. -/
def largeBuffer : IBuffer := ⟨0x10000, 2 ^ 32, 0, .device, 0⟩

/-- A size beyond the limit, of a file with the alignment of a page. -/
theorem handedAligned_page : HandedAligned amdEnv .read (alignedFile 4096) largeBuffer (2 ^ 31) 0 0
    Fallback.tenBytes :=
  (handedAligned_iff amdEnv .read (alignedFile 4096) largeBuffer (2 ^ 31) ⟨0, by decide⟩
    ⟨0, by decide⟩ Fallback.tenBytes ⟨12, by decide⟩ ⟨12, by decide⟩ ⟨2, by decide⟩ (by decide)
    (by decide)).2 (Or.inr (Or.inr (Or.inl (by decide))))

/-- The same size, of a file with the alignment of two pages: it is cut to `0x7ffff000`. -/
theorem not_handedAligned_twoPages :
    0 ≤ score amdEnv (alignedFile 8192) largeBuffer (2 ^ 31) 0 0 ∧
      paramsValid largeBuffer (2 ^ 31) 0 0 = true ∧
      ¬ HandedAligned amdEnv .read (alignedFile 8192) largeBuffer (2 ^ 31) 0 0
        Fallback.tenBytes := by
  refine ⟨by decide, by decide, fun h => ?_⟩
  have haccept : accept amdEnv (alignedFile 8192) largeBuffer (2 ^ 31) (⟨0, by decide⟩ : HoffT)
      (⟨0, by decide⟩ : HoffT) = .ok (4, ⟨0x10000, 0, 0x7ffff000⟩) := rfl
  have hsize : 8192 ∣ 0x7ffff000 := (h _ _ _ _ _ ((mem_madeCalls haccept .read 4 _ _ _).2
    ⟨⟨rfl, Or.inr rfl⟩, rfl, rfl, rfl, rfl, rfl⟩)).2.2.2
  exact absurd hsize (by decide)

end Fastpath

end HipFile
