import HipFile.Proof.Acceptance
import HipFile.Proof.BackendActions
import HipFile.Proof.ConcurrentAlone
import HipFile.Proof.Region
import HipFile.Proof.ReturnValue

/-!
# What `hipFileRead` and `hipFileWrite` do to a file and to device memory

* `Attempted`: a transfer between a device region and a file region, finished or not, changes
  nothing else; `IoExact`: it has moved exactly its first `n` bytes.
* `HipIo.MovesFileBytes`: what the fast path relies on of `hipAmdFileRead`, `hipAmdFileWrite`.
* `fallback_io_exact`, `fastpath_io_exact`: each backend, the fast path with its fallback.
* `serve_exact`: the public functions, whichever backend serves the request, however
  its calls are cut short, and also where the fast path fails and the fallback takes over.
-/

namespace HipFile

open Bytes

variable {type : IoType} {start offset size n : ℕ} {file file' file₁ : FileData}
  {dev dev' dev₁ : Mem}

/-! ## Transfers -/

/-- **A transfer that may have been made in part**: a read leaves the file and, outside of its
region, the device memory; a write leaves the device memory and, outside of its region, the
bytes of the file, which does not become shorter. -/
structure Attempted (type : IoType) (start offset size : ℕ) (file : FileData) (dev : Mem)
    (file' : FileData) (dev' : Mem) : Prop where
  read : type = .read → file' = file ∧ SameOutside start size dev dev'
  write : type = .write → dev' = dev ∧ SameOutside offset size file.data file'.data ∧
    file.eof ≤ file'.eof

theorem Attempted.refl (type : IoType) (start offset size : ℕ) (file : FileData) (dev : Mem) :
    Attempted type start offset size file dev file dev :=
  ⟨fun _ => ⟨rfl, SameOutside.refl _ _ _⟩, fun _ => ⟨rfl, SameOutside.refl _ _ _, Nat.le_refl _⟩⟩

theorem Attempted.trans (h : Attempted type start offset size file dev file₁ dev₁)
    (h' : Attempted type start offset size file₁ dev₁ file' dev') :
    Attempted type start offset size file dev file' dev' := by
  refine ⟨fun hr => ?_, fun hw => ?_⟩
  · obtain ⟨hfile, hdev⟩ := h.read hr
    obtain ⟨hfile', hdev'⟩ := h'.read hr
    exact ⟨hfile'.trans hfile, hdev.trans hdev'⟩
  · obtain ⟨hdev, hfile, heof⟩ := h.write hw
    obtain ⟨hdev', hfile', heof'⟩ := h'.write hw
    exact ⟨hdev'.trans hdev, hfile.trans hfile', heof.trans heof'⟩

/-- **A transfer of `n` bytes**: they are where they belong, and the file has them; a read gets
none only when asked for none or at the end of the file. -/
structure IoExact (type : IoType) (start offset size : ℕ) (file : FileData) (dev : Mem)
    (file' : FileData) (dev' : Mem) (n : ℕ) : Prop
    extends Attempted type start offset size file dev file' dev' where
  n_le : n ≤ size
  within : n = 0 ∨ offset + n ≤ file'.eof
  moved : match type with
    | .read => Agree n dev' start file.data offset
    | .write => Agree n file'.data offset dev start
  none : type = .read → n = 0 → size = 0 ∨ file.eof ≤ offset

/-- **A transfer after an attempt at it** is the transfer, whatever the attempt has left. -/
theorem IoExact.after (h : Attempted type start offset size file dev file₁ dev₁)
    (h' : IoExact type start offset size file₁ dev₁ file' dev' n) :
    IoExact type start offset size file dev file' dev' n := by
  refine ⟨h.trans h'.toAttempted, h'.n_le, h'.within, ?_, ?_⟩
  · have hmoved := h'.moved
    cases type with
    | read =>
      obtain ⟨hfile, -⟩ := h.read rfl
      simp only at hmoved ⊢
      rwa [hfile] at hmoved
    | write =>
      obtain ⟨hdev, -, -⟩ := h.write rfl
      simp only at hmoved ⊢
      rwa [hdev] at hmoved
  · intro hr hn
    obtain ⟨hfile, -⟩ := h.read hr
    rw [← hfile]
    exact h'.none hr hn

/-! ## The fallback -/

/-- What the kernel returns of a file that nobody else works on. -/
def Env.ReadsFile (env : Env) (file : FileData) : Prop :=
  ∀ i count offset, Fallback.PreadReturns count offset file.eof (env.sys.pread i count offset)

section

variable {env : Env} {req : Fallback.Request} {w w' : World}

/-- The calls of a request change what the request may change. -/
theorem attempted_of_change (h : Fallback.Change env req w w') :
    Attempted req.type (regionStart req.buffer req.bufferOffset) req.fileOffset.val.toNat
      (req.limit env) w.file w.dev w'.file w'.dev := by
  refine ⟨fun hr => ⟨FileData.ext_of ?_ ?_, ?_⟩, fun hw => ⟨?_, ?_, h.eof_le⟩⟩
  · funext i
    exact h.data i fun hi => by rw [hr] at hi; cases hi.1
  · rcases h.eof with heof | ⟨⟨hw, -⟩, -⟩
    · exact heof
    · rw [hr] at hw
      cases hw
  · intro i hi
    refine h.dev i fun hin => ?_
    obtain ⟨-, hle, hlt⟩ := hin
    have hle : regionStart req.buffer req.bufferOffset ≤ i := hle
    have hlt : i < regionStart req.buffer req.bufferOffset + req.limit env := hlt
    omega
  · funext i
    exact h.dev i fun hi => by rw [hw] at hi; cases hi.1
  · intro i hi
    refine h.data i fun hin => ?_
    obtain ⟨-, hle, hlt⟩ := hin
    have hle : req.fileOffset.val.toNat ≤ i := hle
    have hlt : i < req.fileOffset.val.toNat + req.limit env := hlt
    omega

/-- A request that has been served has moved what it counts. -/
theorem exact_of_served {s : Fallback.LoopState} (hchunk : 0 < req.chunkSize)
    (hchange : Fallback.Change env req w s.world)
    (h : Fallback.Standing env req w s (.ended (.ok n))) :
    IoExact req.type (regionStart req.buffer req.bufferOffset) req.fileOffset.val.toNat
      (req.limit env) w.file w.dev s.world.file s.world.dev n := by
  obtain ⟨rfl, hcomplete⟩ := h.point
  have hcomplete := hcomplete hchunk
  have hatt := attempted_of_change hchange
  cases htype : req.type with
  | read =>
    obtain ⟨htotal, hmoved, -, -, hwithin, -⟩ := h.working.reading htype
    rw [htype] at hatt
    refine ⟨hatt, htotal, hwithin, hmoved, fun _ hn => ?_⟩
    simp only [htype] at hcomplete
    omega
  | write =>
    obtain ⟨htotal, hmoved, -, -, hwithin⟩ := h.working.writing htype
    rw [htype] at hatt
    exact ⟨hatt, htotal, hwithin, hmoved, nofun⟩

end

/-- What a backend has done to the file and to the device memory of a request, for a result. -/
structure Transfers (type : IoType) (start offset size : ℕ) (w w' : World) (r : Except Exn ℕ) :
    Prop where
  attempted : Attempted type start offset size w.file w.dev w'.file w'.dev
  exact_of_ok : ∀ n, r = .ok n → IoExact type start offset size w.file w.dev w'.file w'.dev n

theorem Transfers.of_same {w w' : World} {e : Exn} (hfile : w'.file = w.file)
    (hdev : w'.dev = w.dev) : Transfers type start offset size w w' (.error e) := by
  refine ⟨?_, fun n hn => by cases hn⟩
  rw [hfile, hdev]
  exact Attempted.refl _ _ _ _ _ _

theorem Transfers.after {w w₁ w' : World} {r : Except Exn ℕ}
    (h : Attempted type start offset size w.file w.dev w₁.file w₁.dev)
    (h' : Transfers type start offset size w₁ w' r) : Transfers type start offset size w w' r :=
  ⟨h.trans h'.attempted, fun n hn => (h'.exact_of_ok n hn).after h⟩

variable {env : Env} {rounds : ℕ} {ifile : IFile} {buffer : Buffer}
  {fileOffset bufferOffset : HoffT} {v : Served}

/-- **The fallback.** -/
theorem fallback_io_exact (hlaw : type = .read → env.ReadsFile v.world.file) (size : ℕ) :
    Transfers type (regionStart buffer bufferOffset) fileOffset.val.toNat (min size env.maxRwCount)
      v.world ((Fallback.backend env rounds).io type ifile buffer.toIBuffer size fileOffset
        bufferOffset v).2.world
      ((Fallback.backend env rounds).io type ifile buffer.toIBuffer size fileOffset
        bufferOffset v).1 := by
  set req : Fallback.Request := ⟨type, ifile, 0, buffer, size, fileOffset, bufferOffset,
    DefaultChunkSize⟩ with hreq
  obtain ⟨hruns, hreturns⟩ := @Fallback.ioImpl_served env req rounds v.world hlaw
  have hio : Fallback.ioImplDefault env rounds type ifile buffer.toIBuffer size fileOffset
      bufferOffset v.world = req.ioImpl env rounds v.world := rfl
  simp only [Fallback.backend, hio]
  rcases hr : req.ioImpl env rounds v.world with s | ⟨ret, w'⟩
  · exact ⟨attempted_of_change (hruns s hr), fun n hn => by cases hn⟩
  · obtain ⟨hchange, s', rfl, hserved⟩ := hreturns ret w' hr
    cases ret with
    | ok n =>
      refine ⟨attempted_of_change hchange, fun m hm => ?_⟩
      obtain rfl := Except.ok.inj hm
      have hchunk : 0 < DefaultChunkSize := by decide
      exact exact_of_served hchunk hchange hserved
    | error e => exact ⟨attempted_of_change hchange, fun n hn => by cases hn⟩

/-! ## The fast path -/

/-- **What `hipAmdFileRead` and `hipAmdFileWrite` do**: they move bytes between the file and the
device region that they are given and change nothing else, also where they fail; and where they
succeed, they have moved the bytes that they report. -/
structure HipIo.MovesFileBytes (hip : HipIo) : Prop where
  attempted : ∀ {type call}, hip.hipAmdFile type = some call → ∀ i fd ptr size offset file dev,
    Attempted type ptr offset.toNat size file dev (call i fd ptr size offset file dev).file
      (call i fd ptr size offset file dev).dev
  exact_of_ok : ∀ {type call}, hip.hipAmdFile type = some call →
    ∀ i fd ptr size offset file dev, (call i fd ptr size offset file dev).status = 0 →
      (call i fd ptr size offset file dev).hipError = none →
      IoExact type ptr offset.toNat size file dev (call i fd ptr size offset file dev).file
        (call i fd ptr size offset file dev).dev (call i fd ptr size offset file dev).nbytes

theorem hipInitOnce_same (w : World) (hip : HipIo) :
    (w.hipInitOnce hip).2.file = w.file ∧ (w.hipInitOnce hip).2.dev = w.dev := by
  unfold World.hipInitOnce
  split
  · exact ⟨rfl, rfl⟩
  · cases hip.hipInit w.calls <;> exact ⟨rfl, rfl⟩

/-- The call of the HIP runtime. -/
theorem hipAmdFile_transfers (hmoves : env.hip.MovesFileBytes) (type : IoType) (w : World)
    (fd : ℤ) (ptr size : ℕ) (offset : ℤ) : Transfers type ptr offset.toNat size w
      (w.hipAmdFile env.hip type fd ptr size offset).2
      (w.hipAmdFile env.hip type fd ptr size offset).1 := by
  unfold World.hipAmdFile
  cases hcall : env.hip.hipAmdFile type with
  | none => exact Transfers.of_same rfl rfl
  | some call =>
    have hatt := hmoves.attempted hcall w.calls fd ptr size offset w.file w.dev
    have hexact := hmoves.exact_of_ok hcall w.calls fd ptr size offset w.file w.dev
    simp only
    by_cases hstatus : (call w.calls fd ptr size offset w.file w.dev).status = 0
    · rw [if_neg (not_not.2 hstatus)]
      cases herr : (call w.calls fd ptr size offset w.file w.dev).hipError with
      | some e => exact ⟨hatt, fun n hn => by cases hn⟩
      | none =>
        refine ⟨hatt, fun n hn => ?_⟩
        obtain rfl := Except.ok.inj hn
        exact hexact hstatus herr
    · rw [if_pos hstatus]
      exact ⟨hatt, fun n hn => by cases hn⟩

/-- Inside an accepted region the fast path computes the address of the region. -/
theorem devptr_eq_regionStart
    (hv : paramsValid buffer.toIBuffer size fileOffset bufferOffset = true) :
    Fastpath.devptr buffer.toIBuffer bufferOffset = regionStart buffer bufferOffset := by
  obtain ⟨-, hb, hlt, -⟩ := (paramsValid_iff bufferOffset.2).1 hv
  have hspace := buffer.inSpace
  rw [devptr_eq_devicePosition]
  unfold devicePosition regionStart
  rw [toSizeT_of_nonneg hb bufferOffset.2.lt_wordModulus, Nat.mod_eq_of_lt (by omega)]
  rfl

/-- A byte count of a request, as the `ssize_t` that it is returned in. -/
theorem toSsizeT_limited {env : Env} (hn : n ≤ min size env.maxRwCount) : toSsizeT n = n := by
  have hmax := getMaxRwCount_lt env.pageSize
  unfold Env.maxRwCount at hn
  exact toSsizeT_of_lt (by omega)

/-- What is accepted has the region of the request. -/
theorem fastpath_accept_cases {fd : ℤ} {region : Region}
    (h : Fastpath.accept env ifile buffer.toIBuffer size fileOffset bufferOffset =
      .ok (fd, region)) :
    region = ⟨regionStart buffer bufferOffset, fileOffset, min size env.maxRwCount⟩ := by
  unfold Fastpath.accept at h
  split at h
  · cases h
  · split at h
    · cases h
    · split at h
      · cases h
      · rename_i hv
        obtain ⟨-, rfl⟩ := Prod.mk.inj (Except.ok.inj h)
        rw [devptr_eq_regionStart (not_not.1 hv)]

/-- `Fastpath::_io_impl` on a request: a count, if there is one, is not negative. -/
theorem fastpath_ioImpl_transfers (hmoves : env.hip.MovesFileBytes) (type : IoType)
    (ifile : IFile) (buffer : Buffer) (size : ℕ) (fileOffset bufferOffset : HoffT) (w : World) :
    ∃ r w', Fastpath.ioImpl env type ifile buffer.toIBuffer size fileOffset bufferOffset w =
        (r.map Nat.cast, w') ∧
      Transfers type (regionStart buffer bufferOffset) fileOffset.val.toNat
        (min size env.maxRwCount) w w' r := by
  unfold Fastpath.ioImpl
  cases haccept : Fastpath.accept env ifile buffer.toIBuffer size fileOffset bufferOffset with
  | error e => exact ⟨.error e, w, rfl, Transfers.of_same rfl rfl⟩
  | ok accepted =>
    obtain ⟨fd, region⟩ := accepted
    obtain rfl := fastpath_accept_cases haccept
    obtain ⟨hfile, hdev⟩ := hipInitOnce_same w env.hip
    simp only
    rcases hinit : w.hipInitOnce env.hip with ⟨ret₀, w₁⟩
    rw [hinit] at hfile hdev
    cases ret₀ with
    | error e => exact ⟨.error _, w₁, rfl, Transfers.of_same hfile hdev⟩
    | ok u =>
      have hcall := hipAmdFile_transfers hmoves type w₁ fd
        (regionStart buffer bufferOffset) (min size env.maxRwCount) fileOffset
      simp only
      rcases hamd : w₁.hipAmdFile env.hip type fd (regionStart buffer bufferOffset)
        (min size env.maxRwCount) fileOffset with ⟨ret, w₂⟩
      rw [hamd] at hcall
      obtain ⟨hatt, hexact⟩ := hcall
      simp only at hatt hexact hfile hdev
      rw [hfile, hdev] at hatt hexact
      cases ret with
      | error e => exact ⟨.error e, w₂, rfl, hatt, fun n hn => by cases hn⟩
      | ok n =>
        have hn := (hexact n rfl).n_le
        refine ⟨.ok n, w₂.statsAddFastPath env.config type n, ?_, ?_, ?_⟩
        · simp only [toSsizeT_limited hn]
          rfl
        · rw [World.statsAddFastPath, World.addStats_file, World.addStats_dev]
          exact hatt
        · rw [World.statsAddFastPath, World.addStats_file, World.addStats_dev]
          exact hexact

/-- **The fast path**, where the fallback takes over what it failed with. -/
theorem fastpath_io_exact (hlaw : type = .read → env.ReadsFile v.world.file)
    (hmoves : env.hip.MovesFileBytes) (size : ℕ) :
    let r := (Fastpath.backend env (Fallback.backend env rounds)).io type ifile buffer.toIBuffer
      size fileOffset bufferOffset v
    Transfers type (regionStart buffer bufferOffset) fileOffset.val.toNat
      (min size env.maxRwCount) v.world r.2.world r.1 := by
  obtain ⟨r, w', hio, htransfers⟩ := fastpath_ioImpl_transfers hmoves type ifile buffer size
    fileOffset bufferOffset v.world
  cases r with
  | ok n =>
    have hserve : Fastpath.serve env type ifile buffer.toIBuffer size fileOffset bufferOffset v =
        (.ok (n : ℤ), { v.after w' with path := some .fastPath }) := by
      simp only [Fastpath.serve, hio]
      rfl
    simp only [fastpath_io_ok hserve (by omega), Int.toNat_natCast]
    exact htransfers
  | error e =>
    have hserve : Fastpath.serve env type ifile buffer.toIBuffer size fileOffset bufferOffset v =
        (.error e, v.after w') := by
      simp only [Fastpath.serve, hio]
      rfl
    simp only [fastpath_io_error hserve rfl]
    split
    · -- the fallback makes the whole transfer, over what the attempt has left
      refine Transfers.after htransfers.attempted
        (fallback_io_exact (v := v.after w') (fun hr => ?_) size)
      obtain ⟨hfile, -⟩ := htransfers.attempted.read hr
      have hkeep : (v.after w').world.file = v.world.file := hfile
      rw [hkeep]
      exact hlaw hr
    · exact htransfers

/-! ## The buffers that the driver hands out -/

/-- What a constructor of `Buffer` gives is at the pointer that it was given, not null. -/
def IBuffer.AtPointer (buf : ℕ) (b : IBuffer) : Prop := b.getBuffer = buf ∧ buf ≠ 0

theorem Buffer.registered_atPointer {hip : HipQueries} {buf length : ℕ} {flags : ℤ} {b : IBuffer}
    (h : Buffer.registered hip buf length flags = .ok b) : b.AtPointer buf := by
  unfold Buffer.registered Buffer.deviceAttributes at h
  by_cases h0 : buf = 0
  · simp [h0] at h
  · rw [if_neg h0] at h
    repeat' split at h
    all_goals cases h
    exact ⟨rfl, h0⟩

theorem Buffer.temporary_atPointer {hip : HipQueries} {buf : ℕ} {b : IBuffer}
    (h : Buffer.temporary hip buf = .ok b) : b.AtPointer buf := by
  unfold Buffer.temporary Buffer.deviceAttributes at h
  by_cases h0 : buf = 0
  · simp [h0] at h
  · rw [if_neg h0] at h
    repeat' split at h
    all_goals cases h
    exact ⟨rfl, h0⟩

open DriverState in
/-- **Where a buffer of the map comes from**, after a method of the driver. -/
theorem apply_buffer_cases {s : DriverState} {c : DriverState.Call} {buf : ℕ} {b : IBuffer}
    (h : (c.apply s).bufferMap.fromPtr buf = some b) : s.bufferMap.fromPtr buf = some b ∨
      ∃ hip length flags, Buffer.registered hip buf length flags = .ok b := by
  have hinit : (implicitInit s).bufferMap = s.bufferMap := (implicitInit_maps s).2.1
  cases c with
  | registerBuffer hip buf' length flags =>
    have h : (BufferMap.registerBuffer hip buf' length flags
      (implicitInit s).bufferMap).2.fromPtr buf = some b := h
    rw [hinit] at h
    unfold BufferMap.registerBuffer at h
    split at h
    · exact Or.inl h
    · split at h
      · exact Or.inl h
      · rename_i b' hb'
        simp only [Function.update_apply] at h
        split at h
        · rename_i heq
          cases h
          exact Or.inr ⟨hip, length, flags, heq ▸ hb'⟩
        · exact Or.inl h
  | deregisterBuffer buf' useCount =>
    have h : ((do requireInit; onBufferMap (BufferMap.deregisterBuffer buf' useCount) :
      Method Unit) s).2.bufferMap.fromPtr buf = some b := h
    rw [requireInit_bind] at h
    split at h
    · exact Or.inl h
    · have h : (BufferMap.deregisterBuffer buf' useCount s.bufferMap).2.fromPtr buf = some b := h
      unfold BufferMap.deregisterBuffer at h
      split at h
      · exact Or.inl h
      · split at h
        · exact Or.inl h
        · simp only [Function.update_apply] at h
          split at h
          · cases h
          · exact Or.inl h
  | registerFile uf handle =>
    have h : (implicitInit s).bufferMap.fromPtr buf = some b := h
    rw [hinit] at h
    exact Or.inl h
  | deregisterFile fh useCount =>
    have h : ((do requireInit; onFileMap (FileMap.deregisterFile fh useCount) : Method Unit)
      s).2.bufferMap.fromPtr buf = some b := h
    rw [requireInit_bind] at h
    split at h <;> exact Or.inl h
  | registerStream hip hipStream flags => exact Or.inl h
  | deregisterStream hipStream => exact Or.inl h
  | incrRefCount => exact Or.inl h
  | decrRefCount =>
    have h : (requireNonneg (clearAtZero (dropRef s))).2.bufferMap.fromPtr buf = some b := h
    have hdrop : (dropRef s).bufferMap = s.bufferMap := by
      unfold dropRef
      split <;> rfl
    have hclear : (clearAtZero (dropRef s)).bufferMap.fromPtr buf = some b := by
      unfold requireNonneg at h
      split at h <;> exact h
    unfold clearAtZero at hclear
    split at hclear
    · cases hclear
    · rw [hdrop] at hclear
      exact Or.inl hclear
  | ensureInitialized =>
    have h : (implicitInit s).bufferMap.fromPtr buf = some b := h
    rw [hinit] at h
    exact Or.inl h

/-- The buffers of the map are at their pointers, in every run. -/
theorem bufferMap_atPointer {G : DriverState → DriverState.Call → Prop} {s : DriverState}
    (hs : DriverState.machine.Reaches G s) : ∀ buf b, s.bufferMap.fromPtr buf = some b →
      b.AtPointer buf := by
  refine hs.invariant (I := fun s => ∀ buf b, s.bufferMap.fromPtr buf = some b →
    b.AtPointer buf) nofun ?_
  intro s c s' h _ hst buf b hb
  obtain rfl := Option.some.inj hst
  rcases apply_buffer_cases hb with hb | ⟨hip, length, flags, hb⟩
  · exact h buf b hb
  · exact Buffer.registered_atPointer hb

/-- **What the driver hands out for a pointer** is a buffer there that does not wrap around the
address space. -/
theorem getFileAndBuffer_wellFormed {A : Allocations} (hA : A.Sound) {s : DriverState}
    (hs : DriverState.machine.Reaches (fun _ c => c.AnswersFrom A) s) {hip : HipQueries}
    (hhip : hip.AnswersFrom A) {fh buf : ℕ} {file : IFile} {b : IBuffer}
    (h : (DriverState.getFileAndBuffer hip fh buf s).1 = .ok (file, b)) :
    ∃ buffer : Buffer, buffer.toIBuffer = b ∧ buffer.getBuffer = buf := by
  have hb : (BufferMap.getBuffer hip buf s.bufferMap).1 = .ok b := by
    rcases hget : DriverState.getFileAndBuffer hip fh buf s with ⟨r, s'⟩
    rw [hget] at h
    obtain rfl : r = .ok (file, b) := h
    unfold DriverState.getFileAndBuffer at hget
    rw [DriverState.requireInit_bind] at hget
    split at hget
    · cases hget
    · obtain ⟨file', s₁, hfile, hget⟩ := Prog.bind_eq_ok hget
      obtain ⟨b', s₂, hbuffer, hget⟩ := Prog.bind_eq_ok hget
      obtain ⟨rfl, rfl⟩ : file' = file ∧ b' = b := by
        cases hget
        exact ⟨rfl, rfl⟩
      have hs₁ : (DriverState.onFileMap (FileMap.getFile fh) s).2 = s₁ := congrArg Prod.snd hfile
      have hmap : s₁.bufferMap = s.bufferMap := (congrArg DriverState.bufferMap hs₁).symm
      have hfst := congrArg Prod.fst hbuffer
      rw [← hmap]
      exact hfst
  obtain ⟨range, hrange, hend⟩ := getBuffer_inAllocation hA hhip (bufferMap_inAllocation hA hs) hb
  obtain ⟨-, -, hspace⟩ := hA _ _ hrange
  have hpointer : b.AtPointer buf := by
    unfold BufferMap.getBuffer at hb
    split at hb
    · exact Buffer.temporary_atPointer hb
    · rename_i b' hreg
      obtain rfl := Except.ok.inj hb
      exact bufferMap_atPointer hs buf b' hreg
  obtain ⟨hat, hnonnull⟩ := hpointer
  have hmod : 0 < wordModulus := by decide
  exact ⟨⟨b, by rw [hat]; exact hnonnull, by omega⟩, rfl, hat⟩

/-! ## The public functions -/

theorem getBackends_transfers (hlaw : type = .read → env.ReadsFile v.world.file)
    (hmoves : env.hip.MovesFileBytes) {backend : Backend Served}
    (hmem : backend ∈ getBackends env rounds) (size : ℕ) :
    let r := backend.io type ifile buffer.toIBuffer size fileOffset bufferOffset v
    Transfers type (regionStart buffer bufferOffset) fileOffset.val.toNat
      (min size env.maxRwCount) v.world r.2.world r.1 := by
  simp only [getBackends, List.mem_cons, List.not_mem_nil, or_false] at hmem
  rcases hmem with rfl | rfl
  · exact fallback_io_exact hlaw size
  · exact fastpath_io_exact hlaw hmoves size

/-- The `try` block of `hipFileIo`. -/
theorem hipFileIoTry_transfers {A : Allocations} (hA : A.Sound) {s : DriverState}
    (hs : DriverState.machine.Reaches (fun _ c => c.AnswersFrom A) s) {hip : HipQueries}
    (hhip : hip.AnswersFrom A) (hlaw : type = .read → env.ReadsFile v.world.file)
    (hmoves : env.hip.MovesFileBytes) (fh bufferBase size : ℕ) (fileOffset bufferOffset : HoffT) :
    let r := hipFileIoTry hip s type fh bufferBase size fileOffset bufferOffset
      (getBackends env rounds) v
    Transfers type (bufferBase + bufferOffset.val.toNat) fileOffset.val.toNat
      (min size env.maxRwCount) v.world r.2.world r.1 := by
  unfold hipFileIoTry
  cases hfound : (DriverState.getFileAndBuffer hip fh bufferBase s).1 with
  | error e => exact Transfers.of_same rfl rfl
  | ok found =>
    obtain ⟨file, b⟩ := found
    obtain ⟨buffer, rfl, rfl⟩ := getFileAndBuffer_wellFormed hA hs hhip hfound
    simp only
    cases hsel : selectBackend (getBackends env rounds) file buffer.toIBuffer size fileOffset
        bufferOffset with
    | none => exact Transfers.of_same rfl rfl
    | some backend =>
      exact getBackends_transfers hlaw hmoves (selectBackend_mem hsel) size

/-- What either public function returns is not negative exactly for a byte count. -/
theorem ret_eq_count {r : Except Exn ℕ} (h : (matchCuFile (ioResult r)).ret = (n : ℤ)) :
    r = .ok n := by
  cases r with
  | ok m =>
    rw [matchCuFile_ok] at h
    rw [Int.ofNat.inj h]
  | error e =>
    have hneg := matchCuFile_error_neg e
    omega

theorem hipFileReadWrite_snd {ω : Type} (hip : HipQueries) (s : DriverState) (type : IoType)
    (fh bufferBase size : ℕ) (fileOffset bufferOffset : ℤ) (backends : List (Backend ω)) (w : ω) :
    (hipFileReadWrite hip s type fh bufferBase size fileOffset bufferOffset backends w).2 =
      (hipFileIoTry hip s type fh bufferBase size fileOffset bufferOffset backends w).2 := by
  cases type <;> rfl

/-- **A call of a public function** on any driver state, with any settings. -/
theorem hipFileReadWrite_transfers {A : Allocations} (hA : A.Sound) {s : DriverState}
    (hs : DriverState.machine.Reaches (fun _ c => c.AnswersFrom A) s) {hip : HipQueries}
    (hhip : hip.AnswersFrom A) (hlaw : type = .read → env.ReadsFile v.world.file)
    (hmoves : env.hip.MovesFileBytes) (fh bufferBase size : ℕ) (fileOffset bufferOffset : HoffT) :
    let r := hipFileReadWrite hip s type fh bufferBase size fileOffset bufferOffset
      (getBackends env rounds) v
    Attempted type (bufferBase + bufferOffset.val.toNat) fileOffset.val.toNat
        (min size env.maxRwCount) v.world.file v.world.dev r.2.world.file r.2.world.dev ∧
      ∀ n : ℕ, r.1.ret = n →
        IoExact type (bufferBase + bufferOffset.val.toNat) fileOffset.val.toNat
          (min size env.maxRwCount) v.world.file v.world.dev r.2.world.file r.2.world.dev n := by
  simp only [hipFileReadWrite_snd]
  obtain ⟨hatt, hexact⟩ := hipFileIoTry_transfers hA hs hhip hlaw hmoves fh bufferBase size
    fileOffset bufferOffset
  refine ⟨hatt, fun n hn => ?_⟩
  rw [hipFileReadWrite_fst] at hn
  exact hexact n (ret_eq_count hn)

namespace SyncRequest

/-- A request on a driver state that some run of the driver reaches, with arguments of their
types, and with a kernel and a runtime that do what they are documented to do. -/
structure Sound (A : Allocations) (req : SyncRequest) : Prop where
  allocations : A.Sound
  reached : DriverState.machine.Reaches (fun _ c => c.AnswersFrom A) req.driver
  answers : req.queries.AnswersFrom A
  fileOffset : OffT req.fileOffset
  bufferOffset : OffT req.bufferOffset
  reads : req.type = .read → ∀ i count offset,
    Fallback.PreadReturns count offset req.file.eof (req.sys.pread i count offset)
  moves : req.hip.MovesFileBytes

variable {A : Allocations} {req : SyncRequest}

/-- The device address of the region of a request. -/
def regionStart (req : SyncRequest) : ℕ := req.bufferBase + req.bufferOffset.toNat

/-- What a request has done to the file and to the device memory. -/
theorem serve_transfers (h : req.Sound A) (p : Process) (rounds : ℕ) :
    let r := req.serve p rounds
    Attempted req.type req.regionStart req.fileOffset.toNat
        (min req.size (getMaxRwCount p.pageSize)) req.file req.dev r.2.world.file r.2.world.dev ∧
      ∀ n : ℕ, r.1.ret = n → IoExact req.type req.regionStart req.fileOffset.toNat
        (min req.size (getMaxRwCount p.pageSize)) req.file req.dev r.2.world.file r.2.world.dev n :=
  @hipFileReadWrite_transfers _ (req.env p) rounds req.start _ h.allocations _ h.reached _ h.answers
    h.reads h.moves req.fh req.bufferBase req.size ⟨req.fileOffset, h.fileOffset⟩
    ⟨req.bufferOffset, h.bufferOffset⟩

/-- **`hipFileRead` and `hipFileWrite` are exact**: on every state of the driver, with every
setting, whichever backend serves the request, also where the fast path fails half-way and the
fallback takes over, and however calls are cut short or interrupted. A count `n` that is returned
says that exactly the first `n` bytes of the region have been moved; and no call changes anything
outside of its region, whatever it returns. -/
theorem serve_exact (req : SyncRequest) (h : req.Sound A) (p : Process) (rounds : ℕ) :
    let r := req.serve p rounds
    let size := min req.size (getMaxRwCount p.pageSize)
    Attempted req.type req.regionStart req.fileOffset.toNat size req.file req.dev r.2.world.file
        r.2.world.dev ∧
      ∀ n : ℕ, r.1.ret = n → n ≤ size ∧
        (n = 0 ∨ req.fileOffset.toNat + n ≤ r.2.world.file.eof) ∧
        match req.type with
        | .read => Agree n r.2.world.dev req.regionStart req.file.data req.fileOffset.toNat ∧
            (n = 0 → size = 0 ∨ req.file.eof ≤ req.fileOffset.toNat)
        | .write => Agree n r.2.world.file.data req.fileOffset.toNat req.dev req.regionStart := by
  obtain ⟨hatt, hexact⟩ := serve_transfers h p rounds
  refine ⟨hatt, fun n hn => ?_⟩
  have h := hexact n hn
  refine ⟨h.n_le, h.within, ?_⟩
  cases htype : req.type with
  | read =>
    rw [htype] at h
    exact ⟨h.moved, h.none rfl⟩
  | write =>
    rw [htype] at h
    exact h.moved

/-- **What has been written is read back**: a read of the region that a write has reported, from
any buffer to any other, with any settings and by any backend of either, gives the bytes that the
write had in its buffer; and it gives some, if it asks for some of them. -/
theorem serve_write_read (reqW reqR : SyncRequest) (hW : reqW.Sound A) (hR : reqR.Sound A)
    (htypeW : reqW.type = .write) (htypeR : reqR.type = .read) (p p' : Process)
    (rounds rounds' : ℕ) (hfile : reqR.file = (reqW.serve p rounds).2.world.file)
    (hoffset : reqR.fileOffset = reqW.fileOffset) (hpage : 0 < getMaxRwCount p'.pageSize) {n k : ℕ}
    (hn : (reqW.serve p rounds).1.ret = n) (hk : (reqR.serve p' rounds').1.ret = k) :
    Agree (min k n) (reqR.serve p' rounds').2.world.dev reqR.regionStart reqW.dev
        reqW.regionStart ∧
      (0 < n → 0 < reqR.size → 0 < k) := by
  have hwrote := (serve_transfers hW p rounds).2 n hn
  have hread := (serve_transfers hR p' rounds').2 k hk
  rw [htypeW] at hwrote
  rw [htypeR] at hread
  have hin : Agree n _ _ _ _ := hwrote.moved
  have hout : Agree k _ _ _ _ := hread.moved
  rw [hfile, hoffset] at hout
  refine ⟨?_, ?_⟩
  · intro i hi
    rw [hout i (by omega), hin i (by omega)]
  · intro hn0 hsize
    by_contra hk0
    have hnone := hread.none rfl (by omega)
    have hend := hwrote.within
    rw [← hfile] at hend
    rw [hoffset] at hnone
    omega

/-! ## An example -/

open Fallback (shortCounts tenBytes)

/-- A runtime that writes, and whose reads fail with `ENODEV` after they have overwritten the
device region with zeros. -/
def brokenReads : HipIo where
  hipMemcpy _ := .ok ()
  hipStreamSynchronize _ := .ok ()
  hipInit _ := .ok ()
  hipAmdFile
    | .read => some fun _ _ ptr size _ file dev =>
        ⟨none, -ENODEV, 0, file, splice dev ptr (fun _ => 0) 0 size⟩
    | .write => some fun _ _ ptr size offset file dev =>
        ⟨none, 0, size, file.write offset.toNat dev ptr size, dev⟩

theorem eof_write (file : FileData) (offset : ℕ) (dev : Mem) (ptr size : ℕ) :
    file.eof ≤ (file.write offset dev ptr size).eof ∧
      (size = 0 ∨ offset + size ≤ (file.write offset dev ptr size).eof) := by
  unfold FileData.write
  simp only
  split <;> omega

theorem sameOutside_write {file : FileData} {offset : ℕ} {dev : Mem} {ptr size : ℕ} :
    SameOutside offset size file.data (file.write offset dev ptr size).data :=
  sameOutside_splice (Nat.le_refl _) (Nat.le_refl _)

theorem brokenReads_moves : brokenReads.MovesFileBytes where
  attempted {type call} hcall i fd ptr size offset file dev := by
    cases type with
    | read =>
      cases hcall
      have hout : SameOutside ptr size dev (splice dev ptr (fun _ => 0) 0 size) :=
        sameOutside_splice (Nat.le_refl _) (Nat.le_refl _)
      exact ⟨fun _ => ⟨rfl, hout⟩, nofun⟩
    | write =>
      cases hcall
      exact ⟨nofun, fun _ => ⟨rfl, sameOutside_write, (eof_write ..).1⟩⟩
  exact_of_ok {type call} hcall i fd ptr size offset file dev hstatus _ := by
    cases type with
    | read =>
      cases hcall
      simp [ENODEV] at hstatus
    | write =>
      cases hcall
      obtain ⟨hgrows, hend⟩ := eof_write file offset.toNat dev ptr size
      exact ⟨⟨nofun, fun _ => ⟨rfl, sameOutside_write, hgrows⟩⟩, Nat.le_refl _, hend,
        agree_splice, nofun⟩

theorem preadReturns_shortCounts (i count : ℕ) (offset : ℤ) :
    Fallback.PreadReturns count offset tenBytes.file.eof (shortCounts.pread i count offset) := by
  have hret : shortCounts.pread i count offset =
      if i = 1 then .error EINTR else .ok (min (min 3 count) (10 - offset.toNat)) := rfl
  have heof : tenBytes.file.eof = 10 := rfl
  rw [hret, heof]
  split
  · trivial
  · refine ⟨fun hpos => ?_, fun hzero => ?_⟩ <;> omega

/-- A driver with one file, opened for direct IO on ext4. -/
def directDriver : DriverState := DriverState.Call.apply .init
  (.registerFile ⟨⟨3, false⟩, ⟨4, true⟩, some ⟨3, false⟩, ⟨STATX_TYPE, S_IFREG, 0, 0⟩, O_DIRECT,
    some (.ext4 .ordered), 4, 4⟩ 7)

theorem directDriver_reached {G : DriverState → DriverState.Call → Prop}
    (hG : ∀ s uf handle, G s (.registerFile uf handle)) :
    DriverState.machine.Reaches G directDriver :=
  .step _ .init (hG _ _ _) rfl

/-- The ranges that the example's runtime answers with. -/
def oneRange : Allocations := fun p range => oneAllocation.hipMemGetAddressRange p = .ok range

theorem oneRange_sound : oneRange.Sound := by
  intro p range h
  simp only [oneRange, oneAllocation] at h
  split at h
  · rename_i hp
    cases h
    exact ⟨hp.1, hp.2, by decide⟩
  · cases h

/-- Four bytes, from offset 4 of the file to byte 4 of the allocation. -/
def fourBytes (type : IoType) (bufferOffset : ℤ) (file : FileData) (dev : Mem) : SyncRequest where
  type := type
  fh := 7
  bufferBase := 0x10000
  size := 4
  fileOffset := 4
  bufferOffset := bufferOffset
  driver := directDriver
  queries := oneAllocation
  sys := shortCounts
  hip := brokenReads
  file := file
  dev := dev
  hipInited := false

theorem fourBytes_sound {type : IoType} {bufferOffset : ℤ} {file : FileData} {dev : Mem}
    (hb : OffT bufferOffset) (heof : file.eof = 10) :
    (fourBytes type bufferOffset file dev).Sound oneRange where
  allocations := oneRange_sound
  reached := directDriver_reached fun _ _ _ => trivial
  answers _ _ h := h
  fileOffset := by
    have h : OffT 4 := ⟨by decide, by decide⟩
    exact h
  bufferOffset := hb
  reads _ i count offset := by
    have h := preadReturns_shortCounts i count offset
    have hten : tenBytes.file.eof = file.eof := heof.symm
    rw [hten] at h
    exact h
  moves := brokenReads_moves

def bothPaths : Process := ⟨4096, ⟨true, true, 1, false⟩⟩

/-- The fast path fails over a region that it has overwritten, and the fallback reads it in two
short rounds, of which one is interrupted before. -/
theorem serve_exact_sample :
    ((fourBytes .read 4 tenBytes.file tenBytes.dev).serve bothPaths 9).1.ret = 4 ∧
      Agree 4 ((fourBytes .read 4 tenBytes.file tenBytes.dev).serve bothPaths 9).2.world.dev
        0x10004 tenBytes.file.data 4 := by
  have hret : ((fourBytes .read 4 tenBytes.file tenBytes.dev).serve bothPaths 9).1.ret =
      ((4 : ℕ) : ℤ) := by decide +kernel
  refine ⟨hret, ?_⟩
  obtain ⟨-, hexact⟩ := serve_exact (fourBytes .read 4 tenBytes.file tenBytes.dev)
    (fourBytes_sound ⟨by decide, by decide⟩ rfl) bothPaths 9
  exact (hexact 4 hret).2.2.1

/-- Written by the fast path, and read back by the fallback to another place. -/
theorem serve_write_read_sample :
    let reqW := fourBytes .write 0 tenBytes.file tenBytes.dev
    let w := (reqW.serve bothPaths 9).2.world
    let reqR := fourBytes .read 8 w.file w.dev
    Agree (min 4 4) (reqR.serve bothPaths 9).2.world.dev 0x10008 tenBytes.dev 0x10000 ∧
      (0 < 4 → 0 < 4 → 0 < 4) := by
  intro reqW w reqR
  exact serve_write_read reqW reqR (fourBytes_sound ⟨by decide, by decide⟩ rfl)
    (fourBytes_sound ⟨by decide, by decide⟩ (by decide +kernel)) rfl rfl bothPaths bothPaths 9 9 rfl
    rfl (by decide) (n := 4) (k := 4) (by decide +kernel) (by decide +kernel)

end SyncRequest

end HipFile
