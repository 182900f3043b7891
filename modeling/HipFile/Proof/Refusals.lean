import HipFile.Model.Refusals
import HipFile.Proof.AsyncActions
import HipFile.Proof.ReturnValue

/-!
# The errors of the two kinds of functions

* `hipFileReadWrite_refused`, `hipFileIOAsync_of_refusal`: a refused request returns the exception
  as its function's `catch` clauses translate it, and changes nothing.
* `lookups`: how the two lookups end.
* `sameError_iff`: the functions report the same error, unless the memory is not device memory,
  or the region and the stream are both refused.
-/

namespace HipFile

open DriverState

variable {env : Env} {hip : HipQueries} {s : DriverState} {a : IoArgs} {e : Exn}

/-! ## A refused synchronous request -/

/-- The fallback accepts the request's file and buffer, and the fast path does not. -/
def OnlyFallback (env : Env) (hip : HipQueries) (s : DriverState) (a : IoArgs) : Prop :=
  ∀ file buffer, (getFileAndBuffer hip a.fh a.bufferBase s).1 = .ok (file, buffer) →
    0 ≤ Fallback.score env buffer ∧
      Fastpath.score env file buffer a.size a.fileOffset a.bufferOffset < 0

/-- The fallback is then selected. -/
theorem selectBackend_fallback {rounds : ℕ} {file : IFile} {buffer : IBuffer} {size : ℕ}
    {fileOffset bufferOffset : ℤ} (hfallback : 0 ≤ Fallback.score env buffer)
    (hfast : Fastpath.score env file buffer size fileOffset bufferOffset < 0) :
    selectBackend (getBackends env rounds) file buffer size fileOffset bufferOffset =
      some (Fallback.backend env rounds) := by
  have h1 : Selection.consider file buffer size fileOffset bufferOffset ⟨-1, none⟩
      (Fallback.backend env rounds) =
        ⟨Fallback.score env buffer, some (Fallback.backend env rounds)⟩ :=
    if_pos (show (-1 : ℤ) < Fallback.score env buffer by omega)
  have h2 : Selection.consider file buffer size fileOffset bufferOffset
      ⟨Fallback.score env buffer, some (Fallback.backend env rounds)⟩
        (Fastpath.backend env (Fallback.backend env rounds)) =
      ⟨Fallback.score env buffer, some (Fallback.backend env rounds)⟩ :=
    if_neg (show ¬ Fallback.score env buffer <
      Fastpath.score env file buffer size fileOffset bufferOffset by omega)
  unfold selectBackend getBackends
  rw [List.foldl_cons, h1, List.foldl_cons, h2]
  rfl

/-- **A refused synchronous request** has done nothing. -/
theorem hipFileReadWrite_refused (honly : OnlyFallback env hip s a)
    (h : syncRefusal env hip s a = some e) (rounds : ℕ) (v : Served) :
    hipFileReadWrite hip s a.type a.fh a.bufferBase a.size a.fileOffset a.bufferOffset
      (getBackends env rounds) v = (matchCuFile (ioResult (.error e)), v) := by
  have htry : hipFileIoTry hip s a.type a.fh a.bufferBase a.size a.fileOffset a.bufferOffset
      (getBackends env rounds) v = (.error e, v) := by
    unfold hipFileIoTry
    unfold syncRefusal at h
    cases hlookup : (getFileAndBuffer hip a.fh a.bufferBase s).1 with
    | error e' =>
      simp only [hlookup, Option.some.injEq] at h ⊢
      rw [h]
    | ok found =>
      obtain ⟨file, buffer⟩ := found
      obtain ⟨hfallback, hfast⟩ := honly file buffer hlookup
      simp only [hlookup] at h ⊢
      rw [selectBackend_fallback hfallback hfast]
      cases haccept : Fallback.accept env buffer a.size a.fileOffset a.bufferOffset with
      | error e' =>
        simp only [haccept, Option.some.injEq] at h
        simp only [Fallback.backend, Fallback.ioImplDefault, Fallback.ioImpl, haccept, h,
          Served.after_self]
      | ok region => simp [haccept] at h
  cases htype : a.type with
  | read =>
    rw [htype] at htry
    simp only [hipFileReadWrite, hipFileRead, hipFileIo, htry]
  | write =>
    rw [htype] at htry
    simp only [hipFileReadWrite, hipFileWrite, hipFileIo, htry]

/-! ## A refused asynchronous request -/

/-- The asynchronous call of the request in the driver's state. -/
structure AsyncCall.Of (c : AsyncCall) (hip : HipQueries) (s : DriverState) (a : IoArgs) :
    Prop where
  refCount : c.refCount = s.refCount
  nullPointer : c.nullPointer = decide (a.bufferBase = 0)
  lookup_error : ∀ e, (getFileBufferAndStream hip a.fh a.bufferBase a.hipStream s).1 = .error e →
    c.lookup = .error e
  lookup_ok : ∀ file buffer stream,
    (getFileBufferAndStream hip a.fh a.bufferBase a.hipStream s).1 = .ok (file, buffer, stream) →
      ∃ req, c.lookup = .ok req ∧ req.type = a.type ∧ req.file = file ∧
        req.buffer.toIBuffer = buffer ∧ req.stream = stream ∧
          req.params = ⟨a.size, a.fileOffset, a.bufferOffset⟩

/-- **A refused asynchronous request** has submitted nothing. -/
theorem hipFileIOAsync_of_refusal {maxRwCount : ℕ} {c : AsyncCall} (hc : c.Of hip s a)
    (hcount : s.refCount ≠ 0) (h : asyncRefusal maxRwCount hip s a = some e) (sub : Submission) :
    hipFileIOAsync maxRwCount c sub = (ioAsyncCatch e, sub) := by
  have htry : hipFileIOAsyncTry maxRwCount c sub = (.error e, sub) := by
    unfold hipFileIOAsyncTry checkNull
    rw [hc.nullPointer]
    unfold asyncRefusal at h
    split at h
    · rename_i hnull
      cases h
      rw [decide_eq_true hnull]
      rfl
    · rename_i hnull
      rw [decide_eq_false hnull]
      split at h
      · rename_i e' hlookup
        cases h
        rw [hc.lookup_error _ hlookup]
        rfl
      · rename_i file buffer stream hlookup
        obtain ⟨req, hreq, -, -, rfl, rfl, hparams⟩ := hc.lookup_ok _ _ _ hlookup
        rw [hreq]
        show Fallback.asyncIo maxRwCount c.hip c.addr req sub = _
        have haccept := Fallback.asyncAccept_eq maxRwCount req
        rw [hparams] at haccept
        simp only at haccept
        split at h
        · rename_i e' hchecks
          cases h
          rw [hchecks] at haccept
          simp only [Fallback.asyncIo, haccept]
        · cases h
  rw [hipFileIOAsync, if_neg (by rw [hc.refCount]; exact hcount), htry]

/-! ## The lookups -/

/-- How the lookup of a file and a buffer ends, and that with a stream. -/
inductive Lookups (hip : HipQueries) (s : DriverState) (a : IoArgs) :
    Except Exn (IFile × IBuffer) → Except Exn (IFile × IBuffer × IStream) → Prop
  | noFile (hfile : s.fileMap.fromFh a.fh = none) :
      Lookups hip s a (.error .fileNotRegistered) (.error .fileNotRegistered)
  | noBuffer {file : IFile} (e : Exn) (hfile : s.fileMap.fromFh a.fh = some file)
      (hbuffer : (BufferMap.getBuffer hip a.bufferBase s.bufferMap).1 = .error e) :
      Lookups hip s a (.error e) (.error e)
  | noStream (file : IFile) (buffer : IBuffer) (e : Exn)
      (hbuffer : (BufferMap.getBuffer hip a.bufferBase s.bufferMap).1 = .ok buffer)
      (hstream : (StreamMap.getStream hip a.hipStream s.streamMap).1 = .error e) :
      Lookups hip s a (.ok (file, buffer)) (.error e)
  | found (file : IFile) (buffer : IBuffer) (stream : IStream)
      (hbuffer : (BufferMap.getBuffer hip a.bufferBase s.bufferMap).1 = .ok buffer)
      (hstream : (StreamMap.getStream hip a.hipStream s.streamMap).1 = .ok stream) :
      Lookups hip s a (.ok (file, buffer)) (.ok (file, buffer, stream))

/-- A lookup leaves the maps. -/
theorem onBufferMap_getBuffer (hip : HipQueries) (buf : ℕ) (s : DriverState) :
    onBufferMap (BufferMap.getBuffer hip buf) s =
      ((BufferMap.getBuffer hip buf s.bufferMap).1, s) := by
  unfold onBufferMap Prog.zoom BufferMap.getBuffer
  cases s.bufferMap.fromPtr buf <;> rfl

theorem onStreamMap_getStream (hip : HipQueries) (hipStream : ℕ) (s : DriverState) :
    onStreamMap (StreamMap.getStream hip hipStream) s =
      ((StreamMap.getStream hip hipStream s.streamMap).1, s) := by
  unfold onStreamMap Prog.zoom StreamMap.getStream
  cases s.streamMap.fromPtr hipStream <;> rfl

/-- **The two lookups find the same file and buffer**, in the same order. -/
theorem lookups (hip : HipQueries) (a : IoArgs) (hcount : s.refCount ≠ 0) :
    Lookups hip s a (getFileAndBuffer hip a.fh a.bufferBase s).1
      (getFileBufferAndStream hip a.fh a.bufferBase a.hipStream s).1 := by
  unfold getFileAndBuffer getFileBufferAndStream
  rw [requireInit_bind, if_neg hcount, requireInit_bind, if_neg hcount]
  cases hfile : s.fileMap.fromFh a.fh with
  | none =>
    have hget : onFileMap (FileMap.getFile a.fh) s = (.error .fileNotRegistered, s) := by
      simp only [onFileMap, Prog.zoom, FileMap.getFile, hfile]
    rw [Prog.bind_error hget, Prog.bind_error hget]
    exact .noFile hfile
  | some file =>
    have hget : onFileMap (FileMap.getFile a.fh) s = (.ok file, s) := by
      simp only [onFileMap, Prog.zoom, FileMap.getFile, hfile]
    rw [Prog.bind_ok hget, Prog.bind_ok hget]
    have hgetBuffer := onBufferMap_getBuffer hip a.bufferBase s
    cases hbuffer : (BufferMap.getBuffer hip a.bufferBase s.bufferMap).1 with
    | error e =>
      rw [hbuffer] at hgetBuffer
      rw [Prog.bind_error hgetBuffer, Prog.bind_error hgetBuffer]
      exact .noBuffer e hfile hbuffer
    | ok buffer =>
      rw [hbuffer] at hgetBuffer
      rw [Prog.bind_ok hgetBuffer, Prog.bind_ok hgetBuffer]
      have hgetStream := onStreamMap_getStream hip a.hipStream s
      cases hstream : (StreamMap.getStream hip a.hipStream s.streamMap).1 with
      | error e =>
        rw [hstream] at hgetStream
        rw [Prog.bind_error hgetStream]
        exact .noStream file buffer e hbuffer hstream
      | ok stream =>
        rw [hstream] at hgetStream
        rw [Prog.bind_ok hgetStream]
        exact .found file buffer stream hbuffer hstream

/-! ## The errors -/

/-- The exceptions that refuse a request. -/
inductive RefusalExn : Exn → Prop
  | fileNotRegistered : RefusalExn .fileNotRegistered
  | invalidMemoryType : RefusalExn .invalidMemoryType
  | invalidArgument (what : String) : RefusalExn (.invalidArgument what)
  | hipRuntimeError (e : HipError) : RefusalExn (.hipRuntimeError e)

/-- The synchronous functions return the negative of the failure's code. -/
theorem RefusalExn.returned (h : RefusalExn e) : (matchCuFile (ioResult (.error e))).ret =
    -failureCode e := by
  have hsys : ∀ code, e ≠ .systemError code := by
    cases h <;> exact fun _ => nofun
  have hinit : ¬ NotInitialized (.error e) := by
    cases h <;> rintro (h | ⟨_, h, -⟩) <;> cases h
  rw [ioResult, matchCuFile_catch hsys, if_neg fun hcode => hinit (failureCode_eq_iff.1 hcode)]

/-- The asynchronous functions report it, except for the memory type. -/
theorem RefusalExn.reported_iff (h : RefusalExn e) :
    failureCode e = (ioAsyncCatch e).reported ↔ e ≠ .invalidMemoryType := by
  cases h with
  | invalidMemoryType => exact ⟨fun h => absurd h (by decide), fun h => absurd rfl h⟩
  | _ => exact ⟨fun _ => nofun, fun _ => rfl⟩

theorem getBuffer_refusalExn {buf : ℕ}
    (h : (BufferMap.getBuffer hip buf s.bufferMap).1 = .error e) : RefusalExn e := by
  unfold BufferMap.getBuffer at h
  split at h
  · simp only [Buffer.temporary] at h
    split at h
    · rename_i e' hattrs
      cases h
      unfold Buffer.deviceAttributes at hattrs
      split at hattrs
      · cases hattrs
        exact .invalidArgument _
      · split at hattrs
        · cases hattrs
          exact .hipRuntimeError _
        · split at hattrs
          · cases hattrs
            exact .invalidMemoryType
          · cases hattrs
    · split at h
      · cases h
        exact .hipRuntimeError _
      · cases h
  · cases h

theorem getBuffer_invalidMemoryType_iff {buf : ℕ} (hbuf : buf ≠ 0) :
    (BufferMap.getBuffer hip buf s.bufferMap).1 = .error .invalidMemoryType ↔
      s.bufferMap.fromPtr buf = none ∧
        ∃ attrs, hip.hipPointerGetAttributes buf = .ok attrs ∧ attrs.type ≠ .device := by
  unfold BufferMap.getBuffer
  cases hreg : s.bufferMap.fromPtr buf with
  | some buffer => simp
  | none =>
    simp only [true_and, Buffer.temporary, Buffer.deviceAttributes, if_neg hbuf]
    cases hattrs : hip.hipPointerGetAttributes buf with
    | error code => simp
    | ok attrs =>
      by_cases hdevice : attrs.type = .device
      · cases hrange : hip.hipMemGetAddressRange buf with
        | error code => simp [hdevice]
        | ok range => simp [hdevice]
      · simp [hdevice]

theorem getStream_error_iff {hipStream : ℕ} :
    (StreamMap.getStream hip hipStream s.streamMap).1 = .error e ↔
      s.streamMap.fromPtr hipStream = none ∧
        ∃ code, hip.hipStreamGetDevice hipStream = .error code ∧ e = .hipRuntimeError code := by
  unfold StreamMap.getStream
  cases hreg : s.streamMap.fromPtr hipStream with
  | some stream => simp
  | none =>
    cases hdevice : hip.hipStreamGetDevice hipStream with
    | error code => simp [Stream.construct, hdevice, eq_comm]
    | ok device => simp [Stream.construct, hdevice]

/-- With a file and a buffer the fallback refuses only a region. -/
theorem syncRefusal_found {file : IFile} {buffer : IBuffer} (honly : OnlyFallback env hip s a)
    (h : (getFileAndBuffer hip a.fh a.bufferBase s).1 = .ok (file, buffer)) :
    syncRefusal env hip s a =
      if paramsValid buffer (min a.size env.maxRwCount) a.fileOffset a.bufferOffset then none
      else some invalidRegion := by
  have hfallback : env.config.fallback = true := by
    have hscore := (honly file buffer h).1
    unfold Fallback.score at hscore
    split at hscore
    · rename_i hcond
      exact hcond.1
    · omega
  unfold syncRefusal
  rw [h]
  simp only
  cases hv : paramsValid buffer (min a.size env.maxRwCount) a.fileOffset a.bufferOffset with
  | true =>
    rw [Fallback.accept_ok hfallback hv]
    rfl
  | false => simp [Fallback.accept, hfallback, hv]

/-- The exception that refuses a synchronous request. -/
theorem syncRefusal_refusalExn (hcount : s.refCount ≠ 0) (honly : OnlyFallback env hip s a)
    (h : syncRefusal env hip s a = some e) : RefusalExn e := by
  have hl := lookups hip a hcount
  generalize hsync : (getFileAndBuffer hip a.fh a.bufferBase s).1 = r at hl
  generalize (getFileBufferAndStream hip a.fh a.bufferBase a.hipStream s).1 = r' at hl
  have hregion {file buffer} (hlookup : (getFileAndBuffer hip a.fh a.bufferBase s).1 =
      .ok (file, buffer)) : RefusalExn e := by
    rw [syncRefusal_found honly hlookup] at h
    split at h
    · cases h
    · cases h
      exact .invalidArgument _
  cases hl with
  | noFile hfile =>
    rw [syncRefusal, hsync] at h
    cases h
    exact .fileNotRegistered
  | noBuffer e' hfile hbuffer =>
    rw [syncRefusal, hsync] at h
    cases h
    exact getBuffer_refusalExn hbuffer
  | noStream file buffer e' _ _ => exact hregion hsync
  | found file buffer stream _ _ => exact hregion hsync

/-- **The same error** is reported by the two functions for a request that both refuse. -/
def SameError (env : Env) (rounds : ℕ) (hip : HipQueries) (s : DriverState) (a : IoArgs)
    (v : Served) : Prop :=
  ∀ e e', syncRefusal env hip s a = some e → asyncRefusal env.maxRwCount hip s a = some e' →
    (hipFileReadWrite hip s a.type a.fh a.bufferBase a.size a.fileOffset a.bufferOffset
      (getBackends env rounds) v).1.ret = -(ioAsyncCatch e').reported

theorem sameError_of_codes (rounds : ℕ) (v : Served) (hcount : s.refCount ≠ 0)
    (honly : OnlyFallback env hip s a) : SameError env rounds hip s a v ↔
      ∀ e e', syncRefusal env hip s a = some e → asyncRefusal env.maxRwCount hip s a = some e' →
        failureCode e = (ioAsyncCatch e').reported := by
  refine forall₄_congr fun e e' hsync _ => ?_
  rw [hipFileReadWrite_refused honly hsync, (syncRefusal_refusalExn hcount honly hsync).returned,
    Int.neg_inj]

/-- The buffer is not registered, and is not device memory. -/
def NotDeviceMemory (hip : HipQueries) (s : DriverState) (a : IoArgs) : Prop :=
  (s.fileMap.fromFh a.fh).isSome ∧ s.bufferMap.fromPtr a.bufferBase = none ∧
    ∃ attrs, hip.hipPointerGetAttributes a.bufferBase = .ok attrs ∧ attrs.type ≠ .device

/-- The region is refused, and the stream is not registered and unknown to HIP. -/
def RegionAndStreamRefused (maxRwCount : ℕ) (hip : HipQueries) (s : DriverState) (a : IoArgs) :
    Prop :=
  (∃ file buffer, (getFileAndBuffer hip a.fh a.bufferBase s).1 = .ok (file, buffer) ∧
    paramsValid buffer (min a.size maxRwCount) a.fileOffset a.bufferOffset = false) ∧
    s.streamMap.fromPtr a.hipStream = none ∧ ∃ e, hip.hipStreamGetDevice a.hipStream = .error e

/-- **The two functions report the same error** exactly if the memory is device memory or
unknown, and the region and the stream are not both refused. -/
theorem sameError_iff (env : Env) (rounds : ℕ) (hip : HipQueries) (s : DriverState) (a : IoArgs)
    (v : Served) (hcount : 0 < s.refCount) (hbuf : a.bufferBase ≠ 0)
    (honly : OnlyFallback env hip s a) :
    SameError env rounds hip s a v ↔
      ¬ NotDeviceMemory hip s a ∧ ¬ RegionAndStreamRefused env.maxRwCount hip s a := by
  have hcount' : s.refCount ≠ 0 := by omega
  rw [sameError_of_codes rounds v hcount' honly]
  have hl := lookups hip a hcount'
  unfold NotDeviceMemory RegionAndStreamRefused
  rw [← getBuffer_invalidMemoryType_iff hbuf]
  unfold asyncRefusal
  rw [if_neg hbuf]
  generalize hsync : (getFileAndBuffer hip a.fh a.bufferBase s).1 = r at hl ⊢
  generalize hasync : (getFileBufferAndStream hip a.fh a.bufferBase a.hipStream s).1 = r' at hl ⊢
  cases hl with
  | noFile hfile =>
    have href : syncRefusal env hip s a = some .fileNotRegistered := by rw [syncRefusal, hsync]
    simp [href, hfile, (RefusalExn.fileNotRegistered.reported_iff).2 nofun]
  | noBuffer e hfile hbuffer =>
    have href : syncRefusal env hip s a = some e := by rw [syncRefusal, hsync]
    simp [href, hfile, hbuffer, (getBuffer_refusalExn hbuffer).reported_iff]
  | noStream file buffer e hbuffer hstream =>
    obtain ⟨hnone, code, hdevice, rfl⟩ := getStream_error_iff.1 hstream
    rw [syncRefusal_found honly hsync]
    by_cases hv : paramsValid buffer (min a.size env.maxRwCount) a.fileOffset a.bufferOffset = true
    · simp [hbuffer, hv]
    · -- 5022 on one side, and an error of HIP on the other
      have hlt := code.lt
      have hcode : failureCode invalidRegion ≠ (ioAsyncCatch (.hipRuntimeError code)).reported := by
        have hleft : failureCode invalidRegion = 5022 := by decide
        rw [hleft]
        show (5022 : ℤ) ≠ code.code
        unfold HIPFILE_BASE_ERR at hlt
        omega
      simp [hv, hcode, hnone, hdevice]
  | found file buffer stream hbuffer hstream =>
    have hfound : ¬ (s.streamMap.fromPtr a.hipStream = none ∧
        ∃ e, hip.hipStreamGetDevice a.hipStream = .error e) := by
      rintro ⟨hnone, code, hdevice⟩
      have herror := getStream_error_iff.2 ⟨hnone, code, hdevice, rfl⟩
      rw [hstream] at herror
      cases herror
    rw [syncRefusal_found honly hsync]
    by_cases hv : paramsValid buffer (min a.size env.maxRwCount) a.fileOffset a.bufferOffset = true
    · simp [hbuffer, hv]
    · have hcode : failureCode invalidRegion = (ioAsyncCatch invalidRegion).reported := by decide
      simp [hbuffer, hv, hfound, hcode, Fallback.asyncChecks]

/-! ## Examples -/

/-- HIP with host memory, and with no stream. -/
def hostMemory : HipQueries where
  hipPointerGetAttributes _ := .ok ⟨.host, 0⟩
  hipMemGetAddressRange _ := .error .notFound
  hipStreamGetDevice _ := .error .invalidValue

theorem offT_zero : OffT 0 := by decide

/-- A read of sixteen bytes into memory, on a stream. -/
def readArgs (fh bufferBase : ℕ) : IoArgs :=
  ⟨.read, fh, bufferBase, 16, ⟨0, offT_zero⟩, ⟨0, offT_zero⟩, 1⟩

/-- The request, with both backends enabled. -/
def servedStart : Served := ⟨Fallback.tenBytes, [], none, false⟩

/-- A handle that is not registered: both report `hipFileHandleNotRegistered`. -/
theorem sameError_notRegistered :
    SameError Fallback.shortCountsEnv 9 hostMemory oneFile (readArgs 5 4096) servedStart := by
  have hlookup : (getFileAndBuffer hostMemory 5 4096 oneFile).1 = .error .fileNotRegistered := rfl
  have honly : OnlyFallback Fallback.shortCountsEnv hostMemory oneFile (readArgs 5 4096) :=
    fun _ _ h => by cases hlookup.symm.trans h
  exact (sameError_iff Fallback.shortCountsEnv 9 hostMemory oneFile (readArgs 5 4096) servedStart
    (by decide) (by decide) honly).2
    ⟨fun h => absurd h.1 (by decide), fun ⟨⟨_, _, h, _⟩, _⟩ => by cases hlookup.symm.trans h⟩

/-- Host memory: the synchronous function returns `-hipFileHipMemoryTypeInvalid`, and the
asynchronous one `hipFileInternalError`. -/
theorem not_sameError_hostMemory :
    syncRefusal Fallback.shortCountsEnv hostMemory oneFile (readArgs 8 4096) =
        some .invalidMemoryType ∧
      asyncRefusal Fallback.shortCountsEnv.maxRwCount hostMemory oneFile (readArgs 8 4096) =
        some .invalidMemoryType ∧
      ¬ SameError Fallback.shortCountsEnv 9 hostMemory oneFile (readArgs 8 4096) servedStart := by
  have hsync : syncRefusal Fallback.shortCountsEnv hostMemory oneFile (readArgs 8 4096) =
      some .invalidMemoryType := rfl
  have hasync : asyncRefusal Fallback.shortCountsEnv.maxRwCount hostMemory oneFile
      (readArgs 8 4096) = some .invalidMemoryType := rfl
  refine ⟨hsync, hasync, fun h => ?_⟩
  have hret := h _ _ hsync hasync
  exact absurd hret (by decide)

end HipFile
