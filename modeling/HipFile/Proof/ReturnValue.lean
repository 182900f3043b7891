import HipFile.Proof.Registration

/-!
# What the value returned by a read or a write says

A returned value is a byte count, `-1` for a system error, or the negative of an
error code. The HIP error code 1 is reported as `-1`.

* `hipFileIoCatch_code`: the value returned for every exception that is not reported
  through `errno`.
* `decodes_ok`, `decodes_systemError`, `decodes_catch_iff`: the three kinds of outcome.
* `decodes_iff`: the value decodes unless the outcome is the HIP error 1.
* `getFileAndBuffer_notInitialized_iff`: the driver is found not to be initialised where it has no
  references, and nowhere else.
* `hipFileReadWrite_decodes_iff`: the same, for a request.
-/

namespace HipFile

/-- How the work of a request ended: a byte count, or the exception raised. -/
abbrev IoOutcome := Except Exn ℕ

/-- A system error was raised. -/
def SystemErrorRaised (outcome : IoOutcome) (code : Errno) : Prop :=
  outcome = .error (.systemError code)

/-- The driver was found not to be initialised. -/
def NotInitialized (outcome : IoOutcome) : Prop :=
  outcome = .error .driverNotInitialized ∨
    ∃ e, outcome = .error (.hipFileError e) ∧ e.error.err = .driverNotInitialized

/-- The `hipFileOpError_t` of a failure. -/
def opError : Exn → HipFileOpError
  | .hipRuntimeError _ => .hipDriverError
  | .hipFileError e => e.error.err
  | .driverNotInitialized => .driverNotInitialized
  | .invalidMemoryType => .hipMemoryTypeInvalid
  | .invalidArgument _ => .invalidValue
  | .fileNotRegistered => .handleNotRegistered
  | _ => .internalError

/-- The error code of a failure: a `hipError_t` for an error of the HIP runtime, else
a `hipFileOpError_t`. -/
def failureCode : Exn → ℤ
  | .hipRuntimeError e => e.code
  | e => (opError e).code

/-- **The returned value decodes**: a count is a count, `-1` is a system error or a
driver that is not initialised, with `errno` set, and any other value is the
negative of the failure's code. -/
structure Decodes (outcome : IoOutcome) (r : IoResult) : Prop where
  count : ∀ n : ℤ, (0 ≤ n ∧ r.ret = n) ↔ ∃ k : ℕ, outcome = .ok k ∧ n = k
  system : r.ret = -1 ↔ (∃ code, SystemErrorRaised outcome code) ∨ NotInitialized outcome
  errno : ∀ code, SystemErrorRaised outcome code → r.errno = some code
  errno_init : NotInitialized outcome → r.errno = some EINVAL
  other : r.ret < 0 → r.ret ≠ -1 → ∃ e, outcome = .error e ∧ r.ret = -failureCode e

variable {e : Exn}

theorem opError_ne_success (e : Exn) : opError e ≠ .success := by
  cases e with
  | hipFileError e => exact e.isError
  | _ => simp [opError]

theorem opError_eq_iff : opError e = .driverNotInitialized ↔ NotInitialized (.error e) := by
  unfold NotInitialized
  cases e with
  | hipFileError e' => simp [opError]
  | _ => simp [opError]

theorem failureCode_of_ne_hip (h : ∀ code, e ≠ .hipRuntimeError code) :
    failureCode e = (opError e).code := by
  cases e with
  | hipRuntimeError code => exact absurd rfl (h code)
  | _ => rfl

/-- Every failure has a positive code, and 1 is the code of the HIP error 1 only. -/
theorem failureCode_pos (e : Exn) : 0 < failureCode e ∧
    (failureCode e = 1 ↔ e = .hipRuntimeError .invalidValue) := by
  by_cases h : ∃ code, e = .hipRuntimeError code
  · obtain ⟨code, rfl⟩ := h
    have hpos := code.pos
    refine ⟨by simp only [failureCode]; omega, ?_⟩
    simp only [failureCode, Exn.hipRuntimeError.injEq]
    constructor
    · intro h1
      cases code with
      | mk code =>
        simp only at h1
        simp only [HipError.invalidValue, HipError.mk.injEq]
        omega
    · rintro rfl
      rfl
  · simp only [not_exists] at h
    have hlarge := HipFileOpError.code_of_ne (opError_ne_success e)
    rw [failureCode_of_ne_hip h]
    exact ⟨by omega, fun h1 => by omega, fun h1 => absurd h1 (h _)⟩

/-- Only a missing initialisation has the code of one. -/
theorem failureCode_eq_iff : failureCode e = HipFileOpError.driverNotInitialized.code ↔
    NotInitialized (.error e) := by
  rw [← opError_eq_iff]
  by_cases h : ∃ code, e = .hipRuntimeError code
  · obtain ⟨code, rfl⟩ := h
    have hlt := code.lt
    have hcode : HipFileOpError.driverNotInitialized.code = 5001 := by decide
    simp only [failureCode, opError, hcode, HIPFILE_BASE_ERR] at hlt ⊢
    exact ⟨fun h => by omega, fun h => by cases h⟩
  · simp only [not_exists] at h
    rw [failureCode_of_ne_hip h]
    exact HipFileOpError.code_injective.eq_iff

/-- **What is returned for an exception** that is not a system error: the negative of
its code. -/
theorem hipFileIoCatch_code (h : ∀ code, e ≠ .systemError code) :
    hipFileIoCatch e = ⟨-failureCode e, none⟩ := by
  cases e with
  | systemError code => exact absurd rfl (h code)
  | _ => rfl

/-- The value returned for an exception that is not a system error. -/
theorem matchCuFile_catch (h : ∀ code, e ≠ .systemError code) :
    matchCuFile (hipFileIoCatch e) =
      if failureCode e = HipFileOpError.driverNotInitialized.code then ⟨-1, some EINVAL⟩
      else ⟨-failureCode e, none⟩ := by
  rw [hipFileIoCatch_code h, matchCuFile]
  simp only [Int.neg_inj]

/-- A failure that returns a negative value reports no count. -/
theorem no_count {r : IoResult} (h : r.ret < 0) (n : ℤ) :
    (0 ≤ n ∧ r.ret = n) ↔ ∃ k : ℕ, (.error e : IoOutcome) = .ok k ∧ n = k := by
  constructor
  · rintro ⟨hn, hret⟩
    omega
  · rintro ⟨k, hk, -⟩
    cases hk

/-- A count is returned as it is. -/
theorem matchCuFile_ok (n : ℕ) : matchCuFile (ioResult (.ok n)) = ⟨n, none⟩ := by
  have hneg : (-HipFileOpError.driverNotInitialized.code) < 0 := by decide
  exact if_neg (by simp only [ioResult]; omega)

/-- A failure is returned as a negative value. -/
theorem matchCuFile_error_neg (e : Exn) : (matchCuFile (ioResult (.error e))).ret < 0 := by
  by_cases hsys : ∃ code, e = .systemError code
  · obtain ⟨code, rfl⟩ := hsys
    have hret : matchCuFile (ioResult (.error (.systemError code))) = ⟨-1, some code⟩ := rfl
    rw [hret]
    show (-1 : ℤ) < 0
    decide
  · simp only [not_exists] at hsys
    have hpos := (failureCode_pos e).1
    show (matchCuFile (hipFileIoCatch e)).ret < 0
    rw [matchCuFile_catch hsys]
    split
    · decide
    · show -failureCode e < 0
      omega

/-- Its value is decoded as the count. -/
theorem decodes_ok (n : ℕ) : Decodes (.ok n) (matchCuFile (ioResult (.ok n))) := by
  rw [matchCuFile_ok]
  refine ⟨fun m => ?_, ?_, ?_, ?_, ?_⟩
  · simp only [Except.ok.injEq]
    exact ⟨fun h => ⟨n, rfl, h.2.symm⟩, fun ⟨k, h, h'⟩ => ⟨by omega, by rw [h, h']⟩⟩
  · simp only [SystemErrorRaised, NotInitialized]
    refine ⟨fun h => by omega, fun h => ?_⟩
    rcases h with ⟨_, h⟩ | h | ⟨_, h, -⟩ <;> cases h
  · intro code h
    cases h
  · rintro (h | ⟨_, h, -⟩) <;> cases h
  · intro h
    simp only at h
    omega

/-- A system error is returned as `-1`, with `errno`. -/
theorem decodes_systemError (code : Errno) :
    Decodes (.error (.systemError code)) (matchCuFile (ioResult (.error (.systemError code)))) := by
  have hret : matchCuFile (ioResult (.error (.systemError code))) = ⟨-1, some code⟩ := rfl
  rw [hret]
  refine ⟨no_count (by decide : (-1 : ℤ) < 0), ?_, ?_, ?_, ?_⟩
  · exact ⟨fun _ => Or.inl ⟨code, rfl⟩, fun _ => rfl⟩
  · intro code' h
    cases h
    rfl
  · rintro (h | ⟨_, h, -⟩) <;> cases h
  · intro _ h
    exact absurd rfl h

/-- The negative of a code decodes, unless the code is 1: `-1` is taken for a system
error. -/
theorem decodes_catch_iff (hsys : ∀ code, e ≠ .systemError code) :
    Decodes (.error e) (matchCuFile (hipFileIoCatch e)) ↔ failureCode e ≠ 1 := by
  have hnosys : ∀ code, ¬ SystemErrorRaised (.error e) code := fun code h =>
    hsys code (Except.error.inj h)
  have hpos := (failureCode_pos e).1
  rw [matchCuFile_catch hsys]
  by_cases hinit : NotInitialized (.error e)
  · -- `matchCuFile` turns the code of a missing initialisation into a system error
    have hcode := failureCode_eq_iff.2 hinit
    rw [if_pos hcode]
    refine ⟨fun _ h => absurd (hcode.symm.trans h) (by decide), fun _ => ?_⟩
    refine ⟨no_count (by decide : (-1 : ℤ) < 0), ?_, ?_, fun _ => rfl, fun _ h => absurd rfl h⟩
    · exact ⟨fun _ => Or.inr hinit, fun _ => rfl⟩
    · exact fun code h => absurd h (hnosys code)
  · rw [if_neg (fun h => hinit (failureCode_eq_iff.1 h))]
    have hnone : ¬ ((∃ code, SystemErrorRaised (.error e) code) ∨ NotInitialized (.error e)) := by
      rintro (⟨code, h⟩ | h)
      · exact hnosys code h
      · exact hinit h
    constructor
    · intro hdec h1
      have hret : (-failureCode e : ℤ) = -1 := by omega
      exact hnone (hdec.system.1 hret)
    · intro h1
      refine ⟨no_count (by simp only; omega), ?_, ?_, fun h => absurd h hinit,
        fun _ _ => ⟨e, rfl, rfl⟩⟩
      · refine ⟨fun h => ?_, fun h => absurd h hnone⟩
        simp only at h
        omega
      · exact fun code h => absurd h (hnosys code)

/-- **The value decodes, unless the outcome is the HIP error 1.** -/
theorem decodes_iff (outcome : IoOutcome) : Decodes outcome (matchCuFile (ioResult outcome)) ↔
    outcome ≠ .error (.hipRuntimeError .invalidValue) := by
  cases outcome with
  | ok n => exact ⟨fun _ h => (by cases h), fun _ => decodes_ok n⟩
  | error e =>
    by_cases hsys : ∃ code, e = .systemError code
    · obtain ⟨code, rfl⟩ := hsys
      exact ⟨fun _ h => (by cases h), fun _ => decodes_systemError code⟩
    · simp only [not_exists] at hsys
      have hone := (failureCode_pos e).2
      rw [ioResult, decodes_catch_iff hsys, ne_eq, ne_eq, hone, Except.error.injEq]

/-! ## Requests -/

theorem Buffer.deviceAttributes_error {hip : HipQueries} {buf : ℕ}
    (h : Buffer.deviceAttributes hip buf = .error e) : e ≠ .driverNotInitialized := by
  rintro rfl
  unfold Buffer.deviceAttributes at h
  by_cases hnull : buf = 0
  · rw [if_pos hnull] at h
    cases h
  · rw [if_neg hnull] at h
    cases hget : hip.hipPointerGetAttributes buf with
    | error e =>
      rw [hget] at h
      cases h
    | ok attrs =>
      simp only [hget] at h
      by_cases htype : attrs.type ≠ .device
      · rw [if_pos htype] at h
        cases h
      · rw [if_neg htype] at h
        cases h

/-- A temporary buffer does not ask for the driver. -/
theorem Buffer.temporary_ne_notInitialized (hip : HipQueries) (buf : ℕ) :
    Buffer.temporary hip buf ≠ .error .driverNotInitialized := by
  intro h
  unfold Buffer.temporary at h
  cases hattrs : Buffer.deviceAttributes hip buf with
  | error e =>
    rw [hattrs] at h
    exact Buffer.deviceAttributes_error hattrs (Except.error.inj h)
  | ok attrs =>
    cases hrange : hip.hipMemGetAddressRange buf with
    | error e =>
      simp only [hattrs, hrange] at h
      cases h
    | ok range =>
      simp only [hattrs, hrange] at h
      cases h

/-- **The lookup finds the driver not initialised** exactly where there are no references. -/
theorem getFileAndBuffer_notInitialized_iff (hip : HipQueries) (fh bufferBase : ℕ)
    (s : DriverState) :
    (DriverState.getFileAndBuffer hip fh bufferBase s).1 = .error .driverNotInitialized ↔
      s.refCount = 0 := by
  unfold DriverState.getFileAndBuffer
  rw [DriverState.requireInit_bind]
  by_cases hcount : s.refCount = 0
  · rw [if_pos hcount]
    exact iff_of_true rfl hcount
  · rw [if_neg hcount]
    refine iff_of_false (fun herror => ?_) hcount
    cases hfile : s.fileMap.fromFh fh with
    | none =>
      have hget : DriverState.onFileMap (FileMap.getFile fh) s =
          (.error .fileNotRegistered, s) := by
        simp only [DriverState.onFileMap, Prog.zoom, FileMap.getFile, hfile]
      rw [Prog.bind_error hget] at herror
      cases herror
    | some file =>
      have hget : DriverState.onFileMap (FileMap.getFile fh) s = (.ok file, s) := by
        simp only [DriverState.onFileMap, Prog.zoom, FileMap.getFile, hfile]
      rw [Prog.bind_ok hget] at herror
      cases hbuffer : DriverState.onBufferMap (BufferMap.getBuffer hip bufferBase) s with
      | mk r s' =>
        cases r with
        | ok buffer =>
          rw [Prog.bind_ok hbuffer] at herror
          cases herror
        | error e =>
          rw [Prog.bind_error hbuffer] at herror
          obtain rfl : e = .driverNotInitialized := Except.error.inj herror
          simp only [DriverState.onBufferMap, Prog.zoom, BufferMap.getBuffer, Prod.mk.injEq]
            at hbuffer
          cases hregistered : s.bufferMap.fromPtr bufferBase with
          | none =>
            rw [hregistered] at hbuffer
            exact Buffer.temporary_ne_notInitialized hip bufferBase hbuffer.1
          | some buffer =>
            rw [hregistered] at hbuffer
            cases hbuffer.1

/-- Without references, the request finds the driver not initialised. -/
theorem notInitialized_of_refCount {ω : Type} {hip : HipQueries} {s : DriverState} {type : IoType}
    {fh bufferBase size : ℕ} {fileOffset bufferOffset : ℤ} {backends : List (Backend ω)} {w : ω}
    (h : s.refCount = 0) : NotInitialized
      (hipFileIoTry hip s type fh bufferBase size fileOffset bufferOffset backends w).1 := by
  have hlookup := (getFileAndBuffer_notInitialized_iff hip fh bufferBase s).2 h
  unfold hipFileIoTry
  rw [hlookup]
  exact Or.inl rfl

/-- **The value returned by `hipFileRead` and `hipFileWrite` decodes** unless the lookup
or the selected backend raises the HIP error 1. -/
theorem hipFileReadWrite_decodes_iff {ω : Type} (hip : HipQueries) (s : DriverState) (type : IoType)
    (fh bufferBase size : ℕ) (fileOffset bufferOffset : ℤ) (backends : List (Backend ω)) (w : ω) :
    (Decodes (hipFileIoTry hip s type fh bufferBase size fileOffset bufferOffset backends w).1
        (hipFileReadWrite hip s type fh bufferBase size fileOffset bufferOffset backends w).1 ↔
      (DriverState.getFileAndBuffer hip fh bufferBase s).1 ≠
          .error (.hipRuntimeError .invalidValue) ∧
        ∀ file buffer backend,
          (DriverState.getFileAndBuffer hip fh bufferBase s).1 = .ok (file, buffer) →
          selectBackend backends file buffer size fileOffset bufferOffset = some backend →
          (backend.io type file buffer size fileOffset bufferOffset w).1 ≠
            .error (.hipRuntimeError .invalidValue)) ∧
    (s.refCount = 0 → NotInitialized
      (hipFileIoTry hip s type fh bufferBase size fileOffset bufferOffset backends w).1) := by
  refine ⟨?_, notInitialized_of_refCount⟩
  rw [hipFileReadWrite_fst, decodes_iff]
  unfold hipFileIoTry
  cases hlookup : (DriverState.getFileAndBuffer hip fh bufferBase s).1 with
  | error e =>
    simp only [ne_eq, Except.error.injEq, iff_self_and]
    exact fun _ _ _ _ h => (by cases h)
  | ok p =>
    obtain ⟨file, buffer⟩ := p
    simp only [ne_eq, reduceCtorEq, not_false_eq_true, true_and, Except.ok.injEq, Prod.mk.injEq]
    cases hsel : selectBackend backends file buffer size fileOffset bufferOffset with
    | none =>
      have hno : noBackend backends ≠ .hipRuntimeError .invalidValue := by
        unfold noBackend
        split <;> simp
      simp only [Except.error.injEq, hno, not_false_eq_true, true_iff]
      rintro _ _ _ ⟨rfl, rfl⟩ h
      rw [hsel] at h
      cases h
    | some backend =>
      simp only
      constructor
      · rintro hio _ _ _ ⟨rfl, rfl⟩ h
        rw [hsel] at h
        obtain rfl := Option.some.inj h
        exact hio
      · intro h
        exact h file buffer backend ⟨rfl, rfl⟩ hsel

/-- The driver after the registration of one file, whose handle is 8. -/
def oneFile : DriverState :=
  (DriverState.registerFile ⟨⟨3, false⟩, ⟨3, false⟩, none, ⟨1, 0x8000, 0, 0⟩, 2, none, 0, 0⟩ 8
    DriverState.init).2

/-- The file of that driver. -/
def foundFile : IFile := ⟨8, 3, 3, none, 0, 0, false, true, false, false⟩

/-- A read into memory that HIP does not know: `hipErrorInvalidValue` is returned as
`-1`, and `errno` is not written. -/
theorem hipFileRead_not_decodes :
    DriverState.machine.Reachable oneFile ∧
      (hipFileIoTry noHip oneFile .read 8 4096 16 0 0 ([] : List (Backend Unit)) ()).1 =
        .error (.hipRuntimeError .invalidValue) ∧
      (hipFileRead noHip oneFile 8 4096 16 0 0 ([] : List (Backend Unit)) ()).1 = ⟨-1, none⟩ ∧
      ¬ Decodes (hipFileIoTry noHip oneFile .read 8 4096 16 0 0 ([] : List (Backend Unit)) ()).1
        (hipFileRead noHip oneFile 8 4096 16 0 0 ([] : List (Backend Unit)) ()).1 :=
  ⟨.step (.registerFile _ 8) .init trivial rfl, rfl, rfl, fun h =>
    (decodes_iff (.error (.hipRuntimeError .invalidValue))).1 h rfl⟩

end HipFile
