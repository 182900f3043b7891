import HipFile.Model.State

/-!
# The public functions

The `catch` clauses of each public function are one function from the exception to
what is returned.
-/

namespace HipFile

/-- `{hipFileSuccess, hipSuccess}` -/
def hipFileSuccess : HipFileError := ⟨.success, none⟩

/-! ## Registration -/

/-- `hipFileFileHandleType_t` -/
inductive HipFileFileHandleType
  | opaqueFD
  | opaqueWin32
  | userspaceFS
  | unknown (value : ℤ)
  deriving DecidableEq, Repr

/-- What the code reads of a `hipFileDescr_t`. -/
structure HipFileDescr where
  type : HipFileFileHandleType
  fd : ℤ
  deriving DecidableEq, Repr

/-- The `catch` clauses of `hipFileHandleRegister`. -/
def handleRegisterCatch : Exn → HipFileError
  | .fileAlreadyRegistered => ⟨.handleAlreadyRegistered, none⟩
  | e => handleException e

/-- `hipFileHandleRegister`, where `fh` is null or not, `descr` is `none` when null,
and a new `File` is at the address `newFile`. The result comes with `*fh`, if it
is written. -/
def hipFileHandleRegister (calls : FileCalls) (newFile : ℕ) (fhNull : Bool)
    (descr : Option HipFileDescr) (s : DriverState) : HipFileError × Option ℕ × DriverState :=
  match fhNull, descr with
  | true, _ => (⟨.invalidValue, none⟩, none, s)
  | _, none => (⟨.invalidValue, none⟩, none, s)
  | false, some descr =>
    match descr.type with
    | .opaqueFD =>
      -- the file is looked at before the driver's lock is taken
      match UnregisteredFile.construct calls descr.fd with
      | .error e => (handleRegisterCatch e, none, s)
      | .ok uf =>
        match DriverState.registerFile uf newFile s with
        | (.error e, s) => (handleRegisterCatch e, none, s)
        | (.ok fh, s) => (hipFileSuccess, some fh, s)
    | _ => (⟨.ioNotSupported, none⟩, none, s)

/-- The `catch` clauses of `hipFileBufRegister`. -/
def bufRegisterCatch : Exn → HipFileError
  | .bufferAlreadyRegistered => ⟨.memoryAlreadyRegistered, none⟩
  | .invalidMemoryType => ⟨.hipMemoryTypeInvalid, none⟩
  | .invalidPointerRange => ⟨.hipPointerRangeError, none⟩
  | .hipRuntimeError e =>
    if e = .invalidValue then ⟨.invalidValue, none⟩ else handleException (.hipRuntimeError e)
  | .invalidArgument _ => ⟨.invalidValue, none⟩
  | e => handleException e

/-- `hipFileBufRegister` -/
def hipFileBufRegister (hip : HipQueries) (bufferBase length : ℕ) (flags : ℤ) (s : DriverState) :
    HipFileError × DriverState :=
  match DriverState.registerBuffer hip bufferBase length flags s with
  | (.ok _, s) => (hipFileSuccess, s)
  | (.error e, s) => (bufRegisterCatch e, s)

/-- An exception is never reported as success. -/
theorem handleRegisterCatch_ne_success (e : Exn) : (handleRegisterCatch e).err ≠ .success := by
  unfold handleRegisterCatch
  split
  · decide
  · exact handleException_ne_success e

theorem bufRegisterCatch_ne_success (e : Exn) : (bufRegisterCatch e).err ≠ .success := by
  unfold bufRegisterCatch
  split
  · decide
  · decide
  · decide
  · split
    · decide
    · exact handleException_ne_success _
  · decide
  · exact handleException_ne_success e

/-! ## Synchronous IO -/

/-- A backend, on a world `ω`: its score for a request, and the IO, which returns a
byte count or throws. -/
structure Backend (ω : Type) where
  score : IFile → IBuffer → ℕ → ℤ → ℤ → ℤ
  io : IoType → IFile → IBuffer → ℕ → ℤ → ℤ → Prog Exn ω ℕ

variable {ω : Type}

/-- The locals of the selection loop of `hipFileIo`. -/
structure Selection (ω : Type) where
  score : ℤ
  backend : Option (Backend ω)

/-- One round of the selection loop. -/
def Selection.consider (file : IFile) (buffer : IBuffer) (size : ℕ) (fileOffset bufferOffset : ℤ)
    (sel : Selection ω) (backend : Backend ω) : Selection ω :=
  let score := backend.score file buffer size fileOffset bufferOffset
  -- of equal scores the first stays
  if sel.score < score then ⟨score, some backend⟩ else sel

/-- The backend that `hipFileIo` selects. -/
def selectBackend (backends : List (Backend ω)) (file : IFile) (buffer : IBuffer) (size : ℕ)
    (fileOffset bufferOffset : ℤ) : Option (Backend ω) :=
  (backends.foldl (Selection.consider file buffer size fileOffset bufferOffset) ⟨-1, none⟩).backend

/-- The exception thrown when no backend is selected. -/
def noBackend (backends : List (Backend ω)) : Exn :=
  if backends.length = 0 then .runtimeError "No available backends for IO request"
  else .runtimeError "All backends refused IO request"

/-- The `try` block of `hipFileIo`. -/
def hipFileIoTry (hip : HipQueries) (s : DriverState) (type : IoType) (fh bufferBase size : ℕ)
    (fileOffset bufferOffset : ℤ) (backends : List (Backend ω)) : Prog Exn ω ℕ := fun w =>
  match (DriverState.getFileAndBuffer hip fh bufferBase s).1 with
  | .error e => (.error e, w)
  | .ok (file, buffer) =>
    match selectBackend backends file buffer size fileOffset bufferOffset with
    | none => (.error (noBackend backends), w)
    | some backend => backend.io type file buffer size fileOffset bufferOffset w

/-- A returned `ssize_t`, and the value written to `errno`, if it is written. -/
structure IoResult where
  ret : ℤ
  errno : Option Errno
  deriving DecidableEq, Repr

/-- The `catch` clauses of `hipFileIo`. -/
def hipFileIoCatch : Exn → IoResult
  | .driverNotInitialized => ⟨-HipFileOpError.driverNotInitialized.code, none⟩
  | .hipFileError e => ⟨-e.error.err.code, none⟩
  | .invalidMemoryType => ⟨-HipFileOpError.hipMemoryTypeInvalid.code, none⟩
  | .invalidArgument _ => ⟨-HipFileOpError.invalidValue.code, none⟩
  | .fileNotRegistered => ⟨-HipFileOpError.handleNotRegistered.code, none⟩
  | .hipRuntimeError e => ⟨-e.code, none⟩
  | .systemError code => ⟨-1, some code⟩
  | _ => ⟨-HipFileOpError.internalError.code, none⟩

/-- What `hipFileIo` returns when its `try` block ends so. -/
def ioResult : Except Exn ℕ → IoResult
  | .ok nbytes => ⟨nbytes, none⟩
  | .error e => hipFileIoCatch e

/-- `hipFileIo` -/
def hipFileIo (hip : HipQueries) (s : DriverState) (type : IoType) (fh bufferBase size : ℕ)
    (fileOffset bufferOffset : ℤ) (backends : List (Backend ω)) (w : ω) : IoResult × ω :=
  let r := hipFileIoTry hip s type fh bufferBase size fileOffset bufferOffset backends w
  (ioResult r.1, r.2)

/-- The check after the call of `hipFileIo`, for the behaviour of cuFile. -/
def matchCuFile (r : IoResult) : IoResult :=
  if r.ret = -HipFileOpError.driverNotInitialized.code then ⟨-1, some EINVAL⟩ else r

/-- `hipFileRead` -/
def hipFileRead (hip : HipQueries) (s : DriverState) (fh bufferBase size : ℕ)
    (fileOffset bufferOffset : ℤ) (backends : List (Backend ω)) (w : ω) : IoResult × ω :=
  let r := hipFileIo hip s .read fh bufferBase size fileOffset bufferOffset backends w
  (matchCuFile r.1, r.2)

/-- `hipFileWrite` -/
def hipFileWrite (hip : HipQueries) (s : DriverState) (fh bufferBase size : ℕ)
    (fileOffset bufferOffset : ℤ) (backends : List (Backend ω)) (w : ω) : IoResult × ω :=
  let r := hipFileIo hip s .write fh bufferBase size fileOffset bufferOffset backends w
  (matchCuFile r.1, r.2)

/-- The public function for a direction. -/
def hipFileReadWrite (hip : HipQueries) (s : DriverState) (type : IoType)
    (fh bufferBase size : ℕ) (fileOffset bufferOffset : ℤ) (backends : List (Backend ω)) (w : ω) :
    IoResult × ω :=
  match type with
  | .read => hipFileRead hip s fh bufferBase size fileOffset bufferOffset backends w
  | .write => hipFileWrite hip s fh bufferBase size fileOffset bufferOffset backends w

/-- Either function returns what the `try` block of `hipFileIo` ends with, translated. -/
theorem hipFileReadWrite_fst (hip : HipQueries) (s : DriverState) (type : IoType)
    (fh bufferBase size : ℕ) (fileOffset bufferOffset : ℤ) (backends : List (Backend ω)) (w : ω) :
    (hipFileReadWrite hip s type fh bufferBase size fileOffset bufferOffset backends w).1 =
      matchCuFile (ioResult (hipFileIoTry hip s type fh bufferBase size fileOffset bufferOffset
        backends w).1) := by
  cases type <;> rfl

end HipFile
