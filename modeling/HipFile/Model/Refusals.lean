import HipFile.Model.Requests

/-!
# What refuses a request before any byte moves

The lookups and the checks of the synchronous functions, served by the fallback, and of the
asynchronous ones, which always use it. Both end with an exception or let the request pass, and
each kind of function has its own `catch` clauses for the exceptions.
-/

namespace HipFile

/-- The arguments of a synchronous function, and for the asynchronous one the stream and what
its pointers point to. -/
structure IoArgs where
  type : IoType
  fh : ℕ
  bufferBase : ℕ
  size : ℕ
  fileOffset : HoffT
  bufferOffset : HoffT
  hipStream : ℕ

/-- `hipFileIo` with the fallback: the exception that refuses the request. -/
def syncRefusal (env : Env) (hip : HipQueries) (s : DriverState) (a : IoArgs) : Option Exn :=
  match (DriverState.getFileAndBuffer hip a.fh a.bufferBase s).1 with
  | .error e => some e
  | .ok (_, buffer) =>
    match Fallback.accept env buffer a.size a.fileOffset a.bufferOffset with
    | .error e => some e
    | .ok _ => none

/-- The checks of `Fallback::async_io`, on the objects that the lookup gives. -/
def Fallback.asyncChecks (maxRwCount : ℕ) (buffer : IBuffer) (stream : IStream) (size : ℕ)
    (fileOffset bufferOffset : ℤ) : Except Exn Unit :=
  let limitedSize := min size maxRwCount
  if ¬ paramsValid buffer limitedSize fileOffset bufferOffset then .error invalidRegion
  else if buffer.getGpuId ≠ stream.hipDevice then
    .error (.invalidArgument "Buffer GPU ID does not match Stream GPU ID")
  else .ok ()

theorem Fallback.asyncAccept_eq (maxRwCount : ℕ) (req : AsyncRequest) :
    asyncAccept maxRwCount req = asyncChecks maxRwCount req.buffer.toIBuffer req.stream
      req.params.size req.params.fileOffset req.params.bufferOffset := rfl

theorem invalidValue_ne_success : HipFileOpError.invalidValue ≠ .success := by decide

/-- `hipFileIOAsync`, for an initialised driver: the exception that refuses the request. -/
def asyncRefusal (maxRwCount : ℕ) (hip : HipQueries) (s : DriverState) (a : IoArgs) :
    Option Exn :=
  if a.bufferBase = 0 then some (.hipFileError ⟨⟨.invalidValue, none⟩, invalidValue_ne_success⟩)
  else
    match (DriverState.getFileBufferAndStream hip a.fh a.bufferBase a.hipStream s).1 with
    | .error e => some e
    | .ok (_, buffer, stream) =>
      match Fallback.asyncChecks maxRwCount buffer stream a.size a.fileOffset a.bufferOffset with
      | .error e => some e
      | .ok _ => none

/-- The code that the documentation compares: the `hipFileOpError_t`, or the `hipError_t` if
that is what the struct is for. -/
def HipFileError.reported (error : HipFileError) : ℤ :=
  match error.err, error.hipDrvErr with
  | .hipDriverError, some e => e.code
  | err, _ => err.code

end HipFile
