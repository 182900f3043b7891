import HipFile.Model.Buffer

/-!
# Streams and the stream map
-/

namespace HipFile

def HIPFILE_STREAM_FIXED_BUF_OFFSET : ℕ := 1
def HIPFILE_STREAM_FIXED_FILE_OFFSET : ℕ := 1 <<< 1
def HIPFILE_STREAM_FIXED_FILE_SIZE : ℕ := 1 <<< 2
def HIPFILE_STREAM_PAGE_ALIGNED_INPUTS : ℕ := 1 <<< 3
def HIPFILE_STREAM_FLAGS_MASK : ℕ := 0xf

/-- What the code reads of an `IStream`. -/
structure IStream where
  hipStream : ℕ
  hipDevice : ℤ
  fixedBufferOffset : Bool
  fixedFileOffset : Bool
  fixedIOSize : Bool
  pageAligned : Bool
  deriving DecidableEq, Repr

/-- `Stream::Stream` -/
def Stream.construct (hip : HipQueries) (hipStream flags : ℕ) : Except Exn IStream :=
  if flags &&& HIPFILE_STREAM_FLAGS_MASK ≠ flags then
    .error (.invalidArgument "Invalid flags for stream")
  else
    match hip.hipStreamGetDevice hipStream with
    | .error e => .error (.hipRuntimeError e)
    | .ok device => .ok {
        hipStream := hipStream
        hipDevice := device
        fixedBufferOffset := flags &&& HIPFILE_STREAM_FIXED_BUF_OFFSET ≠ 0
        fixedFileOffset := flags &&& HIPFILE_STREAM_FIXED_FILE_OFFSET ≠ 0
        fixedIOSize := flags &&& HIPFILE_STREAM_FIXED_FILE_SIZE ≠ 0
        pageAligned := flags &&& HIPFILE_STREAM_PAGE_ALIGNED_INPUTS ≠ 0 }

/-- `StreamMap` -/
structure StreamMap where
  fromPtr : ℕ → Option IStream

namespace StreamMap

/-- The map without streams. -/
def empty : StreamMap := ⟨fun _ => none⟩

/-- `StreamMap::registerStream` -/
def registerStream (hip : HipQueries) (hipStream flags : ℕ) : Prog Exn StreamMap Unit := fun m =>
  if (m.fromPtr hipStream).isSome then
    (.error (.invalidArgument "Stream is already registered"), m)
  else
    match Stream.construct hip hipStream flags with
    | .error e => (.error e, m)
    | .ok stream => (.ok (), ⟨Function.update m.fromPtr hipStream (some stream)⟩)

/-- `StreamMap::deregisterStream` -/
def deregisterStream (hipStream : ℕ) : Prog Exn StreamMap Unit := fun m =>
  match m.fromPtr hipStream with
  | none => (.error (.invalidArgument "Stream is not registered"), m)
  | some _ => (.ok (), ⟨Function.update m.fromPtr hipStream none⟩)

/-- `StreamMap::getStream` -/
def getStream (hip : HipQueries) (hipStream : ℕ) : Prog Exn StreamMap IStream := fun m =>
  match m.fromPtr hipStream with
  | none => (Stream.construct hip hipStream 0, m)
  | some stream => (.ok stream, m)

end StreamMap

end HipFile
