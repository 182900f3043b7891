import HipFile.Lib.Machine
import HipFile.Lib.RefCount
import HipFile.Model.Buffer

/-!
# Batch contexts

`BatchContext.submitOperations` with the references that it takes: its loop makes the
operations one by one, and an exception destroys those already made.

* `BatchOperation.construct`: the checks on one element of a submission.
* `BatchContext.machine`: a context under any sequence of submissions.
-/

namespace HipFile

/-! ## Operations -/

/-- `hipFileBatchMode_t`, a value that any bits may be given to -/
inductive HipFileBatchMode
  | batch
  | unknown (value : ℕ)
  deriving DecidableEq, Repr

def HipFileBatchMode.value : HipFileBatchMode → ℕ
  | .batch => 1
  | .unknown value => value

/-- `hipFileOpcode_t`, likewise -/
inductive HipFileOpcode
  | batchRead
  | batchWrite
  | unknown (value : ℕ)
  deriving DecidableEq, Repr

def HipFileOpcode.value : HipFileOpcode → ℕ
  | .batchRead => 0
  | .batchWrite => 1
  | .unknown value => value

/-- `hipFileIOParams_t` -/
structure HipFileIOParams where
  mode : HipFileBatchMode
  devPtrBase : ℕ
  fileOffset : ℤ
  devPtrOffset : ℤ
  size : ℕ
  fh : ℕ
  opcode : HipFileOpcode
  cookie : ℕ
  deriving DecidableEq, Repr

/-- A `Buffer` object and its address. A `File` object has its handle as its address. -/
structure SharedBuffer where
  address : ℕ
  object : IBuffer
  deriving DecidableEq, Repr

/-- The objects whose references are counted. -/
inductive SharedObject
  | file (handle : ℕ)
  | buffer (address : ℕ)
  deriving DecidableEq, Repr

/-- `BatchOperation`, at its address -/
structure BatchOperation where
  address : ℕ
  ioParams : HipFileIOParams
  buffer : SharedBuffer
  file : IFile
  deriving DecidableEq, Repr

/-- What a stream inserts for a `void *`. -/
def pointerText (p : ℕ) : String :=
  if p = 0 then "0" else "0x" ++ String.ofList (Nat.toDigits 16 p)

namespace BatchOperation

/-- The end of a message, by which the client finds the operation. -/
def cookieText (params : HipFileIOParams) : String := ". Cookie: " ++ pointerText params.cookie

/-- `BatchOperation::BatchOperation`, of an object at `address` -/
def construct (address : ℕ) (params : HipFileIOParams) (buffer : SharedBuffer) (file : IFile) :
    Except Exn BatchOperation :=
  let length := buffer.object.getLength
  if params.devPtrBase ≠ buffer.object.getBuffer then
    .error (.invalidArgument "Buffer does not match buffer specified in io_params.")
  else if params.devPtrOffset < 0 then
    .error (.invalidArgument ("Negative buffer offset specified. Value: " ++
      toString params.devPtrOffset ++ cookieText params))
  else if length ≤ toSizeT params.devPtrOffset then
    .error (.invalidArgument ("Buffer offset exceeds the size of the buffer. Size: " ++
      toString length ++ ". Value: " ++ toString params.devPtrOffset ++ cookieText params))
  else if length - toSizeT params.devPtrOffset < params.size then
    .error (.invalidArgument ("IO Size exceeds the size of the buffer & offset. Buffer size: " ++
      toString length ++ ". Buffer offset: " ++ toString params.devPtrOffset ++
      ". IO size: " ++ toString params.size ++ cookieText params))
  else if params.fh ≠ file.handle then
    .error (.invalidArgument "File does not match handle specified in io_params.")
  else if params.fileOffset < 0 then
    .error (.invalidArgument ("Negative file offset specified. Value: " ++
      toString params.fileOffset ++ cookieText params))
  else if params.opcode ≠ .batchRead ∧ params.opcode ≠ .batchWrite then
    .error (.invalidArgument ("Bad opcode specified. Value: " ++
      toString params.opcode.value ++ cookieText params))
  else if params.mode ≠ .batch then
    .error (.invalidArgument ("Invalid Batch mode specified. Value: " ++
      toString params.mode.value ++ cookieText params))
  else .ok ⟨address, params, buffer, file⟩

/-- The references that an operation holds. -/
def refs (op : BatchOperation) : List SharedObject :=
  [.buffer op.buffer.address, .file op.file.handle]

end BatchOperation

/-! ## Contexts -/

/-- `BatchContext`. The set of the outstanding operations is a list of them, in which
an address comes once. -/
structure BatchContext where
  capacity : ℕ
  outstandingOps : List BatchOperation
  deriving DecidableEq, Repr

/-- An element of a submission, with what the call meets at it: what the driver finds
for its file and its buffer, and the address that a new operation gets. -/
structure BatchElement where
  params : HipFileIOParams
  lookup : Except Exn (IFile × SharedBuffer)
  address : ℕ

/-- The locals of `submit_operations`: the operations made so far, and the counts of
the references. -/
structure PendingOps where
  counts : SharedObject → ℕ
  ops : List BatchOperation

/-- A context, and the references to files and buffers that are held for it. -/
structure BatchState where
  context : BatchContext
  counts : SharedObject → ℕ

namespace BatchContext

/-- `IBatchContext::MAX_SIZE` -/
def MAX_SIZE : ℕ := 128

/-- `BatchContext::BatchContext` -/
def construct (capacity : ℕ) : Except Exn BatchContext :=
  if capacity = 0 then .error (.invalidArgument "Batch capacity cannot be zero")
  else if MAX_SIZE < capacity then
    .error (.invalidArgument ("Batch capacity is limited to " ++ toString MAX_SIZE))
  else .ok ⟨capacity, []⟩

/-- `capacity - outstanding_ops.size()` -/
def room (ctx : BatchContext) : ℕ := toSizeT ((ctx.capacity : ℤ) - ctx.outstandingOps.length)

/-- `outstanding_ops.insert` of one operation -/
def insert (ops : List BatchOperation) (op : BatchOperation) : List BatchOperation :=
  if op.address ∈ ops.map BatchOperation.address then ops else ops ++ [op]

/-- One round of the loop of `submit_operations`. -/
def submitRound (e : BatchElement) : Prog Exn PendingOps Unit := fun p =>
  match e.lookup with
  | .error exn => (.error exn, p)
  | .ok (file, buffer) =>
    -- `_file` and `_buffer`, until the round ends
    let locals : List SharedObject := [.file file.handle, .buffer buffer.address]
    let counts := RefCount.retainAll p.counts locals
    match BatchOperation.construct e.address e.params buffer file with
    | .error exn => (.error exn, { p with counts := RefCount.releaseAll counts locals })
    | .ok op =>
      (.ok (), {
        counts := RefCount.releaseAll (RefCount.retainAll counts op.refs) locals
        ops := p.ops ++ [op] })

/-- The loop of `submit_operations`. -/
def submitRounds : List BatchElement → Prog Exn PendingOps Unit
  | [] => pure ()
  | e :: es => do
    submitRound e
    submitRounds es

/-- The text of a submission that has no room. -/
def exceedsCapacity (ctx : BatchContext) (numParams : ℕ) : String :=
  "Submission exceeds the capacity of this context. Number of ops submitted: " ++
    toString numParams ++ ". Context capacity: " ++ toString ctx.capacity ++
    ". Current outstanding ops: " ++ toString ctx.outstandingOps.length

/-- `BatchContext::submit_operations` -/
def submitOperations (elements : List BatchElement) : Prog Exn BatchState Unit := fun s =>
  if s.context.room < elements.length then
    (.error (.invalidArgument (s.context.exceedsCapacity elements.length)), s)
  else
    match submitRounds elements ⟨s.counts, []⟩ with
    | (.error exn, p) =>
      -- the operations in `pending_ops` are destroyed
      (.error exn, { s with
        counts := RefCount.releaseAll p.counts (p.ops.flatMap BatchOperation.refs) })
    | (.ok _, p) =>
      (.ok (), {
        context := { s.context with
          outstandingOps := p.ops.foldl insert s.context.outstandingOps }
        counts := p.counts })

/-! ## Runs -/

/-- The operations of a submission get addresses at which no operation lives. -/
def Fresh (s : BatchState) (elements : List BatchElement) : Prop :=
  (s.context.outstandingOps.map BatchOperation.address ++
    elements.map BatchElement.address).Nodup

instance (s : BatchState) (elements : List BatchElement) : Decidable (Fresh s elements) :=
  inferInstanceAs (Decidable (List.Nodup _))

/-- **A context under the submissions of any threads**, one at a time under its mutex. -/
def machine (ctx : BatchContext) : Machine BatchState (List BatchElement) where
  init := ⟨ctx, fun _ => 0⟩
  step s elements := if Fresh s elements then some (submitOperations elements s).2 else none

end BatchContext

end HipFile
