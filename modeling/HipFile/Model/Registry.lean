import HipFile.Lib.Table
import HipFile.Model.Batch
import HipFile.Model.State

/-!
# The registry: tables of shared objects

`DriverState` with the references that are held to its `File` and `Buffer` objects. A
table holds one reference by each of its entries; the threads, the asynchronous ops and
the operations of the batch contexts hold the others. `use_count` counts them all.

* `Registry.machine`: the registry at the granularity of its locks. References are
  taken by lookups, copied and dropped in any order.
* `Registry.driver`: the driver state without the references.
-/

namespace HipFile

/-- The `File` object itself. -/
def IFile.object (f : IFile) : SharedObject := .file f.handle

/-- The `Buffer` object itself. -/
def SharedBuffer.ref (b : SharedBuffer) : SharedObject := .buffer b.address

/-- Who holds references, besides the tables and the batch operations: a thread inside
of a function, or an asynchronous op that is not completed. -/
inductive Holder
  | thread (t : ℕ)
  | op (address : ℕ)
  deriving DecidableEq, Repr

/-- `DriverState`, with the references held outside of its tables. -/
structure Registry where
  refCount : ℤ
  fromFd : Table ℤ IFile
  fromFh : Table ℕ IFile
  fromPtr : Table ℕ SharedBuffer
  contexts : Table ℕ BatchContext
  outside : List (Holder × SharedObject)

namespace Registry

def init : Registry := ⟨0, ∅, ∅, ∅, ∅, []⟩

/-! ## References -/

/-- The references that the tables hold. -/
def tableRefs (s : Registry) : List SharedObject :=
  (Table.values s.fromFd).map IFile.object ++ (Table.values s.fromFh).map IFile.object ++
    (Table.values s.fromPtr).map SharedBuffer.ref

/-- The references that the operations of the batch contexts hold. -/
def batchRefs (s : Registry) : List SharedObject :=
  (Table.values s.contexts).flatMap fun ctx => ctx.outstandingOps.flatMap BatchOperation.refs

/-- The references that are held outside of the tables. -/
def outsideRefs (s : Registry) : List SharedObject := s.outside.map Prod.snd ++ s.batchRefs

def refs (s : Registry) : List SharedObject := s.tableRefs ++ s.outsideRefs

/-- `use_count()` -/
def useCount (s : Registry) (o : SharedObject) : ℕ := s.refs.count o

/-- The object lives: a new one gets another address. -/
def Alive (s : Registry) (o : SharedObject) : Prop := o ∈ s.refs

instance (s : Registry) (o : SharedObject) : Decidable (s.Alive o) :=
  inferInstanceAs (Decidable (o ∈ _))

/-! ## Methods -/

abbrev Method := Prog Exn Registry

/-- `if (ref_count == 0) { ref_count++; }` -/
def implicitInit (s : Registry) : Registry :=
  if s.refCount = 0 then { s with refCount := s.refCount + 1 } else s

/-- `if (ref_count == 0) { throw DriverNotInitialized(); }` -/
def requireInit : Method Unit := fun s =>
  if s.refCount = 0 then (.error .driverNotInitialized, s) else (.ok (), s)

/-- `FileMap::getFile` -/
def getFile (fh : ℕ) : Method IFile := fun s =>
  match s.fromFh.lookup fh with
  | none => (.error .fileNotRegistered, s)
  | some file => (.ok file, s)

/-- `BufferMap::getBuffer`, where a temporary buffer is at `address` -/
def getBuffer (hip : HipQueries) (buf address : ℕ) : Method SharedBuffer := fun s =>
  match s.fromPtr.lookup buf with
  | some buffer => (.ok buffer, s)
  | none =>
    match Buffer.temporary hip buf with
    | .error e => (.error e, s)
    | .ok object => (.ok ⟨address, object⟩, s)

/-- `FileMap::registerFile` -/
def insertFile (uf : UnregisteredFile) (handle : ℕ) : Method ℕ := fun s =>
  if (s.fromFd.lookup uf.clientFd.fd).isSome then (.error .fileAlreadyRegistered, s)
  else
    let file := File.construct handle uf
    (.ok file.handle, { s with
      fromFd := s.fromFd.insert file.clientFd file
      fromFh := s.fromFh.insert file.handle file })

/-- `DriverState::registerFile`, whose new `File` is at the address `handle` -/
def registerFile (uf : UnregisteredFile) (handle : ℕ) : Method ℕ := do
  Prog.update implicitInit
  insertFile uf handle

/-- `FileMap::deregisterFile` -/
def eraseFile (fh : ℕ) : Method Unit := fun s =>
  match s.fromFh.lookup fh with
  | none => (.error .fileNotRegistered, s)
  | some file =>
    if 2 < s.useCount file.object then (.error .fileOperationsOutstanding, s)
    else (.ok (), { s with fromFd := s.fromFd.erase file.clientFd, fromFh := s.fromFh.erase fh })

/-- `DriverState::deregisterFile` -/
def deregisterFile (fh : ℕ) : Method Unit := do
  requireInit
  eraseFile fh

/-- `BufferMap::registerBuffer` -/
def insertBuffer (hip : HipQueries) (buf length : ℕ) (flags : ℤ) (address : ℕ) : Method Unit :=
  fun s =>
    if (s.fromPtr.lookup buf).isSome then (.error .bufferAlreadyRegistered, s)
    else
      match Buffer.registered hip buf length flags with
      | .error e => (.error e, s)
      | .ok object => (.ok (), { s with fromPtr := s.fromPtr.insert buf ⟨address, object⟩ })

/-- `DriverState::registerBuffer`, whose new `Buffer` is at `address` -/
def registerBuffer (hip : HipQueries) (buf length : ℕ) (flags : ℤ) (address : ℕ) :
    Method Unit := do
  Prog.update implicitInit
  insertBuffer hip buf length flags address

/-- `BufferMap::deregisterBuffer` -/
def eraseBuffer (buf : ℕ) : Method Unit := fun s =>
  match s.fromPtr.lookup buf with
  | none => (.error .bufferNotRegistered, s)
  | some buffer =>
    if 1 < s.useCount buffer.ref then (.error .bufferOperationsOutstanding, s)
    else (.ok (), { s with fromPtr := s.fromPtr.erase buf })

/-- `DriverState::deregisterBuffer` -/
def deregisterBuffer (buf : ℕ) : Method Unit := do
  requireInit
  eraseBuffer buf

/-- `DriverState::getFileAndBuffer` -/
def getFileAndBuffer (hip : HipQueries) (fh buf address : ℕ) : Method (IFile × SharedBuffer) := do
  requireInit
  let file ← getFile fh
  let buffer ← getBuffer hip buf address
  return (file, buffer)

/-- `DriverState::incrRefCount` -/
def incrRefCount : Method Unit := Prog.update fun s => { s with refCount := s.refCount + 1 }

/-- `if (ref_count > 0) { ref_count--; }` -/
def dropRef (s : Registry) : Registry :=
  if 0 < s.refCount then { s with refCount := s.refCount - 1 } else s

/-- `if (ref_count == 0) { buffer_map->clear(); file_map->clear(); }` -/
def clearAtZero (s : Registry) : Registry :=
  if s.refCount = 0 then { s with fromFd := ∅, fromFh := ∅, fromPtr := ∅ } else s

/-- `if (ref_count < 0) { throw ...; }` -/
def requireNonneg : Method Unit := fun s =>
  if s.refCount < 0 then (.error (.runtimeError "negative state reference count"), s)
  else (.ok (), s)

/-- `DriverState::decrRefCount`. The batch contexts are not cleared. -/
def decrRefCount : Method Unit := do
  Prog.update dropRef
  Prog.update clearAtZero
  requireNonneg

/-- `DriverState::ensureInitialized` -/
def ensureInitialized : Method Unit := Prog.update implicitInit

/-- `BatchContextMap::createContext`, whose new context is at `handle` -/
def createContext (capacity handle : ℕ) : Method ℕ := fun s =>
  match BatchContext.construct capacity with
  | .error e => (.error e, s)
  | .ok ctx => (.ok handle, { s with contexts := s.contexts.insert handle ctx })

/-! ## Runs -/

/-- The methods, and what is done with references. -/
inductive Step
  | registerFile (uf : UnregisteredFile) (handle : ℕ)
  | deregisterFile (fh : ℕ)
  | registerBuffer (hip : HipQueries) (buf length : ℕ) (flags : ℤ) (address : ℕ)
  | deregisterBuffer (buf : ℕ)
  /-- the lookup of a synchronous or asynchronous request, or of a batch operation -/
  | lookup (t : ℕ) (hip : HipQueries) (fh buf address : ℕ)
  /-- a `shared_ptr` is copied -/
  | copy (r : Holder × SharedObject) (holder : Holder)
  /-- a `shared_ptr` is destroyed, or reset -/
  | drop (r : Holder × SharedObject)
  | incrRefCount
  | decrRefCount
  | ensureInitialized
  | createContext (capacity handle : ℕ)
  /-- the end of `submit_operations`, which inserts the operations that thread `t` has made -/
  | acceptOperations (t context : ℕ) (ops : List BatchOperation)

/-- The references that a thread holds by the operations it has made. -/
def pendingRefs (t : ℕ) (ops : List BatchOperation) : List (Holder × SharedObject) :=
  (ops.flatMap BatchOperation.refs).map fun o => (.thread t, o)

/-- The operations have been constructed, from objects that the thread holds, and the
context has room for them. -/
def Acceptable (s : Registry) (t : ℕ) (ctx : BatchContext) (ops : List BatchOperation) : Prop :=
  ops.length ≤ ctx.room ∧
    (ctx.outstandingOps.map BatchOperation.address ++ ops.map BatchOperation.address).Nodup ∧
    (∀ op ∈ ops, BatchOperation.construct op.address op.ioParams op.buffer op.file = .ok op) ∧
    (pendingRefs t ops).Subperm s.outside

instance decidableAcceptable (s : Registry) (t : ℕ) (ctx : BatchContext)
    (ops : List BatchOperation) : Decidable (s.Acceptable t ctx ops) :=
  inferInstanceAs (Decidable (_ ∧ _ ∧ _ ∧ _))

/-- One step, if it can be made. The addresses of new objects are new. -/
def step (s : Registry) : Step → Option Registry
  | .registerFile uf handle =>
    if s.Alive (.file handle) then none else some (registerFile uf handle s).2
  | .deregisterFile fh => some (deregisterFile fh s).2
  | .registerBuffer hip buf length flags address =>
    if s.Alive (.buffer address) then none
    else some (registerBuffer hip buf length flags address s).2
  | .deregisterBuffer buf => some (deregisterBuffer buf s).2
  | .lookup t hip fh buf address =>
    if s.Alive (.buffer address) then none
    else
      match getFileAndBuffer hip fh buf address s with
      | (.error _, s) => some s
      | (.ok (file, buffer), s) => some { s with
          outside := (.thread t, file.object) :: (.thread t, buffer.ref) :: s.outside }
  | .copy r holder =>
    if r ∈ s.outside then some { s with outside := (holder, r.2) :: s.outside } else none
  | .drop r => if r ∈ s.outside then some { s with outside := s.outside.erase r } else none
  | .incrRefCount => some (incrRefCount s).2
  | .decrRefCount => some (decrRefCount s).2
  | .ensureInitialized => some (ensureInitialized s).2
  | .createContext capacity handle =>
    if (s.contexts.lookup handle).isSome then none else some (createContext capacity handle s).2
  | .acceptOperations t context ops =>
    match s.contexts.lookup context with
    | none => none
    | some ctx =>
      if s.Acceptable t ctx ops then some { s with
        outside := s.outside.diff (pendingRefs t ops)
        contexts := s.contexts.insert context { ctx with
          outstandingOps := ops.foldl BatchContext.insert ctx.outstandingOps } }
      else none

/-- **The registry under any threads.** -/
def machine : Machine Registry Step := ⟨init, step⟩

/-! ## The driver state -/

/-- The driver state without the references. -/
def driver (s : Registry) : DriverState where
  refCount := s.refCount
  fileMap := ⟨Table.view id s.fromFd, Table.view id s.fromFh⟩
  bufferMap := ⟨Table.view SharedBuffer.object s.fromPtr⟩
  streamMap := .empty

/-- The call of the driver that a step makes. -/
def Step.call (s : Registry) : Step → Option DriverState.Call
  | .registerFile uf handle => some (.registerFile uf handle)
  | .deregisterFile fh => some (.deregisterFile fh
      (((s.fromFh.lookup fh).map fun f => s.useCount f.object).getD 0))
  | .registerBuffer hip buf length flags _ => some (.registerBuffer hip buf length flags)
  | .deregisterBuffer buf => some (.deregisterBuffer buf
      (((s.fromPtr.lookup buf).map fun b => s.useCount b.ref).getD 0))
  | .incrRefCount => some .incrRefCount
  | .decrRefCount => some .decrRefCount
  | .ensureInitialized => some .ensureInitialized
  | _ => none

end Registry

end HipFile
