import HipFile.Lib.Machine
import HipFile.Model.File
import HipFile.Model.Stream

/-!
# The driver state

The methods of `DriverState`. Each holds `state_mutex` throughout and is one step;
a method that throws leaves the state it has reached. The batch contexts do not
touch this state and are left out.

* `DriverState.Call`: the steps that any thread may take at any moment.
* `DriverState.machine`: the driver state under the calls of any threads.
-/

namespace HipFile

/-- `DriverState` -/
structure DriverState where
  refCount : ℤ
  fileMap : FileMap
  bufferMap : BufferMap
  streamMap : StreamMap

namespace DriverState

/-- `DriverState::DriverState` -/
def init : DriverState := ⟨0, .empty, .empty, .empty⟩

/-- A part of a method. -/
abbrev Method := Prog Exn DriverState

def onFileMap {α : Type} (x : Prog Exn FileMap α) : Method α :=
  Prog.zoom fileMap (fun m s => { s with fileMap := m }) x

def onBufferMap {α : Type} (x : Prog Exn BufferMap α) : Method α :=
  Prog.zoom bufferMap (fun m s => { s with bufferMap := m }) x

def onStreamMap {α : Type} (x : Prog Exn StreamMap α) : Method α :=
  Prog.zoom streamMap (fun m s => { s with streamMap := m }) x

/-- `if (ref_count == 0) { ref_count++; }` -/
def implicitInit (s : DriverState) : DriverState :=
  if s.refCount = 0 then { s with refCount := s.refCount + 1 } else s

/-- `if (ref_count == 0) { throw DriverNotInitialized(); }` -/
def requireInit : Method Unit := fun s =>
  if s.refCount = 0 then (.error .driverNotInitialized, s) else (.ok (), s)

/-- `DriverState::registerBuffer` -/
def registerBuffer (hip : HipQueries) (buf length : ℕ) (flags : ℤ) : Method Unit := do
  Prog.update implicitInit
  onBufferMap (BufferMap.registerBuffer hip buf length flags)

/-- `DriverState::deregisterBuffer` -/
def deregisterBuffer (buf useCount : ℕ) : Method Unit := do
  requireInit
  onBufferMap (BufferMap.deregisterBuffer buf useCount)

/-- `DriverState::getRegisteredBuffer` -/
def getRegisteredBuffer (buf : ℕ) : Method IBuffer := do
  requireInit
  onBufferMap (BufferMap.getRegisteredBuffer buf)

/-- `DriverState::getBuffer` -/
def getBuffer (hip : HipQueries) (buf : ℕ) : Method IBuffer :=
  onBufferMap (BufferMap.getBuffer hip buf)

/-- `DriverState::registerFile` -/
def registerFile (uf : UnregisteredFile) (handle : ℕ) : Method ℕ := do
  Prog.update implicitInit
  onFileMap (FileMap.registerFile uf handle)

/-- `DriverState::deregisterFile` -/
def deregisterFile (fh useCount : ℕ) : Method Unit := do
  requireInit
  onFileMap (FileMap.deregisterFile fh useCount)

/-- `DriverState::getFile` -/
def getFile (fh : ℕ) : Method IFile := do
  requireInit
  onFileMap (FileMap.getFile fh)

/-- `DriverState::registerStream` -/
def registerStream (hip : HipQueries) (hipStream flags : ℕ) : Method Unit :=
  onStreamMap (StreamMap.registerStream hip hipStream flags)

/-- `DriverState::deregisterStream` -/
def deregisterStream (hipStream : ℕ) : Method Unit :=
  onStreamMap (StreamMap.deregisterStream hipStream)

/-- `DriverState::getStream` -/
def getStream (hip : HipQueries) (hipStream : ℕ) : Method IStream :=
  onStreamMap (StreamMap.getStream hip hipStream)

/-- `DriverState::getFileAndBuffer` -/
def getFileAndBuffer (hip : HipQueries) (fh buf : ℕ) : Method (IFile × IBuffer) := do
  requireInit
  let file ← onFileMap (FileMap.getFile fh)
  let buffer ← onBufferMap (BufferMap.getBuffer hip buf)
  return (file, buffer)

/-- `DriverState::getFileBufferAndStream` -/
def getFileBufferAndStream (hip : HipQueries) (fh buf hipStream : ℕ) :
    Method (IFile × IBuffer × IStream) := do
  requireInit
  let file ← onFileMap (FileMap.getFile fh)
  let buffer ← onBufferMap (BufferMap.getBuffer hip buf)
  let stream ← onStreamMap (StreamMap.getStream hip hipStream)
  return (file, buffer, stream)

/-- `DriverState::incrRefCount` -/
def incrRefCount : Method Unit :=
  Prog.update fun s => { s with refCount := s.refCount + 1 }

/-- `if (ref_count > 0) { ref_count--; }` -/
def dropRef (s : DriverState) : DriverState :=
  if 0 < s.refCount then { s with refCount := s.refCount - 1 } else s

/-- `if (ref_count == 0) { buffer_map->clear(); file_map->clear(); }` -/
def clearAtZero (s : DriverState) : DriverState :=
  if s.refCount = 0 then { s with bufferMap := .empty, fileMap := .empty } else s

/-- `if (ref_count < 0) { throw ...; }` -/
def requireNonneg : Method Unit := fun s =>
  if s.refCount < 0 then (.error (.runtimeError "negative state reference count"), s)
  else (.ok (), s)

/-- `DriverState::decrRefCount` -/
def decrRefCount : Method Unit := do
  Prog.update dropRef
  Prog.update clearAtZero
  requireNonneg

/-- `DriverState::getRefCount` -/
def getRefCount (s : DriverState) : ℤ := s.refCount

/-- `DriverState::ensureInitialized` -/
def ensureInitialized : Method Unit := Prog.update implicitInit

/-! ## Runs -/

/-- The methods that change the state, with what they are called with. The lookups
and `getRefCount` leave it as it is and are no steps. -/
inductive Call
  | registerBuffer (hip : HipQueries) (buf length : ℕ) (flags : ℤ)
  | deregisterBuffer (buf useCount : ℕ)
  | registerFile (uf : UnregisteredFile) (handle : ℕ)
  | deregisterFile (fh useCount : ℕ)
  | registerStream (hip : HipQueries) (hipStream flags : ℕ)
  | deregisterStream (hipStream : ℕ)
  | incrRefCount
  | decrRefCount
  | ensureInitialized

/-- The state that a method leaves, whether it returns or throws. -/
def Call.apply (s : DriverState) : Call → DriverState
  | .registerBuffer hip buf length flags => (DriverState.registerBuffer hip buf length flags s).2
  | .deregisterBuffer buf useCount => (DriverState.deregisterBuffer buf useCount s).2
  | .registerFile uf handle => (DriverState.registerFile uf handle s).2
  | .deregisterFile fh useCount => (DriverState.deregisterFile fh useCount s).2
  | .registerStream hip hipStream flags => (DriverState.registerStream hip hipStream flags s).2
  | .deregisterStream hipStream => (DriverState.deregisterStream hipStream s).2
  | .incrRefCount => (DriverState.incrRefCount s).2
  | .decrRefCount => (DriverState.decrRefCount s).2
  | .ensureInitialized => (DriverState.ensureInitialized s).2

/-- The driver state under any sequence of method calls by any threads. -/
def machine : Machine DriverState Call where
  init := init
  step s c := some (c.apply s)

end DriverState

end HipFile
