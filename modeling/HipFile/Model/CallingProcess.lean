import HipFile.Lib.Machine
import HipFile.Model.Cleanup
import HipFile.Model.Driver

/-!
# The process under the public functions of any threads

The calls of `hipFileHandleRegister`, `hipFileHandleDeregister`, `hipFileDriverClose`,
`hipFileRead` and `hipFileWrite`, step by step, with everything that they close and unmap.

* `CallingProcess.move`: what a step of a call does, from the state before.
* `CallingProcess.machine`: the process, whose state is the exception that has terminated it
  when one has left a destructor.
* `CallingProcess.ReleasesSucceed`: the outcomes of the releases that a step comes to.
-/

namespace HipFile

/-- The arguments of a read or write after its lookup. -/
structure IoRequest where
  type : IoType
  file : IFile
  buffer : SharedBuffer
  size : ℕ
  fileOffset : ℤ
  bufferOffset : ℤ

/-- The `try` block of `hipFileIo` after its lookup. -/
def IoRequest.serve {ω : Type} (r : IoRequest) (backends : List (Backend ω)) : Prog Exn ω ℕ :=
  fun w =>
    match selectBackend backends r.file r.buffer.object r.size r.fileOffset r.bufferOffset with
    | none => (.error (noBackend backends), w)
    | some backend =>
      backend.io r.type r.file r.buffer.object r.size r.fileOffset r.bufferOffset w

/-- The `try` block is a lookup, and this. -/
theorem hipFileIoTry_eq {ω : Type} (hip : HipQueries) (s : DriverState) (type : IoType)
    (fh bufferBase address size : ℕ) (fileOffset bufferOffset : ℤ) (backends : List (Backend ω))
    (w : ω) : hipFileIoTry hip s type fh bufferBase size fileOffset bufferOffset backends w =
      match (DriverState.getFileAndBuffer hip fh bufferBase s).1 with
      | .error e => (.error e, w)
      | .ok (file, buffer) =>
        IoRequest.serve ⟨type, file, ⟨address, buffer⟩, size, fileOffset, bufferOffset⟩ backends
          w := rfl

/-- What a public function returns. -/
inductive CallReturn
  | handleRegister (r : HipFileError) (fh : Option ℕ)
  | handleDeregister
  | driverClose (r : HipFileError)
  | io (r : IoResult)
  deriving DecidableEq, Repr

/-- Where a thread is. -/
inductive CallPoint
  | client
  /-- in `hipFileHandleRegister`, after the constructor of `uf` -/
  | constructed
  /-- in `hipFileHandleRegister`, after `registerFile` -/
  | registered (result : Except Exn ℕ)
  /-- in `hipFileDriverClose`, after a positive count -/
  | closing
  /-- in `hipFileIo`, after the lookup -/
  | serving (r : IoRequest)
  /-- in `hipFileIo`, at the end of the `try` block, or when an exception leaves it -/
  | served (r : IoRequest) (result : Except Exn ℕ)
  /-- in `hipFileIo`, after the destruction of `buffer` -/
  | dropping (r : IoRequest) (result : Except Exn ℕ)

/-- The number of calls that the thread is in. -/
def CallPoint.calls : CallPoint → ℕ
  | .client => 0
  | _ => 1

/-- The descriptors with the registry, the threads, the calls that have been made, and those
that have returned. -/
structure CallingProcess where
  descriptors : Descriptors
  point : ℕ → CallPoint
  called : List ℕ
  returned : List (ℕ × CallReturn)

namespace CallingProcess

def init : CallingProcess := ⟨.init, fun _ => .client, [], []⟩

/-- A thread calls a public function. -/
def enter (p : CallingProcess) (t : ℕ) : CallingProcess := { p with called := p.called ++ [t] }

def goto (p : CallingProcess) (t : ℕ) (point : CallPoint) : CallingProcess :=
  { p with point := Function.update p.point t point }

/-- The function returns. -/
def leave (p : CallingProcess) (t : ℕ) (r : CallReturn) : CallingProcess :=
  { p.goto t .client with returned := p.returned ++ [(t, r)] }

/-- The steps of the calls. A step of another function does not drop what a call holds. -/
inductive Step
  | handleRegister (t : ℕ) (file : FileCalls) (fhNull : Bool) (descr : Option HipFileDescr)
  | registerFile (t handle : ℕ)
  | endRegister (t : ℕ)
  | handleDeregister (t fh : ℕ)
  | closeTest (t : ℕ)
  | closeDecr (t : ℕ)
  | io (t : ℕ) (type : IoType) (hip : HipQueries) (fh bufferBase address size : ℕ)
    (fileOffset bufferOffset : ℤ)
  | serve (t : ℕ) (env : Env) (rounds : ℕ) (w : World)
  | dropBuffer (t : ℕ)
  | dropFile (t : ℕ)
  | other (l : Registry.Step)
  | clientOpen (fd : ℤ) (flags : ℕ)
  | clientClose (fd : ℤ)

/-- What a step does: it leaves the descriptors, or makes a step on them, or serves a request. -/
inductive Move
  | quiet (p : CallingProcess)
  | descriptors (l : Descriptors.Step) (next : CallingProcess → CallingProcess)
  | serve (r : IoRequest) (env : Env) (rounds : ℕ) (w : World)
    (next : Except Exn ℕ → CallingProcess)

/-- What `hipFileHandleRegister` returns. -/
def registerReturn : Except Exn ℕ → CallReturn
  | .ok fh => .handleRegister hipFileSuccess (some fh)
  | .error e => .handleRegister (handleRegisterCatch e) none

/-- What `hipFileDriverClose` returns after the decrement. -/
def closeReturn : Except Exn Unit → CallReturn
  | .ok _ => .driverClose hipFileSuccess
  | .error e => .driverClose (handleException e)

/-- Whether a step of another function leaves the references of the calls. -/
def leavesCalls (p : CallingProcess) : Registry.Step → Bool
  | .drop (.thread t, _) => (p.point t).calls = 0
  | .acceptOperations t _ _ => (p.point t).calls = 0
  | _ => true

/-- **What a step does**, if the thread is there. -/
def move (p : CallingProcess) : Step → Option Move
  | .handleRegister t file fhNull descr =>
    match p.point t with
    | .client =>
      let p := p.enter t
      match fhNull, descr with
      | true, _ => some (.quiet (p.leave t (.handleRegister ⟨.invalidValue, none⟩ none)))
      | _, none => some (.quiet (p.leave t (.handleRegister ⟨.invalidValue, none⟩ none)))
      | false, some descr =>
        match descr.type with
        | .opaqueFD => some (.descriptors (.construct t file descr.fd) fun p =>
          match UnregisteredFile.construct file descr.fd with
          | .error e => (p.enter t).leave t (registerReturn (.error e))
          | .ok _ => (p.enter t).goto t .constructed)
        | _ => some (.quiet (p.leave t (.handleRegister ⟨.ioNotSupported, none⟩ none)))
    | _ => none
  | .registerFile t handle =>
    match p.point t, p.descriptors.registrations.lookup t with
    | .constructed, some r =>
      let result := (p.descriptors.registry.registerFile r.uf handle).1
      some (.descriptors (.register t handle) fun p => p.goto t (.registered result))
    | _, _ => none
  -- `uf` is destroyed on each way out
  | .endRegister t =>
    match p.point t with
    | .registered result =>
      some (.descriptors (.leave t) fun p => p.leave t (registerReturn result))
    | _ => none
  | .handleDeregister t fh =>
    match p.point t with
    | .client =>
      if fh = 0 then some (.quiet ((p.enter t).leave t .handleDeregister))
      else some (.descriptors (.registry (.deregisterFile fh)) fun p =>
        (p.enter t).leave t .handleDeregister)
    | _ => none
  | .closeTest t =>
    match p.point t with
    | .client =>
      if 0 < p.descriptors.registry.refCount then some (.quiet ((p.enter t).goto t .closing))
      else some (.quiet ((p.enter t).leave t (.driverClose ⟨.driverNotInitialized, none⟩)))
    | _ => none
  | .closeDecr t =>
    match p.point t with
    | .closing =>
      let result := p.descriptors.registry.decrRefCount.1
      some (.descriptors (.registry .decrRefCount) fun p => p.leave t (closeReturn result))
    | _ => none
  | .io t type hip fh bufferBase address size fileOffset bufferOffset =>
    match p.point t with
    | .client =>
      let found := (p.descriptors.registry.getFileAndBuffer hip fh bufferBase address).1
      some (.descriptors (.registry (.lookup t hip fh bufferBase address)) fun p =>
        match found with
        | .error e => (p.enter t).leave t (.io (matchCuFile (ioResult (.error e))))
        | .ok (file, buffer) =>
          (p.enter t).goto t (.serving ⟨type, file, buffer, size, fileOffset, bufferOffset⟩))
    | _ => none
  | .serve t env rounds w =>
    match p.point t with
    | .serving r => some (.serve r env rounds w fun result => p.goto t (.served r result))
    | _ => none
  | .dropBuffer t =>
    match p.point t with
    | .served r result => some (.descriptors (.registry (.drop (.thread t, r.buffer.ref)))
      fun p => p.goto t (.dropping r result))
    | _ => none
  | .dropFile t =>
    match p.point t with
    | .dropping r result => some (.descriptors (.registry (.drop (.thread t, r.file.object)))
      fun p => p.leave t (.io (matchCuFile (ioResult result))))
    | _ => none
  | .other l => if p.leavesCalls l then some (.descriptors (.registry l) id) else none
  | .clientOpen fd flags => some (.descriptors (.clientOpen fd flags) id)
  | .clientClose fd => some (.descriptors (.clientClose fd) id)

/-- A request in its world, before it is served. -/
def unserved (w : World) : Served := ⟨w, [], none, false⟩

/-- The process after a move, if it can be made. A request that is still running has not been
served. -/
def Move.run (p : CallingProcess) (calls : ReleaseCalls) : Move → Option (Mortal Exn CallingProcess)
  | .quiet q => some (.ok q)
  | .descriptors l next => (p.descriptors.cleaningStep calls l).map fun s =>
    s.map fun d => next { p with descriptors := d }
  | .serve r env rounds w next =>
    let out := r.serve (cleaningBackends env calls rounds) (.ok (unserved w))
    match out.2 with
    | .error e => some (.error e)
    | .ok v => if v.running then none else some (.ok (next out.1))

/-- A step, and the outcomes of the releases it makes. -/
abbrev Label := Step × ReleaseCalls

/-- One step. A process that is terminated makes none. -/
def step : Mortal Exn CallingProcess → Label → Option (Mortal Exn CallingProcess)
  | .error _, _ => none
  | .ok p, (l, calls) => (p.move l).bind (Move.run p calls)

/-- **The process under any threads.** -/
def machine : Machine (Mortal Exn CallingProcess) Label := ⟨.ok init, step⟩

/-! ## Calls that return -/

/-- The process lives, and each call that has been made has returned to its caller, or is being
made. -/
def ReturnsNormally (s : Mortal Exn CallingProcess) : Prop :=
  ∃ p, s = .ok p ∧
    ∀ t, p.called.count t = (p.returned.map Prod.fst).count t + (p.point t).calls

end CallingProcess

/-! ## Releases -/

/-- The step drops the last reference to the `File` at `fh`: it deregisters a file that no one
else holds, or closes the driver for the last time, or gives up the only reference that there
is. -/
def Registry.LastReference (s : Registry) (l : Registry.Step) (fh : ℕ) : Prop :=
  match l with
  | .deregisterFile fh' => fh' = fh ∧ (s.fromFh.lookup fh).isSome ∧ s.useCount (.file fh) ≤ 2
  | .decrRefCount => s.refCount = 1 ∧ .file fh ∉ s.outsideRefs
  | .drop r => r.2 = .file fh ∧ s.useCount (.file fh) = 1
  | _ => False

instance (s : Registry) (l : Registry.Step) (fh : ℕ) : Decidable (s.LastReference l fh) :=
  match l with
  | .deregisterFile _ => inferInstanceAs (Decidable (_ ∧ _ ∧ _))
  | .decrRefCount => inferInstanceAs (Decidable (_ ∧ _))
  | .drop _ => inferInstanceAs (Decidable (_ ∧ _))
  | .registerFile _ _ | .registerBuffer _ _ _ _ _ | .deregisterBuffer _ | .lookup _ _ _ _ _
  | .copy _ _ | .incrRefCount | .ensureInitialized | .createContext _ _
  | .acceptOperations _ _ _ => inferInstanceAs (Decidable False)

/-- The descriptors that the members own. -/
def FileMembers.managed (m : FileMembers) : List ℤ :=
  (m.descriptors.filter fun d => d.Owns).map FileDescriptor.fd

/-- The descriptors that a step closes. -/
def Descriptors.released (d : Descriptors) : Descriptors.Step → List ℤ
  | .leave t =>
    match d.registrations.lookup t with
    | some r => r.uf.members.managed
    | none => []
  | .registry l => (d.objects.filter fun f => d.registry.LastReference l f.handle).flatMap
    fun f => f.members.managed
  | _ => []

/-- The fallback maps a bounce buffer for the request. -/
def Fallback.MapsBounceBuffer (env : Env) (buffer : IBuffer) (size : ℕ)
    (fileOffset bufferOffset : ℤ) (w : World) : Prop :=
  (accept env buffer size fileOffset bufferOffset).isOk = true ∧ (w.mmap env.sys).1.isOk = true

instance (env : Env) (buffer : IBuffer) (size : ℕ) (fileOffset bufferOffset : ℤ) (w : World) :
    Decidable (Fallback.MapsBounceBuffer env buffer size fileOffset bufferOffset w) :=
  inferInstanceAs (Decidable (_ ∧ _))

/-- The world in which the request comes to the fallback, if it does: the fallback is selected,
or the fast path has failed and hands the request over. -/
def IoRequest.fallbackWorld (r : IoRequest) (env : Env) (w : World) : Option World :=
  if 0 ≤ Fastpath.score env r.file r.buffer.object r.size r.fileOffset r.bufferOffset then
    let out := Fastpath.ioImpl env r.type r.file r.buffer.object r.size r.fileOffset
      r.bufferOffset w
    match out.1 >>= throwNegative with
    | .ok _ => none
    | .error e =>
      if Fastpath.isFallbackEligible e = true ∧ 0 ≤ Fallback.score env r.buffer.object
      then some out.2 else none
  else if 0 ≤ Fallback.score env r.buffer.object then some w
  else none

namespace CallingProcess

/-- **The releases that a move comes to succeed**: the closes of the descriptors whose last
owner it destroys, and the `munmap` of the bounce buffer, if there is one. -/
def Move.ReleasesSucceed (p : CallingProcess) (calls : ReleaseCalls) : Move → Prop
  | .quiet _ => True
  | .descriptors l _ => ∀ fd ∈ p.descriptors.released l, calls.close fd = .ok ()
  | .serve r env _ w _ =>
    ∀ w' ∈ r.fallbackWorld env w, Fallback.MapsBounceBuffer env r.buffer.object r.size
      r.fileOffset r.bufferOffset w' → calls.munmap = .ok ()

/-- The releases that a step comes to succeed. -/
def ReleasesSucceed (s : Mortal Exn CallingProcess) (l : Label) : Prop :=
  ∀ p, s = .ok p → ∀ m ∈ p.move l.1, m.ReleasesSucceed p l.2

end CallingProcess

end HipFile
