import HipFile.Lib.Handles
import HipFile.Model.Registry

/-!
# Descriptors

The life of the descriptors that the library opens: from the constructor of
`UnregisteredFile` through the move into a `File` to the destruction of the last
reference to it. The process's table of descriptors also holds the client's.

* `UnregisteredFile.build`: the constructor, with what it does to descriptors.
* `Descriptors.machine`: registrations step by step, on the registry. A `File` is
  destroyed in the step that drops the last reference to it.
-/

namespace HipFile

/-- The descriptors of the process, with the flags that they were opened with. -/
abbrev FdTable := HandleTable ℤ ℕ

namespace FileDescriptor

/-- `FileDescriptor::FileDescriptor()` -/
def empty : FileDescriptor := ⟨-1, false⟩

/-- `FileDescriptor::make_managed` -/
def makeManaged (fd : ℤ) : FileDescriptor := ⟨fd, true⟩

/-- `FileDescriptor::make_unmanaged` -/
def makeUnmanaged (fd : ℤ) : FileDescriptor := ⟨fd, false⟩

/-- The destruction closes the descriptor. -/
def Owns (d : FileDescriptor) : Prop := d.managed = true ∧ d.fd ≠ -1

instance (d : FileDescriptor) : Decidable d.Owns := inferInstanceAs (Decidable (_ ∧ _))

/-- `FileDescriptor::~FileDescriptor` -/
def destroy (d : FileDescriptor) (os : FdTable) : FdTable :=
  if d.Owns then os.closeOwn d.fd else os

/-- `FileDescriptor::operator=(FileDescriptor &&)`: the two objects afterwards. -/
def moveAssign (d other : FileDescriptor) (os : FdTable) :
    FileDescriptor × FileDescriptor × FdTable :=
  (other, empty, d.destroy os)

/-- The assignment of a temporary, which is destroyed at its end. -/
def assign (d temporary : FileDescriptor) (os : FdTable) : FileDescriptor × FdTable :=
  let (d, temporary, os) := d.moveAssign temporary os
  (d, temporary.destroy os)

/-- The assignment of a temporary to a `std::optional`. -/
def assignOptional (d : Option FileDescriptor) (temporary : FileDescriptor) (os : FdTable) :
    FileDescriptor × FdTable :=
  match d with
  | some d => d.assign temporary os
  -- move construction, which leaves the temporary empty
  | none => (temporary, empty.destroy os)

end FileDescriptor

/-- The descriptors of an `UnregisteredFile`, or of a `File`. -/
structure FileMembers where
  clientFd : FileDescriptor
  bufferedFd : FileDescriptor
  unbufferedFd : Option FileDescriptor
  deriving DecidableEq, Repr

namespace FileMembers

/-- The descriptors in the order in which they are destroyed. -/
def descriptors (m : FileMembers) : List FileDescriptor :=
  m.unbufferedFd.toList ++ [m.bufferedFd, m.clientFd]

/-- The descriptors that the members own, all from the open with the given serial number. -/
def owned (m : FileMembers) (serial : ℕ) : List (ℤ × ℕ) :=
  (m.descriptors.filter fun d => d.Owns).map fun d => (d.fd, serial)

/-- The destruction of the members. -/
def destroy (m : FileMembers) (os : FdTable) : FdTable :=
  m.descriptors.foldl (fun os d => d.destroy os) os

end FileMembers

namespace UnregisteredFile

/-- The flags with which the constructor opens the file again. -/
def openFlags (flags : ℕ) : ℕ :=
  if flags &&& O_DIRECT ≠ 0 then clearDirect (flags ||| O_CLOEXEC)
  else (flags ||| O_CLOEXEC) ||| O_DIRECT

/-- `UnregisteredFile::UnregisteredFile`. An exception destroys the members. -/
def build (calls : FileCalls) (fd : ℤ) : Prog Exn FdTable UnregisteredFile := fun os =>
  let members : FileMembers := ⟨.makeUnmanaged fd, .empty, none⟩
  match calls.statx with
  | .error e => (.error (.systemError e), members.destroy os)
  | .ok stx =>
  match calls.fcntl with
  | .error e => (.error (.systemError e), members.destroy os)
  | .ok flags =>
  match calls.getMountInfo with
  | .error e => (.error e, members.destroy os)
  | .ok mountinfo =>
    let memAlign := if stx.stxMask &&& STATX_DIOALIGN ≠ 0 then stx.stxDioMemAlign else 4096
    let offsetAlign := if stx.stxMask &&& STATX_DIOALIGN ≠ 0 then stx.stxDioOffsetAlign else 4096
    if flags &&& O_DIRECT ≠ 0 then
      let (unbuffered, os) :=
        FileDescriptor.assignOptional members.unbufferedFd (.makeUnmanaged fd) os
      let members := { members with unbufferedFd := some unbuffered }
      -- the client's descriptor has `O_DIRECT`: the library opens a buffered one
      match calls.openFd (clearDirect (flags ||| O_CLOEXEC)) with
      | .error e => (.error (.systemError e), members.destroy os)
      | .ok n =>
        let os := os.openOwn n (clearDirect (flags ||| O_CLOEXEC))
        let (buffered, os) := members.bufferedFd.assign (.makeManaged n) os
        (.ok ⟨members.clientFd, buffered, members.unbufferedFd, stx, flags, mountinfo,
          memAlign, offsetAlign⟩, os)
    else
      let (buffered, os) := members.bufferedFd.assign (.makeUnmanaged fd) os
      let members := { members with bufferedFd := buffered }
      match calls.openFd ((flags ||| O_CLOEXEC) ||| O_DIRECT) with
      | .error e =>
        -- `EINVAL`: the file system has no direct IO, and the file goes without
        if e ≠ EINVAL then (.error (.systemError e), members.destroy os)
        else (.ok ⟨members.clientFd, members.bufferedFd, none, stx, flags, mountinfo, 0, 0⟩, os)
      | .ok n =>
        let os := os.openOwn n ((flags ||| O_CLOEXEC) ||| O_DIRECT)
        let (unbuffered, os) :=
          FileDescriptor.assignOptional members.unbufferedFd (.makeManaged n) os
        (.ok ⟨members.clientFd, members.bufferedFd, some unbuffered, stx, flags, mountinfo,
          memAlign, offsetAlign⟩, os)

def members (uf : UnregisteredFile) : FileMembers :=
  ⟨uf.clientFd, uf.bufferedFd, uf.unbufferedFd⟩

/-- What `File::File(UnregisteredFile &&)` leaves. The optional keeps an empty descriptor. -/
def movedFrom (uf : UnregisteredFile) : UnregisteredFile :=
  { uf with
    clientFd := .empty
    bufferedFd := .empty
    unbufferedFd := uf.unbufferedFd.map fun _ => .empty }

end UnregisteredFile

/-- A `File` object. For the record, it keeps the flags that the constructor of its
`UnregisteredFile` has read, and the serial number of the open that was made for it. -/
structure FileObject where
  handle : ℕ
  members : FileMembers
  flags : ℕ
  serial : ℕ
  deriving DecidableEq, Repr

/-- A thread inside of `hipFileHandleRegister`, after the constructor of `uf`; `tried`
after `registerFile`. -/
structure Registration where
  uf : UnregisteredFile
  serial : ℕ
  tried : Bool

/-- The registry, the `File` objects, the registrations in progress and the process's
descriptors. -/
structure Descriptors where
  registry : Registry
  objects : List FileObject
  registrations : Table ℕ Registration
  os : FdTable

namespace Descriptors

def init : Descriptors := ⟨.init, [], ∅, .empty⟩

/-- The descriptors that the library has opened, with the serial numbers of the opens, as
the `UnregisteredFile`s and `File`s own them. -/
def owners (d : Descriptors) : List (ℤ × ℕ) :=
  (d.objects.flatMap fun f => f.members.owned f.serial) ++
    (Table.values d.registrations).flatMap fun r => r.uf.members.owned r.serial

/-- The system's answers: `fcntl` tells the flags of an open descriptor, and `open` gives
a number that is not in use. -/
def Answers (os : FdTable) (calls : FileCalls) (fd : ℤ) : Bool :=
  match calls.fcntl with
  | .error _ => true
  | .ok flags =>
    decide ((os.entries fd).map HandleEntry.data = some flags) &&
      match calls.openFd (UnregisteredFile.openFlags flags) with
      | .error _ => true
      | .ok n => decide (0 ≤ n) && decide (os.entries n = none)

/-- The destruction of the objects that are not alive. -/
def destroyDead (registry : Registry) : List FileObject → FdTable → List FileObject × FdTable
  | [], os => ([], os)
  | f :: fs, os =>
    if registry.Alive (.file f.handle) then
      let r := destroyDead registry fs os
      (f :: r.1, r.2)
    else destroyDead registry fs (f.members.destroy os)

/-- A step of the registry, at the end of which the objects without references are gone. -/
def enter (d : Descriptors) (registry : Registry) : Descriptors :=
  let r := destroyDead registry d.objects d.os
  { d with registry := registry, objects := r.1, os := r.2 }

/-- The steps of `hipFileHandleRegister`, the other steps of the registry, and what the
client does with descriptors of its own. -/
inductive Step
  | construct (t : ℕ) (calls : FileCalls) (fd : ℤ)
  | register (t handle : ℕ)
  | leave (t : ℕ)
  | registry (l : Registry.Step)
  | clientOpen (fd : ℤ) (flags : ℕ)
  | clientClose (fd : ℤ)

/-- One step, if it can be made. -/
def step (d : Descriptors) : Step → Option Descriptors
  | .construct t calls fd =>
    if (d.registrations.lookup t).isNone ∧ Answers d.os calls fd = true then
      match UnregisteredFile.build calls fd d.os with
      | (.error _, os) => some { d with os := os }
      | (.ok uf, os) => some { d with
          os := os
          registrations := d.registrations.insert t ⟨uf, d.os.nextSerial, false⟩ }
    else none
  | .register t handle =>
    match d.registrations.lookup t with
    | none => none
    | some r =>
      if r.tried ∨ d.registry.Alive (.file handle) then none
      else
        match d.registry.registerFile r.uf handle with
        | (.error _, registry) => some { d with
            registry := registry
            registrations := d.registrations.insert t { r with tried := true } }
        | (.ok fh, registry) => some { d with
            registry := registry
            objects := ⟨fh, r.uf.members, r.uf.flags, r.serial⟩ :: d.objects
            registrations :=
              d.registrations.insert t { r with uf := r.uf.movedFrom, tried := true } }
  | .leave t =>
    match d.registrations.lookup t with
    | none => none
    | some r =>
      if r.tried then some { d with
        os := r.uf.members.destroy d.os
        registrations := d.registrations.erase t }
      else none
  | .registry l =>
    match l with
    -- files are registered by `register`, which moves their descriptors
    | .registerFile _ _ => none
    | l => (d.registry.step l).map d.enter
  | .clientOpen fd flags =>
    if 0 ≤ fd ∧ d.os.entries fd = none then some { d with os := d.os.openForeign fd flags }
    else none
  | .clientClose fd =>
    if (d.os.entries fd).any (·.owner = .foreign) = true then
      some { d with os := d.os.closeForeign fd }
    else none

/-- **The descriptors under any threads.** -/
def machine : Machine Descriptors Step := ⟨init, step⟩

end Descriptors

end HipFile
