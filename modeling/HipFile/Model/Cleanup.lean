import HipFile.Lib.Noexcept
import HipFile.Model.BackendWithFallback
import HipFile.Model.Descriptors

/-!
# Destructors

What the library closes and unmaps, with the outcomes of `close(2)` and `munmap(2)`. Both are
called through wrappers that throw, and from destructors, a `noexcept` assignment and the
deleter of a `unique_ptr`, which must not.

* `UnregisteredFile.constructor`: the constructor, with its assignments and its unwinding.
* `Descriptors.cleaningStep`: the steps on descriptors.
* `Fallback.cleaningIoImpl`: `_io_impl` with the deleter of its bounce buffer.
-/

namespace HipFile

/-- The outcomes of `close(2)`, by the descriptor, and of `munmap(2)`, for one step. -/
structure ReleaseCalls where
  close : ℤ → Except Errno Unit
  munmap : Except Errno Unit

/-- `throwOn(-1, …)` -/
def throwOn {α : Type} (out : Except Errno α) : Except Exn α := out.mapError Exn.systemError

/-- `Sys::close`. The descriptor is gone, also where `close(2)` reports an error. -/
def Sys.close (calls : ReleaseCalls) (fd : ℤ) : Prog Exn FdTable Unit := fun os =>
  (throwOn (calls.close fd), os.closeOwn fd)

/-- `Sys::munmap`, of memory that only the caller has -/
def Sys.munmap (calls : ReleaseCalls) : Prog Exn World Unit := fun w => (throwOn calls.munmap, w)

/-! ## Descriptors -/

/-- A program on the descriptors of a process that it may terminate. -/
abbrev Cleaning := Prog Exn (Mortal Exn FdTable)

namespace FileDescriptor

variable (calls : ReleaseCalls)

/-- `if (m_managed && m_fd != -1) { close(m_fd); }` -/
def release (d : FileDescriptor) : Prog Exn FdTable Unit :=
  if d.Owns then Sys.close calls d.fd else pure ()

/-- `FileDescriptor::~FileDescriptor` -/
def destructor (d : FileDescriptor) : Cleaning Unit := Prog.noexcept (d.release calls)

/-- `FileDescriptor::operator=(FileDescriptor &&) noexcept`: the two objects afterwards. -/
def moveAssignment (d other : FileDescriptor) : Cleaning (FileDescriptor × FileDescriptor) :=
  Prog.noexcept do
    d.release calls
    return (other, empty)

/-- The assignment of a temporary, which is destroyed at its end. -/
def assignTemporary (d temporary : FileDescriptor) : Cleaning FileDescriptor := do
  let (d, temporary) ← d.moveAssignment calls temporary
  temporary.destructor calls
  return d

/-- The assignment of a temporary to a `std::optional`. -/
def assignTemporaryOptional (d : Option FileDescriptor) (temporary : FileDescriptor) :
    Cleaning FileDescriptor := do
  match d with
  | some d => d.assignTemporary calls temporary
  | none =>
    empty.destructor calls
    return temporary

end FileDescriptor

/-- The destructors of the members. -/
def FileMembers.destructor (calls : ReleaseCalls) (m : FileMembers) : Cleaning Unit :=
  forM m.descriptors fun d => d.destructor calls

/-- An exception that leaves a constructor. -/
def FileMembers.unwind {α : Type} (calls : ReleaseCalls) (m : FileMembers) (e : Exn) :
    Cleaning α := do
  m.destructor calls
  Prog.throw e

/-- `UnregisteredFile::UnregisteredFile` -/
def UnregisteredFile.constructor (calls : ReleaseCalls) (file : FileCalls) (fd : ℤ) :
    Cleaning UnregisteredFile :=
  let members : FileMembers := ⟨.makeUnmanaged fd, .empty, none⟩
  match file.statx with
  | .error e => members.unwind calls (.systemError e)
  | .ok stx =>
  match file.fcntl with
  | .error e => members.unwind calls (.systemError e)
  | .ok flags =>
  match file.getMountInfo with
  | .error e => members.unwind calls e
  | .ok mountinfo =>
    let memAlign := if stx.stxMask &&& STATX_DIOALIGN ≠ 0 then stx.stxDioMemAlign else 4096
    let offsetAlign := if stx.stxMask &&& STATX_DIOALIGN ≠ 0 then stx.stxDioOffsetAlign else 4096
    if flags &&& O_DIRECT ≠ 0 then do
      let unbuffered ←
        FileDescriptor.assignTemporaryOptional calls members.unbufferedFd (.makeUnmanaged fd)
      let members := { members with unbufferedFd := some unbuffered }
      match file.openFd (clearDirect (flags ||| O_CLOEXEC)) with
      | .error e => members.unwind calls (.systemError e)
      | .ok n =>
        Prog.living (Prog.update fun os => os.openOwn n (clearDirect (flags ||| O_CLOEXEC)))
        let buffered ← members.bufferedFd.assignTemporary calls (.makeManaged n)
        return ⟨members.clientFd, buffered, members.unbufferedFd, stx, flags, mountinfo,
          memAlign, offsetAlign⟩
    else do
      let buffered ← members.bufferedFd.assignTemporary calls (.makeUnmanaged fd)
      let members := { members with bufferedFd := buffered }
      match file.openFd ((flags ||| O_CLOEXEC) ||| O_DIRECT) with
      | .error e =>
        if e ≠ EINVAL then members.unwind calls (.systemError e)
        else return ⟨members.clientFd, members.bufferedFd, none, stx, flags, mountinfo, 0, 0⟩
      | .ok n =>
        Prog.living (Prog.update fun os => os.openOwn n ((flags ||| O_CLOEXEC) ||| O_DIRECT))
        let unbuffered ←
          FileDescriptor.assignTemporaryOptional calls members.unbufferedFd (.makeManaged n)
        return ⟨members.clientFd, members.bufferedFd, some unbuffered, stx, flags, mountinfo,
          memAlign, offsetAlign⟩

/-! ## Steps -/

namespace Descriptors

variable (calls : ReleaseCalls)

/-- The destructors of the objects that are not alive; those that are alive remain. -/
def destructDead (registry : Registry) : List FileObject → Cleaning (List FileObject)
  | [] => pure []
  | f :: fs =>
    if registry.Alive (.file f.handle) then do
      let fs ← destructDead registry fs
      return f :: fs
    else do
      f.members.destructor calls
      destructDead registry fs

/-- A step of the registry, at the end of which the objects without references are gone. -/
def cleaningEnter (d : Descriptors) (registry : Registry) : Mortal Exn Descriptors := do
  let r := destructDead calls registry d.objects (.ok d.os)
  let objects ← r.1
  let os ← r.2
  return { d with registry := registry, objects := objects, os := os }

/-- One step, if it can be made. -/
def cleaningStep (d : Descriptors) : Step → Option (Mortal Exn Descriptors)
  | .construct t file fd =>
    if (d.registrations.lookup t).isNone ∧ Answers d.os file fd = true then
      match UnregisteredFile.constructor calls file fd (.ok d.os) with
      | (_, .error e) => some (.error e)
      | (.error _, .ok os) => some (.ok { d with os := os })
      | (.ok uf, .ok os) => some (.ok { d with
          os := os
          registrations := d.registrations.insert t ⟨uf, d.os.nextSerial, false⟩ })
    else none
  | .leave t =>
    match d.registrations.lookup t with
    | none => none
    | some r =>
      if r.tried then some do
        let os ← (r.uf.members.destructor calls (.ok d.os)).2
        return { d with os := os, registrations := d.registrations.erase t }
      else none
  | .registry l =>
    match l with
    | .registerFile _ _ => none
    | l => (d.registry.step l).map (d.cleaningEnter calls)
  -- nothing is destroyed: the `File` takes the descriptors over
  | .register t handle => (d.step (.register t handle)).map .ok
  | .clientOpen fd flags => (d.step (.clientOpen fd flags)).map .ok
  | .clientClose fd => (d.step (.clientClose fd)).map .ok

end Descriptors

/-! ## The bounce buffer -/

/-- `Fallback::_io_impl`, allowed `rounds` rounds of its loop. The deleter of the bounce buffer
is called on the way out, also by an exception. -/
def Fallback.cleaningIoImpl (env : Env) (calls : ReleaseCalls) (rounds : ℕ) (type : IoType)
    (file : IFile) (buffer : IBuffer) (size : ℕ) (fileOffset bufferOffset : ℤ) (chunkSize : ℕ)
    (w : World) : LoopState ⊕ (Except Exn ℕ × Mortal Exn World) :=
  match accept env buffer size fileOffset bufferOffset with
  | .error e => .inr (.error e, .ok w)
  | .ok region =>
    match w.mmap env.sys with
    | (.error e, w) => .inr (.error (.systemError e), .ok w)
    | (.ok _, w) =>
      let deleter := Sys.munmap calls
      match Loop.iter (round env file type buffer region.size fileOffset bufferOffset chunkSize)
          rounds ⟨w, fun _ => 0, 0⟩ with
      | .inl s => .inl s
      | .inr (.ok total, w) => .inr
          (Prog.leaveScope deleter (.ok total, .ok (w.statsAddFallbackPath env.config type total)))
      | .inr (.error e, w) => .inr (Prog.leaveScope deleter (.error e, .ok w))

/-- The fallback with `Backend::io`. Out of rounds, the request is still running. -/
def Fallback.cleaningBackend (env : Env) (calls : ReleaseCalls) (rounds : ℕ) :
    Backend (Mortal Exn Served) where
  score _ buffer _ _ _ := Fallback.score env buffer
  io type file buffer size fileOffset bufferOffset s :=
    match s with
    | .error e => (.error e, .error e)
    | .ok v =>
      match Fallback.cleaningIoImpl env calls rounds type file buffer size fileOffset bufferOffset
          DefaultChunkSize v.world with
      | .inl s => (.error (.runtimeError ""), .ok { v.after s.world with running := true })
      | .inr (.ok n, w) => (.ok n, w.map fun w => { v.after w with path := some .fallbackPath })
      | .inr (.error e, w) => (.error e, w.map v.after)

/-- `Fastpath`, with the fallback registered. -/
def Fastpath.cleaningBackend (env : Env) (fallbackBackend : Backend (Mortal Exn Served)) :
    BackendWithFallback (Mortal Exn Served) where
  score := Fastpath.score env
  ioImpl type file buffer size fileOffset bufferOffset :=
    Prog.living (Fastpath.serve env type file buffer size fileOffset bufferOffset)
  isFallbackEligible := Fastpath.isFallbackEligible
  fallbackBackend := some fallbackBackend

/-- `DriverState::getBackends` -/
def cleaningBackends (env : Env) (calls : ReleaseCalls) (rounds : ℕ) :
    List (Backend (Mortal Exn Served)) :=
  let fallbackBackend := Fallback.cleaningBackend env calls rounds
  [fallbackBackend, (Fastpath.cleaningBackend env fallbackBackend).toBackend]

end HipFile
