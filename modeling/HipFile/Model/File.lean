import Mathlib.Logic.Function.Basic
import HipFile.Lib.Prog
import HipFile.Model.Io

/-!
# Files and the file map

`UnregisteredFile.construct` is the constructor of `UnregisteredFile`, from the
outcomes of the calls it makes; `File.construct` is the constructor of `File`,
whose address is the handle.
-/

namespace HipFile

/-- `FileDescriptor`: a managed descriptor is closed when it is destroyed. -/
structure FileDescriptor where
  fd : ℤ
  managed : Bool
  deriving DecidableEq, Repr

/-- `FilesystemType` with, for ext4, the journaling mode. -/
inductive ExtJournalingMode
  | journal | ordered | writeback | unknown
  deriving DecidableEq, Repr

/-- `MountInfo` -/
inductive MountInfo
  | ext4 (journalingMode : ExtJournalingMode)
  | xfs
  | other
  deriving DecidableEq, Repr

/-- What the code reads of a `struct statx`. -/
structure Statx where
  stxMask : ℕ
  stxMode : ℕ
  stxDioMemAlign : ℕ
  stxDioOffsetAlign : ℕ
  deriving DecidableEq, Repr

def STATX_TYPE : ℕ := 0x1
def STATX_DIOALIGN : ℕ := 0x2000
def S_IFMT : ℕ := 0xf000
def S_IFBLK : ℕ := 0x6000
def S_IFREG : ℕ := 0x8000
def O_DIRECT : ℕ := 0x4000
def O_CLOEXEC : ℕ := 0x80000

/-- The outcomes of the calls that the constructor of `UnregisteredFile` makes. -/
structure FileCalls where
  statx : Except Errno Statx
  fcntl : Except Errno ℕ
  getMountInfo : Except Exn (Option MountInfo)
  openFd : ℕ → Except Errno ℤ

/-- `UnregisteredFile` -/
structure UnregisteredFile where
  clientFd : FileDescriptor
  bufferedFd : FileDescriptor
  unbufferedFd : Option FileDescriptor
  stx : Statx
  flags : ℕ
  mountinfo : Option MountInfo
  dioMemAlign : ℕ
  dioOffsetAlign : ℕ
  deriving DecidableEq, Repr

/-- `flags & ~O_DIRECT`, for a 32-bit `int`. -/
def clearDirect (flags : ℕ) : ℕ := flags &&& (2 ^ 32 - 1 - O_DIRECT)

/-- `UnregisteredFile::UnregisteredFile`, where `STATX_DIOALIGN` is defined. -/
def UnregisteredFile.construct (calls : FileCalls) (fd : ℤ) : Except Exn UnregisteredFile :=
  match calls.statx with
  | .error e => .error (.systemError e)
  | .ok stx =>
  match calls.fcntl with
  | .error e => .error (.systemError e)
  | .ok flags =>
  match calls.getMountInfo with
  | .error e => .error e
  | .ok mountinfo =>
    let client : FileDescriptor := ⟨fd, false⟩
    let memAlign := if stx.stxMask &&& STATX_DIOALIGN ≠ 0 then stx.stxDioMemAlign else 4096
    let offsetAlign := if stx.stxMask &&& STATX_DIOALIGN ≠ 0 then stx.stxDioOffsetAlign else 4096
    if flags &&& O_DIRECT ≠ 0 then
      match calls.openFd (clearDirect (flags ||| O_CLOEXEC)) with
      | .error e => .error (.systemError e)
      | .ok buffered =>
        .ok ⟨client, ⟨buffered, true⟩, some client, stx, flags, mountinfo, memAlign, offsetAlign⟩
    else
      match calls.openFd ((flags ||| O_CLOEXEC) ||| O_DIRECT) with
      | .error e =>
        -- the file system has no direct IO: the file is used without it
        if e ≠ EINVAL then .error (.systemError e)
        else .ok ⟨client, client, none, stx, flags, mountinfo, 0, 0⟩
      | .ok unbuffered =>
        .ok ⟨client, client, some ⟨unbuffered, true⟩, stx, flags, mountinfo, memAlign, offsetAlign⟩

/-- `File::File`, of an object at the address `handle`. -/
def File.construct (handle : ℕ) (uf : UnregisteredFile) : IFile where
  handle := handle
  clientFd := uf.clientFd.fd
  bufferedFd := uf.bufferedFd.fd
  unbufferedFd := uf.unbufferedFd.map FileDescriptor.fd
  dioMemAlign := uf.dioMemAlign
  dioOffsetAlign := uf.dioOffsetAlign
  isBlockDevice := uf.stx.stxMask &&& STATX_TYPE ≠ 0 ∧ uf.stx.stxMode &&& S_IFMT = S_IFBLK
  isRegularFile := uf.stx.stxMask &&& STATX_TYPE ≠ 0 ∧ uf.stx.stxMode &&& S_IFMT = S_IFREG
  onExt4Ordered := uf.mountinfo = some (.ext4 .ordered)
  onXfs := uf.mountinfo = some .xfs

/-- `FileMap` -/
structure FileMap where
  fromFd : ℤ → Option IFile
  fromFh : ℕ → Option IFile

namespace FileMap

/-- The map without files, as constructed and as `clear` leaves it. -/
def empty : FileMap := ⟨fun _ => none, fun _ => none⟩

/-- `FileMap::getFile` -/
def getFile (fh : ℕ) : Prog Exn FileMap IFile := fun m =>
  match m.fromFh fh with
  | none => (.error .fileNotRegistered, m)
  | some file => (.ok file, m)

/-- `FileMap::registerFile`, whose new `File` is at the address `handle`. -/
def registerFile (uf : UnregisteredFile) (handle : ℕ) : Prog Exn FileMap ℕ := fun m =>
  if (m.fromFd uf.clientFd.fd).isSome then (.error .fileAlreadyRegistered, m)
  else
    let file := File.construct handle uf
    (.ok file.handle, ⟨Function.update m.fromFd file.clientFd (some file),
      Function.update m.fromFh file.handle (some file)⟩)

/-- `FileMap::deregisterFile`, of a file with `useCount` references. -/
def deregisterFile (fh useCount : ℕ) : Prog Exn FileMap Unit := fun m =>
  match m.fromFh fh with
  | none => (.error .fileNotRegistered, m)
  | some file =>
    -- the two maps hold one reference each
    if 2 < useCount then (.error .fileOperationsOutstanding, m)
    else (.ok (), ⟨Function.update m.fromFd file.clientFd none, Function.update m.fromFh fh none⟩)

/-- A failed registration is of a descriptor that is in the map, and leaves the map
as it was. -/
theorem registerFile_error {uf : UnregisteredFile} {handle : ℕ} {m m' : FileMap} {e : Exn}
    (h : registerFile uf handle m = (.error e, m')) :
    (m.fromFd uf.clientFd.fd).isSome ∧ m' = m := by
  unfold registerFile at h
  split at h
  · rename_i hfd
    cases h
    exact ⟨hfd, rfl⟩
  · cases h

end FileMap

end HipFile
