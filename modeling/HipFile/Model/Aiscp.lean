import HipFile.Lib.Held
import HipFile.Lib.Loop
import HipFile.Model.Requests

/-!
# `aiscp`

The copy program: it reads SOURCE into a device buffer, chunk by chunk, and writes the buffer
to DEST. All transfers are of whole blocks, so that the last one may write beyond the end, and
DEST is cut to the size of SOURCE afterwards.

The two paths may name the same inode, and a DEST that does not exist counts as an empty file. A
call finds its file through the descriptor or the handle that it is given. Only the descriptors of
the program are in the table: those that the library opens for a registered file are of the inode
of the registered descriptor, through `/proc/self/fd`. No other process changes the files.

`Host` gives the outcomes of the calls that the program makes, by the number of calls made
before. Messages are left out.
-/

namespace HipFile.Aiscp

open Bytes

/-- `AISCP_CHUNK_SIZE` -/
def AISCP_CHUNK_SIZE : ℕ := 0x7ffff000

/-- `align_up` -/
def alignUp (value align : ℕ) : ℕ :=
  (value + align - 1) % wordModulus &&& (wordModulus - 1 - (align - 1))

/-- `is_power_of_two` -/
def isPowerOfTwo (value : ℕ) : Bool := 0 < value ∧ value &&& (value - 1) = 0

/-! ## Calls -/

inductive Side
  | src
  | dst
  deriving DecidableEq, Repr

/-- `st_size` and `st_blksize` -/
structure StatBuf where
  stSize : ℤ
  stBlksize : ℤ

/-- The arguments of `hipFileRead` and `hipFileWrite`. -/
structure IoArgs where
  fh : ℕ
  bufferBase : ℕ
  size : ℕ
  fileOffset : ℤ
  bufferOffset : ℤ

/-- What `hipFileRead` and `hipFileWrite` return, and what they leave. -/
structure IoOutcome where
  ret : ℤ
  file : FileData
  dev : Mem

/-- The open descriptors, with their inodes. -/
abbrev FdTable := ℤ → Option ℕ

/-- At most one file is registered. -/
def AtMostOne (files : FileMap) : Prop := ∃ fh, ∀ fh' ≠ fh, files.fromFh fh' = none

/-- The outcomes of the calls; a number is that of the calls made before. `inode` is that of the
path, and `fileCalls` what the library finds when it looks at a descriptor. A descriptor that is
opened was not open, and the address of a new `File` is that of no other, which is asked for only
while at most one is registered. -/
structure Host where
  stat : Option StatBuf
  inode : Side → ℕ
  openFd : ℕ → Side → FdTable → Option ℤ
  openFd_free : ∀ {i side fds fd}, openFd i side fds = some fd → fds fd = none
  fileCalls : ℕ → FileCalls
  newFile : ℕ → DriverState → ℕ
  newFile_free : ∀ i driver, AtMostOne driver.fileMap →
    newFile i driver ≠ 0 ∧ driver.fileMap.fromFh (newFile i driver) = none
  close : ℕ → ℤ → Bool
  hipMalloc : ℕ → ℕ → Option ℕ
  hipFree : ℕ → ℕ → Bool
  hipFileIo : ℕ → DriverState → IoType → IoArgs → FileData → Mem → IoOutcome
  ftruncate : ℕ → ℤ → ℕ → Bool

/-- The calls of the program, with their outcomes. -/
inductive Call
  | stat (ret : Bool)
  | openFd (side : Side) (ret : Option ℤ)
  | hipFileHandleRegister (fd : ℤ) (ret : Option ℕ)
  | hipFileHandleDeregister (fh : ℕ) (done : Bool)
  | close (fd : ℤ) (ret : Bool)
  | hipMalloc (size : ℕ) (ret : Option ℕ)
  | hipFree (devbuf : ℕ) (ret : Bool)
  | hipFileIo (type : IoType) (args : IoArgs) (ret : ℤ)
  | ftruncate (fd : ℤ) (size : ℕ) (ret : Bool)

/-- The files, by their inodes, the open descriptors, the state of the library, the device memory,
and the calls made. -/
structure State where
  files : ℕ → FileData
  fds : FdTable
  driver : DriverState
  dev : Mem
  trace : List Call

/-- What the program starts with. -/
def State.start (files : ℕ → FileData) (fds : FdTable) (dev : Mem) : State :=
  ⟨files, fds, .init, dev, []⟩

def State.calls (s : State) : ℕ := s.trace.length

def State.log (s : State) (c : Call) : State := { s with trace := s.trace ++ [c] }

/-- The inode of the file that is registered under a handle. -/
def State.inode (s : State) (fh : ℕ) : Option ℕ :=
  (s.driver.fileMap.fromFh fh).bind fun file => s.fds file.clientFd

def noFile : FileData := ⟨fun _ => 0, 0, fun _ _ => rfl⟩

/-- Cut a file, or extend it with zeros. -/
def truncate (file : FileData) (n : ℕ) : FileData where
  data i := if i < n then file.data i else 0
  eof := n
  hole _ hi := if_neg (by omega)

/-- A file that is open and registered. -/
structure OpenFile where
  fd : ℤ
  handle : ℕ

/-- `close`, which gives the descriptor up also where it reports an error. -/
def close (host : Host) (fd : ℤ) (s : State) : Bool × State :=
  let ret := host.close s.calls fd
  (ret, { s with fds := Function.update s.fds fd none }.log (.close fd ret))

/-- `hipFileHandleRegister`, with `*fh` if it succeeds. -/
def hipFileHandleRegister (host : Host) (fd : ℤ) (s : State) : Option ℕ × State :=
  let r := HipFile.hipFileHandleRegister (host.fileCalls s.calls) (host.newFile s.calls s.driver)
    false (some ⟨.opaqueFD, fd⟩) s.driver
  let fh := if r.1.err = .success then r.2.1 else none
  (fh, { s with driver := r.2.2 }.log (.hipFileHandleRegister fd fh))

/-- `hipFileHandleDeregister` of a file that no request uses. It does not tell whether it has
deregistered a file. -/
def hipFileHandleDeregister (fh : ℕ) (s : State) : State :=
  if fh = 0 then s.log (.hipFileHandleDeregister fh false)
  else
    match DriverState.deregisterFile fh 2 s.driver with
    | (.ok _, driver) => { s with driver := driver }.log (.hipFileHandleDeregister fh true)
    -- the `catch` clause returns as if nothing had happened
    | (.error _, driver) => { s with driver := driver }.log (.hipFileHandleDeregister fh false)

/-- `open_file` -/
def openFile (host : Host) (side : Side) (s : State) : Option OpenFile × State :=
  match host.openFd s.calls side s.fds with
  | none => (none, s.log (.openFd side none))
  | some fd =>
    let s := { s with fds := Function.update s.fds fd (some (host.inode side)) }.log
      (.openFd side (some fd))
    match hipFileHandleRegister host fd s with
    | (some handle, s) => (some ⟨fd, handle⟩, s)
    -- whether this `close` fails is not looked at
    | (none, s) => (none, (close host fd s).2)

/-- `close_file`, and whether it has succeeded. -/
def closeFile (host : Host) (file : OpenFile) (s : State) : Bool × State :=
  close host file.fd (hipFileHandleDeregister file.handle s)

/-- `hipFileRead` and `hipFileWrite`, on the file of the handle. Without one, they get an empty
file, of which nothing is kept. -/
def hipFileIo (host : Host) (type : IoType) (args : IoArgs) (s : State) : ℤ × State :=
  let inode := s.inode args.fh
  let r := host.hipFileIo s.calls s.driver type args (inode.elim noFile s.files) s.dev
  let files := inode.elim s.files fun i => Function.update s.files i r.file
  (r.ret, { s with files := files, dev := r.dev }.log (.hipFileIo type args r.ret))

def hipFileRead (host : Host) (args : IoArgs) (s : State) : ℤ × State := hipFileIo host .read args s

def hipFileWrite (host : Host) (args : IoArgs) (s : State) : ℤ × State :=
  hipFileIo host .write args s

/-- `ftruncate` -/
def ftruncate (host : Host) (fd : ℤ) (size : ℕ) (s : State) : Bool × State :=
  match s.fds fd with
  | none => (false, s.log (.ftruncate fd size false))
  | some i =>
    let ret := host.ftruncate s.calls fd size
    let s := s.log (.ftruncate fd size ret)
    (ret, if ret then
      { s with files := Function.update s.files i (truncate (s.files i) size) } else s)

/-! ## The copy loop -/

/-- What the loop reads of `main`. -/
structure Job where
  src : OpenFile
  dst : OpenFile
  devbuf : ℕ
  bufferSize : ℕ
  blockSize : ℕ

/-- A round of the inner loop: the state and `nwrite`, or whether the chunk is written. -/
def writeRound (host : Host) (job : Job) (fileOffset nread : ℤ) (s : State × ℤ) :
    State × ℤ ⊕ Bool × State :=
  let (s, nwrite) := s
  if nwrite < nread then
    let (nbytes, s) := hipFileWrite host ⟨job.dst.handle, job.devbuf,
      alignUp (toSizeT (nread - nwrite)) job.blockSize, fileOffset + nwrite, nwrite⟩ s
    if nbytes < 0 then .inr (false, s) else .inl (s, nwrite + nbytes)
  else .inr (true, s)

/-- A round of the outer loop: the state and `file_offset`, or whether the file is copied. The
result is `none` where the inner loop is still running after `rounds` rounds. -/
def readRound (host : Host) (job : Job) (rounds : ℕ) (s : State × ℤ) :
    State × ℤ ⊕ Option Bool × State :=
  let (s, fileOffset) := s
  let (nread, s) := hipFileRead host ⟨job.src.handle, job.devbuf, job.bufferSize, fileOffset, 0⟩ s
  if nread < 0 then .inr (some false, s)
  else
    match Loop.iter (writeRound host job fileOffset nread) rounds (s, 0) with
    | .inl (s, _) => .inr (none, s)
    | .inr (false, s) => .inr (some false, s)
    | .inr (true, s) => if 0 < nread then .inl (s, fileOffset + nread) else .inr (some true, s)

/-- The outer loop: whether the file is copied, or `none` while it is running. -/
def copy (host : Host) (job : Job) (rounds : ℕ) (s : State) : Option Bool × State :=
  match Loop.iter (readRound host job rounds) rounds (s, 0) with
  | .inl (s, _) => (none, s)
  | .inr r => r

/-! ## `main` -/

inductive ExitStatus
  | success
  | failure
  deriving DecidableEq, Repr

/-- From the label `close_dst`. -/
def closeDst (host : Host) (dst : OpenFile) (status : ExitStatus) (s : State) :
    ExitStatus × State :=
  let (ok, s) := closeFile host dst s
  (if ok then status else .failure, s)

/-- From the label `close_src`. -/
def closeSrc (host : Host) (src dst : OpenFile) (status : ExitStatus) (s : State) :
    ExitStatus × State :=
  let (ok, s) := closeFile host src s
  closeDst host dst (if ok then status else .failure) s

/-- From the label `free_devbuf`. -/
def freeDevbuf (host : Host) (job : Job) (status : ExitStatus) (s : State) : ExitStatus × State :=
  let ok := host.hipFree s.calls job.devbuf
  let s := s.log (.hipFree job.devbuf ok)
  closeSrc host job.src job.dst (if ok then status else .failure) s

/-- `main`, from the allocation of the device buffer. The status is `none` while it is running. -/
def copyFile (host : Host) (rounds fileSize blockSize : ℕ) (src dst : OpenFile) (s : State) :
    Option ExitStatus × State :=
  let bufferSize := alignUp (min fileSize AISCP_CHUNK_SIZE) blockSize
  let malloc := host.hipMalloc s.calls bufferSize
  let s := s.log (.hipMalloc bufferSize malloc)
  match malloc with
  | none => (closeSrc host src dst .failure s).map some id
  | some devbuf =>
    let job : Job := ⟨src, dst, devbuf, bufferSize, blockSize⟩
    match copy host job rounds s with
    | (none, s) => (none, s)
    | (some false, s) => (freeDevbuf host job .failure s).map some id
    | (some true, s) =>
      -- a failure to truncate is reported, and is not a failure of the program
      let (_, s) := ftruncate host dst.fd fileSize s
      (freeDevbuf host job .success s).map some id

/-- `main` -/
def main (host : Host) (rounds argc : ℕ) (s : State) : Option ExitStatus × State :=
  if argc ≠ 3 then (some .failure, s)
  else
    let stat := host.stat
    let s := s.log (.stat stat.isSome)
    match stat with
    | none => (some .failure, s)
    | some statbuf =>
      let fileSize := toSizeT statbuf.stSize
      let blockSize := toSizeT statbuf.stBlksize
      if isPowerOfTwo blockSize then
        match openFile host .dst s with
        | (none, s) => (some .failure, s)
        | (some dst, s) =>
          if fileSize = 0 then (closeDst host dst .success s).map some id
          else
            match openFile host .src s with
            | (none, s) => (closeDst host dst .failure s).map some id
            | (some src, s) => copyFile host rounds fileSize blockSize src dst s
      else (some .failure, s)

/-! ## The library -/

/-- The hipFile that the program is linked to: what each of its calls finds, and the budget of
rounds that it gets. -/
structure Library where
  process : Process
  queries : ℕ → HipQueries
  sys : ℕ → Sys
  hip : ℕ → HipIo
  hipInited : ℕ → Bool
  rounds : ℕ → ℕ

/-- The request that a call of the program makes. -/
def Library.request (lib : Library) (i : ℕ) (driver : DriverState) (type : IoType) (args : IoArgs)
    (file : FileData) (dev : Mem) : SyncRequest :=
  ⟨type, args.fh, args.bufferBase, args.size, args.fileOffset, args.bufferOffset, driver,
    lib.queries i, lib.sys i, lib.hip i, file, dev, lib.hipInited i⟩

/-- A host whose `hipFileRead` and `hipFileWrite` are those of the library. -/
def Host.linked (host : Host) (lib : Library) : Host :=
  { host with
    hipFileIo := fun i driver type args file dev =>
      let r := (lib.request i driver type args file dev).serve lib.process (lib.rounds i)
      ⟨r.1.ret, r.2.world.file, r.2.world.dev⟩ }

end HipFile.Aiscp
