import Mathlib.Algebra.Order.Group.Abs
import HipFile.Lib.Bytes
import HipFile.Model.Io

/-!
# Files, device memory and the calls that move bytes

The kernel and the HIP runtime are parameters: `Sys` and `HipIo` give the outcome
of every call from the number of calls made before it and its arguments, so that
a theorem for all of them is a theorem for every sequence of outcomes. The data
that a successful call moves is fixed by what the call is: `pread` copies file
bytes, `pwrite` changes file bytes, `hipMemcpy` copies between host and device.

`World` is one file, the device memory, the byte counters and the calls made.
-/

namespace HipFile

open Bytes

/-- A byte memory. -/
abbrev Mem := ℕ → UInt8

/-- The content of a file: bytes up to `eof`, and zeros beyond, which is what a
write past the end leaves in the hole. -/
structure FileData where
  data : Mem
  eof : ℕ
  hole : ∀ i, eof ≤ i → data i = 0

/-- A file is its bytes and its end. -/
theorem FileData.ext_of {f g : FileData} (hdata : f.data = g.data) (heof : f.eof = g.eof) :
    f = g := by
  cases f
  cases g
  simp only at hdata heof
  subst hdata heof
  rfl

/-- Write `n` bytes of `s` from `f` at offset `a`. A write of nothing does not
extend the file. -/
def FileData.write (file : FileData) (a : ℕ) (s : Mem) (f n : ℕ) : FileData where
  data := splice file.data a s f n
  eof := if n = 0 then file.eof else max file.eof (a + n)
  hole i hi := by
    have h : file.eof ≤ i ∧ (n = 0 ∨ a + n ≤ i) := by split at hi <;> omega
    rw [splice_outside _ _ _ (by omega)]
    exact file.hole i h.1

@[simp] theorem FileData.write_data (file : FileData) (a : ℕ) (s : Mem) (f n : ℕ) :
    (file.write a s f n).data = splice file.data a s f n := rfl

/-- The calls that hipFile makes on behalf of a request, with their outcomes. -/
inductive Event
  | mmap (ret : Except Errno Unit)
  | pread (fd : ℤ) (count : ℕ) (offset : ℤ) (ret : Except Errno ℕ)
  | pwrite (fd : ℤ) (count : ℕ) (offset : ℤ) (ret : Except Errno ℕ)
  | fdatasync (fd : ℤ) (ret : Except Errno Unit)
  | hipMemcpy (ret : Except HipError Unit)
  | hipStreamSynchronize (ret : Except HipError Unit)
  | hipInit (ret : Except HipError Unit)
  | hipAmdFile (type : IoType) (fd : ℤ) (devicePtr size : ℕ) (offset : ℤ)

/-- The outcomes of the system calls, by the number of calls made before. The
kernel never transfers more than it was asked to. -/
structure Sys where
  mmap : ℕ → Except Errno Unit
  pread : ℕ → ℕ → ℤ → Except Errno ℕ
  pwrite : ℕ → ℕ → ℤ → Except Errno ℕ
  fdatasync : ℕ → Except Errno Unit
  pread_le : ∀ {i count offset n}, pread i count offset = .ok n → n ≤ count
  pwrite_le : ∀ {i count offset n}, pwrite i count offset = .ok n → n ≤ count

/-- What the HIP runtime's `hipAmdFileRead`, `hipAmdFileWrite` report, and the file
and device bytes they leave. -/
structure AmdFileResult where
  hipError : Option HipError
  status : ℤ
  nbytes : ℕ
  file : FileData
  dev : Mem

/-- The outcomes of the HIP calls of the synchronous backends. `hipAmdFile` is
`none` where the runtime does not have the function. -/
structure HipIo where
  hipMemcpy : ℕ → Except HipError Unit
  hipStreamSynchronize : ℕ → Except HipError Unit
  hipInit : ℕ → Except HipError Unit
  hipAmdFile : IoType → Option (ℕ → ℤ → ℕ → ℕ → ℤ → FileData → Mem → AmdFileResult)

/-- The settings that `Configuration` reads from the environment. -/
structure Configuration where
  fastpath : Bool
  fallback : Bool
  statsLevel : ℕ
  unsupportedFileSystems : Bool
  deriving DecidableEq, Repr

/-- The byte counters of `Stats`. -/
structure Stats where
  totalFastPathReadBytes : ℕ
  totalFastPathWriteBytes : ℕ
  totalFallbackPathReadBytes : ℕ
  totalFallbackPathWriteBytes : ℕ
  deriving DecidableEq, Repr

/-- One file, the device memory, the counters, the calls made so far, and the
calling thread's `hip_inited`. -/
structure World where
  file : FileData
  dev : Mem
  stats : Stats
  trace : List Event
  hipInited : Bool

namespace World

/-- The call number of the next call. -/
def calls (w : World) : ℕ := w.trace.length

/-- Record a call. -/
def log (w : World) (e : Event) : World := { w with trace := w.trace ++ [e] }

@[simp] theorem log_file (w : World) (e : Event) : (w.log e).file = w.file := rfl
@[simp] theorem log_dev (w : World) (e : Event) : (w.log e).dev = w.dev := rfl
@[simp] theorem log_trace (w : World) (e : Event) : (w.log e).trace = w.trace ++ [e] := rfl
@[simp] theorem log_calls (w : World) (e : Event) : (w.log e).calls = w.calls + 1 := by
  simp [calls]

/-- `Sys::pread` into the host buffer `buf` at `pos`. -/
def pread (w : World) (sys : Sys) (fd : ℤ) (buf : Mem) (pos count : ℕ) (offset : ℤ) :
    Except Errno ℕ × World × Mem :=
  let ret := sys.pread w.calls count offset
  let w' := w.log (.pread fd count offset ret)
  match ret with
  | .ok n => (ret, w', splice buf pos w.file.data offset.toNat n)
  | .error _ => (ret, w', buf)

/-- `Sys::pwrite` from the host buffer `buf` at `pos`. -/
def pwrite (w : World) (sys : Sys) (fd : ℤ) (buf : Mem) (pos count : ℕ) (offset : ℤ) :
    Except Errno ℕ × World :=
  let ret := sys.pwrite w.calls count offset
  let w' := w.log (.pwrite fd count offset ret)
  match ret with
  | .ok n => (ret, { w' with file := w.file.write offset.toNat buf pos n })
  | .error _ => (ret, w')

/-- `Sys::fdatasync` -/
def fdatasync (w : World) (sys : Sys) (fd : ℤ) : Except Errno Unit × World :=
  let ret := sys.fdatasync w.calls
  (ret, w.log (.fdatasync fd ret))

/-- `Sys::mmap` of a bounce buffer. -/
def mmap (w : World) (sys : Sys) : Except Errno Unit × World :=
  let ret := sys.mmap w.calls
  (ret, w.log (.mmap ret))

/-- `Hip::hipMemcpy` from the host buffer `buf` to the device address `dst`. -/
def hipMemcpyHostToDevice (w : World) (hip : HipIo) (dst : ℕ) (buf : Mem) (size : ℕ) :
    Except HipError Unit × World :=
  let ret := hip.hipMemcpy w.calls
  let w' := w.log (.hipMemcpy ret)
  match ret with
  | .ok _ => (ret, { w' with dev := splice w.dev dst buf 0 size })
  | .error _ => (ret, w')

/-- `Hip::hipMemcpy` from the device address `src` to the host buffer `buf`. -/
def hipMemcpyDeviceToHost (w : World) (hip : HipIo) (buf : Mem) (src size : ℕ) :
    Except HipError Unit × World × Mem :=
  let ret := hip.hipMemcpy w.calls
  let w' := w.log (.hipMemcpy ret)
  match ret with
  | .ok _ => (ret, w', splice buf 0 w.dev src size)
  | .error _ => (ret, w', buf)

/-- `Hip::hipStreamSynchronize` -/
def hipStreamSynchronize (w : World) (hip : HipIo) : Except HipError Unit × World :=
  let ret := hip.hipStreamSynchronize w.calls
  (ret, w.log (.hipStreamSynchronize ret))

/-- The `hip_inited` block of the fast path. -/
def hipInitOnce (w : World) (hip : HipIo) : Except HipError Unit × World :=
  if w.hipInited then (.ok (), w)
  else
    let ret := hip.hipInit w.calls
    let w' := w.log (.hipInit ret)
    match ret with
    | .ok _ => (ret, { w' with hipInited := true })
    | .error _ => (ret, w')

/-- The text of `Hip::SymbolNotFound`. -/
def hipAmdFileSymbol : IoType → String
  | .read => "Could not find hipAmdFileRead()"
  | .write => "Could not find hipAmdFileWrite()"

/-- `Hip::hipAmdFileRead`, `Hip::hipAmdFileWrite` -/
def hipAmdFile (w : World) (hip : HipIo) (type : IoType) (fd : ℤ) (devicePtr size : ℕ)
    (offset : ℤ) : Except Exn ℕ × World :=
  match hip.hipAmdFile type with
  | none => (.error (.symbolNotFound (hipAmdFileSymbol type)), w)
  | some call =>
    let r := call w.calls fd devicePtr size offset w.file w.dev
    let w' := w.log (.hipAmdFile type fd devicePtr size offset)
    -- bytes may have moved even where an error is reported
    let w' := { w' with file := r.file, dev := r.dev }
    if r.status ≠ 0 then (.error (.systemError |r.status|), w')
    else
      match r.hipError with
      | some e => (.error (.hipRuntimeError e), w')
      | none => (.ok r.nbytes, w')

/-- Change the counters, at the stats level `Basic` or above. -/
def addStats (w : World) (config : Configuration) (f : Stats → Stats) : World :=
  if 1 ≤ config.statsLevel then { w with stats := f w.stats } else w

@[simp] theorem addStats_file (w : World) (config : Configuration) (f : Stats → Stats) :
    (w.addStats config f).file = w.file := by unfold addStats; split <;> rfl

@[simp] theorem addStats_dev (w : World) (config : Configuration) (f : Stats → Stats) :
    (w.addStats config f).dev = w.dev := by unfold addStats; split <;> rfl

@[simp] theorem addStats_trace (w : World) (config : Configuration) (f : Stats → Stats) :
    (w.addStats config f).trace = w.trace := by unfold addStats; split <;> rfl

/-- `statsAddFallbackPathRead`, `statsAddFallbackPathWrite` -/
def statsAddFallbackPath (w : World) (config : Configuration) (type : IoType) (bytes : ℕ) : World :=
  w.addStats config fun st =>
    match type with
    | .read =>
      { st with
        totalFallbackPathReadBytes := (st.totalFallbackPathReadBytes + bytes) % wordModulus }
    | .write =>
      { st with
        totalFallbackPathWriteBytes := (st.totalFallbackPathWriteBytes + bytes) % wordModulus }

/-- `statsAddFastPathRead`, `statsAddFastPathWrite` -/
def statsAddFastPath (w : World) (config : Configuration) (type : IoType) (bytes : ℕ) : World :=
  w.addStats config fun st =>
    match type with
    | .read =>
      { st with totalFastPathReadBytes := (st.totalFastPathReadBytes + bytes) % wordModulus }
    | .write =>
      { st with totalFastPathWriteBytes := (st.totalFastPathWriteBytes + bytes) % wordModulus }

end World

/-- What a backend reads of the process: the page size, the settings, and the
outcomes of the calls it makes. -/
structure Env where
  pageSize : ℕ
  config : Configuration
  sys : Sys
  hip : HipIo

/-- `hipFile::getMaxRwCount()` of the process. -/
def Env.maxRwCount (env : Env) : ℕ := getMaxRwCount env.pageSize

end HipFile
