import HipFile.Lib.Loop
import HipFile.Model.File
import HipFile.Model.World

/-!
# The stats report

`hipFileStatsGenerateReport` has a client write its report to a string, and writes the
string to a descriptor. The outcomes of `write(2)` are a sequence, by the number of the
call; `errno` is what the last failed call has left.
-/

namespace HipFile

/-- `hipFileStatsError_t` -/
inductive HipFileStatsError
  | success
  | invalidArgument
  | targetProcessNotFound
  | targetProcessNotAccessible
  | reportGenerationFailed
  deriving DecidableEq, Repr

/-! ## The text -/

/-- What the report reads of `Stats` in the shared memory. -/
structure SharedStats where
  level : ℕ
  version : ℕ
  counters : Stats
  deriving DecidableEq, Repr

/-- `StatsClient::generateReportV1` -/
def SharedStats.reportV1 (stats : SharedStats) : String :=
  "Total fast path reads (B): " ++ toString stats.counters.totalFastPathReadBytes ++
  "\nTotal fast path writes (B): " ++ toString stats.counters.totalFastPathWriteBytes ++
  "\nTotal fallback path reads (B): " ++ toString stats.counters.totalFallbackPathReadBytes ++
  "\nTotal fallback path writes (B): " ++ toString stats.counters.totalFallbackPathWriteBytes ++
  "\n"

/-- The text of the report. -/
def SharedStats.report (stats : SharedStats) : String :=
  "AIS-STATS Version: " ++ toString stats.version ++
  "\nHipFile Stats Level: " ++ toString stats.level ++ "\n" ++
  if stats.version = 1 then stats.reportV1 else ""

/-- `StatsClient` -/
structure StatsClient where
  pfd : FileDescriptor
  sfd : FileDescriptor
  pid : ℤ
  deriving DecidableEq, Repr

/-- `StatsClient::generateReport`, where `mmap` fails or maps the memory, at a null pointer or
not. It is `none` where the function returns false. -/
def StatsClient.generateReport (this : StatsClient) (mmap : Except Errno (Option SharedStats)) :
    Option String :=
  if this.sfd.fd = -1 then none
  else
    match mmap with
    | .error _ => none
    | .ok none => none
    | .ok (some stats) => some stats.report

/-- `IStatsClient`, by the bytes that its `generateReport` gives, if it returns true. -/
structure IStatsClient where
  generateReport : Option (List UInt8)
  deriving DecidableEq, Repr

def StatsClient.toIStatsClient (this : StatsClient) (mmap : Except Errno (Option SharedStats)) :
    IStatsClient := ⟨(this.generateReport mmap).map fun report => report.toUTF8.toList⟩

/-! ## Writing it -/

/-- How `write(2)` ends: it takes as many bytes, or all that it is given if these are fewer. -/
inductive WriteOutcome
  | accepts (n : ℕ)
  | fails (e : Errno)
  deriving DecidableEq, Repr

/-- The loop's `written`, `errno`, the number of the calls made, and what they have written. -/
structure WriteState where
  written : ℕ
  errno : Errno
  writes : ℕ
  accepted : List UInt8
  deriving DecidableEq, Repr

/-- `write(fd, data, data.length)` -/
def WriteState.write (outcomes : ℕ → WriteOutcome) (data : List UInt8) (s : WriteState) :
    ℤ × WriteState :=
  match outcomes s.writes with
  | .accepts n =>
    ((min n data.length : ℕ), { s with
      writes := s.writes + 1
      accepted := s.accepted ++ data.take n })
  | .fails e => (-1, { s with writes := s.writes + 1, errno := e })

/-- How the function ends. -/
abbrev ReportOutcome := HipFileStatsError × WriteState

/-- One round of the loop. -/
def writeRound (outcomes : ℕ → WriteOutcome) (report : List UInt8) (s : WriteState) :
    WriteState ⊕ ReportOutcome :=
  if s.written < report.length then
    let r := s.write outcomes (report.drop s.written)
    if r.1 ≤ 0 then
      -- a zero leaves `errno` as it was
      if r.2.errno = EINTR then .inl r.2
      else .inr (.reportGenerationFailed, r.2)
    else .inl { r.2 with written := r.2.written + r.1.toNat }
  else .inr (.success, s)

/-- `hipFileStatsGenerateReport`, allowed `rounds` rounds of its loop. The client is `none`
when null; `errno` is as its `generateReport` has left it. -/
def hipFileStatsGenerateReport (context : Option IStatsClient) (fd : ℤ)
    (outcomes : ℕ → WriteOutcome) (errno : Errno) (rounds : ℕ) : WriteState ⊕ ReportOutcome :=
  let start : WriteState := ⟨0, errno, 0, []⟩
  match context with
  | none => .inr (.invalidArgument, start)
  | some client =>
    if fd < 0 then .inr (.invalidArgument, start)
    else
      match client.generateReport with
      | none => .inr (.reportGenerationFailed, start)
      | some report => Loop.iter (writeRound outcomes report) rounds start

end HipFile
