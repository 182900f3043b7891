import Mathlib.Data.Finset.Basic
import Mathlib.Logic.Function.Basic
import HipFile.Lib.Machine
import HipFile.Model.Basic

/-!
# The asynchronous monitor

`AsyncMonitor` owns the ops between their submission and their completion. Three
parties move: the submitting threads, the host callbacks that run
`async_io_cleanup`, and the completion thread. A section under the mutex is one
step, and so is every access of a callback outside of one. The condition variable
may wake the completion thread at any time.

An op is named by its address, and once it has been extracted from
`submitted_ops` it may be destroyed; no address is used twice.
-/

namespace HipFile

/-- `AsyncMonitor`: the keys of `submitted_ops`, and `completed_ops` with its back
at the end of the list. -/
structure AsyncMonitor where
  submittedOps : Finset ℕ
  completedOps : List ℕ
  isFinished : Bool
  deriving DecidableEq

namespace AsyncMonitor

/-- `AsyncMonitor::AsyncMonitor` -/
def init : AsyncMonitor := ⟨∅, [], false⟩

/-- The section of `AsyncMonitor::addOp`. -/
def addOp (op : ℕ) (m : AsyncMonitor) : AsyncMonitor :=
  { m with submittedOps := insert op m.submittedOps }

/-- The section of `AsyncMonitor::completeOp`. -/
def completeOp (op : ℕ) (m : AsyncMonitor) : Except Exn AsyncMonitor :=
  if op ∉ m.submittedOps then .error (.invalidArgument "Op does not appear in submitted_ops")
  else .ok { m with completedOps := m.completedOps ++ [op] }

/-- What a section of the completion thread's loop does. -/
inductive Iteration
  | extract (op : ℕ) (m : AsyncMonitor)
  | wait
  | exit

/-- A section of `AsyncMonitor::completion_thread`, up to the release of the lock. -/
def completionThread (m : AsyncMonitor) : Iteration :=
  match m.completedOps.getLast? with
  | some op => .extract op { m with
      completedOps := m.completedOps.dropLast
      submittedOps := m.submittedOps.erase op }
  | none => if ¬ m.isFinished then .wait else .exit

/-- The predicate that `cv.wait` tests. -/
def wakeTest (m : AsyncMonitor) : Bool := m.isFinished || !m.completedOps.isEmpty

end AsyncMonitor

namespace AsyncSystem

/-- Where an op is: before its `addOp`, added, with `async_io_cleanup` enqueued, or at
one of the points of `async_io_cleanup`. -/
inductive Point
  | fresh
  | added
  | queued
  | loaded
  | completed
  | notified
  | reading
  | done
  deriving DecidableEq, Repr

/-- Where the completion thread is. -/
inductive Worker
  | running
  | waiting
  | exited
  deriving DecidableEq, Repr

/-- The fields of an op that `async_io_cleanup` accesses, by itself or in `completeOp`. -/
inductive Field
  | bytesTransferred
  | file
  | buffer
  | stream
  | bytesTransferredInternal
  deriving DecidableEq, Repr

/-- An access of a field, and whether the op had been extracted before. -/
structure Access where
  op : ℕ
  field : Field
  late : Bool
  deriving DecidableEq, Repr

/-- The monitor, the points of the ops, the completion thread, a notification it has
not seen, the submitters' references, the ops extracted, and the accesses made. -/
structure State where
  monitor : AsyncMonitor
  point : ℕ → Point
  worker : Worker
  notifyPending : Bool
  submitterHolds : Finset ℕ
  extracted : Finset ℕ
  accesses : List Access

/-- A move of one of the parties. -/
inductive Step
  | addOp (op : ℕ)
  | enqueueCleanup (op : ℕ)
  | dropReference (op : ℕ)
  | cleanup (op : ℕ)
  | iterate
  | wake
  | finish
  | notifyFinish
  deriving DecidableEq, Repr

def init : State where
  monitor := .init
  point _ := .fresh
  worker := .running
  notifyPending := false
  submitterHolds := ∅
  extracted := ∅
  accesses := []

/-- Move an op to a point. -/
def State.goto (s : State) (op : ℕ) (p : Point) : State :=
  { s with point := Function.update s.point op p }

/-- Access fields of an op. -/
def State.access (s : State) (op : ℕ) (fields : List Field) : State :=
  { s with accesses := s.accesses ++ fields.map fun f => ⟨op, f, op ∈ s.extracted⟩ }

/-- `cv.notify_one()`: it reaches the completion thread if it waits. -/
def State.notifyOne (s : State) : State :=
  { s with notifyPending := s.notifyPending || s.worker = .waiting }

/-- The next access of `async_io_cleanup` on an op: it reads `bytes_transferred`, runs the
section of `completeOp`, notifies, reads `bytes_transferred_internal`, and stores it. -/
def cleanup (s : State) (op : ℕ) : Option State :=
  match s.point op with
  | .queued => some ((s.access op [.bytesTransferred]).goto op .loaded)
  | .loaded =>
    match s.monitor.completeOp op with
    | .ok m =>
      some ({ s.access op [.file, .buffer, .stream] with monitor := m }.goto op .completed)
    | .error _ => some (s.goto op .done)
  | .completed => some (s.notifyOne.goto op .notified)
  | .notified => some ((s.access op [.bytesTransferredInternal]).goto op .reading)
  -- the store goes to the client's memory, which is no field of the op
  | .reading => some (s.goto op .done)
  | _ => none

/-- One step, if the party can make it. -/
def step (s : State) : Step → Option State
  | .addOp op =>
    if s.point op = .fresh then
      some ({ s with
        monitor := s.monitor.addOp op
        submitterHolds := insert op s.submitterHolds }.goto op .added)
    else none
  | .enqueueCleanup op => if s.point op = .added then some (s.goto op .queued) else none
  | .dropReference op =>
    -- `async_io` returns after it has enqueued the cleanup
    if op ∈ s.submitterHolds ∧ s.point op ≠ .added then
      some { s with submitterHolds := s.submitterHolds.erase op }
    else none
  | .cleanup op => cleanup s op
  | .iterate =>
    if s.worker = .running then
      match s.monitor.completionThread with
      | .extract op m => some { s with monitor := m, extracted := insert op s.extracted }
      | .wait => some { s with worker := .waiting, notifyPending := false }
      | .exit => some { s with worker := .exited }
    else none
  | .wake =>
    -- notified or spurious: the test is made again, under the lock
    if s.worker = .waiting then
      some { s with
        worker := if s.monitor.wakeTest then .running else .waiting
        notifyPending := false }
    else none
  | .finish => some { s with monitor := { s.monitor with isFinished := true } }
  | .notifyFinish => if s.monitor.isFinished then some s.notifyOne else none

/-- The ops of a process, the host callbacks and the completion thread. -/
def machine : Machine State Step := ⟨init, step⟩

end AsyncSystem

end HipFile
