import HipFile.Model.AsyncMonitor

/-!
# The completion of ops at reused addresses

`AsyncMonitor` under any number of ops. An op is an object with an identity and an
address, and once it has been released its address may be given to another one; the
monitor sees addresses only. An op is completed once, after it has been added.

Steps are the sections under the mutex and the notifications between them.
-/

namespace HipFile

namespace Completion

/-- Where an op is: before its `addOp`, added, in `completeOp` between the section and
the notification, through `completeOp`, or refused by it. -/
inductive Point
  | fresh
  | added
  | completed
  | notified
  | refused
  deriving DecidableEq, Repr

/-- Where the destructor of the monitor is. -/
inductive Destructor
  | before
  | finished
  | notified
  deriving DecidableEq, Repr

/-- The monitor; the ops with their points and addresses; for each key of `submitted_ops`
the op that it holds; the completion thread and the notification it has not seen; the
destructor. For the record, the ops released in their order, and those that had been
completed when the destructor set `is_finished`. -/
structure State where
  monitor : AsyncMonitor
  point : ℕ → Point
  address : ℕ → ℕ
  held : ℕ → ℕ
  worker : AsyncSystem.Worker
  notifyPending : Bool
  destructor : Destructor
  released : List ℕ
  early : Set ℕ

/-- A move of one of the parties. -/
inductive Step
  | addOp (op address : ℕ)
  | completeOp (op : ℕ)
  | notify (op : ℕ)
  | iterate
  | wake
  | finish
  | notifyFinish
  deriving DecidableEq, Repr

def init : State where
  monitor := .init
  point _ := .fresh
  address _ := 0
  held _ := 0
  worker := .running
  notifyPending := false
  destructor := .before
  released := []
  early := ∅

namespace State

def goto (s : State) (op : ℕ) (p : Point) : State :=
  { s with point := Function.update s.point op p }

/-- `cv.notify_one()` -/
def notifyOne (s : State) : State :=
  { s with notifyPending := s.notifyPending || s.worker = .waiting }

/-- The op has been through the section of its `completeOp`. -/
def Completed (s : State) (op : ℕ) : Prop := s.point op = .completed ∨ s.point op = .notified

/-- `submitted_ops` holds the op. -/
def Holds (s : State) (op : ℕ) : Prop :=
  s.address op ∈ s.monitor.submittedOps ∧ s.held (s.address op) = op

end State

/-- One step, if the party can make it. -/
def step (s : State) : Step → Option State
  | .addOp op address =>
    -- the ops that `submitted_ops` holds live, and a new object is not where they are
    if s.point op = .fresh ∧ address ∉ s.monitor.submittedOps then
      some ({ s with
        monitor := s.monitor.addOp address
        address := Function.update s.address op address
        held := Function.update s.held address op }.goto op .added)
    else none
  | .completeOp op =>
    if s.point op = .added then
      match s.monitor.completeOp (s.address op) with
      | .ok m => some ({ s with monitor := m }.goto op .completed)
      | .error _ => some (s.goto op .refused)
    else none
  | .notify op => if s.point op = .completed then some (s.notifyOne.goto op .notified) else none
  | .iterate =>
    if s.worker = .running then
      match s.monitor.completionThread with
      | .extract address m =>
        some { s with monitor := m, released := s.released ++ [s.held address] }
      | .wait => some { s with worker := .waiting, notifyPending := false }
      | .exit => some { s with worker := .exited }
    else none
  | .wake =>
    -- notified or spurious: the test is made again, under the lock
    if s.worker = .waiting then
      some { s with
        worker := if s.monitor.wakeTest then .running else .waiting
        notifyPending := false }
    else none
  | .finish =>
    if s.destructor = .before then
      some { s with
        monitor := { s.monitor with isFinished := true }
        destructor := .finished
        early := {op | s.Completed op} }
    else none
  | .notifyFinish =>
    if s.destructor = .finished then some { s.notifyOne with destructor := .notified } else none

/-- **The monitor under any ops and any schedule.** -/
def machine : Machine State Step := ⟨init, step⟩

end Completion

end HipFile
