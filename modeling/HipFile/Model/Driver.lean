import HipFile.Model.HipFile

/-!
# The driver under the public functions of any threads

A public function that takes the driver's lock once is one step. `hipFileDriverClose`
and `hipFileIOAsync` take it twice, and other threads move in between.

* `DriverSystem.machine`: the driver and the points at which the threads are.
* `atomicDriver`: the driver as its users see it, whose calls take effect at once.
-/

namespace HipFile

/-! ## The public functions -/

/-- `hipFileDriverOpen` -/
def hipFileDriverOpen (s : DriverState) : HipFileError × DriverState :=
  match DriverState.incrRefCount s with
  | (.ok _, s) => (hipFileSuccess, s)
  | (.error e, s) => (handleException e, s)

/-- The test of `hipFileDriverClose`: what it returns, or `none` when it goes on to
the decrement. -/
def hipFileDriverCloseTest (s : DriverState) : Option HipFileError :=
  if 0 < s.getRefCount then none else some ⟨.driverNotInitialized, none⟩

/-- The decrement of `hipFileDriverClose`, under a second lock. -/
def hipFileDriverCloseDecr (s : DriverState) : HipFileError × DriverState :=
  match DriverState.decrRefCount s with
  | (.ok _, s) => (hipFileSuccess, s)
  | (.error e, s) => (handleException e, s)

/-- `hipFileUseCount` -/
def hipFileUseCount (s : DriverState) : ℤ := s.getRefCount

/-- The public functions that take the driver's lock at most once. Of the IO functions
only what they look up is of interest here. -/
inductive PublicCall
  | handleRegister (calls : FileCalls) (newFile : ℕ) (fhNull : Bool) (descr : Option HipFileDescr)
  | handleDeregister (fh useCount : ℕ)
  | bufRegister (hip : HipQueries) (bufferBase length : ℕ) (flags : ℤ)
  | bufDeregister (bufferBase useCount : ℕ)
  | streamRegister (hip : HipQueries) (stream flags : ℕ)
  | streamDeregister (stream : ℕ)
  | io (hip : HipQueries) (fh bufferBase : ℕ)

/-- The method of the driver that a public function calls, if it gets there and the
method may change the state. -/
def PublicCall.method : PublicCall → Option DriverState.Call
  | .handleRegister calls newFile fhNull descr =>
    match fhNull, descr with
    | true, _ => none
    | _, none => none
    | false, some descr =>
      match descr.type with
      | .opaqueFD =>
        match UnregisteredFile.construct calls descr.fd with
        | .error _ => none
        | .ok uf => some (.registerFile uf newFile)
      | _ => none
  | .handleDeregister fh useCount => if fh = 0 then none else some (.deregisterFile fh useCount)
  | .bufRegister hip bufferBase length flags => some (.registerBuffer hip bufferBase length flags)
  | .bufDeregister bufferBase useCount => some (.deregisterBuffer bufferBase useCount)
  | .streamRegister hip stream flags => some (.registerStream hip stream flags)
  | .streamDeregister stream => some (.deregisterStream stream)
  | .io _ _ _ => none

/-! ## The atomic driver -/

/-- What a call does to the reference count, with what it returns. -/
inductive DriverEvent
  | opened (r : HipFileError)
  | closed (r : HipFileError)
  | counted (n : ℤ)
  | initialised
  deriving DecidableEq

/-- The step of a driver whose calls take effect at once, if the call returns what it
returns here: a close without references finds the driver not initialised. -/
def DriverEvent.apply (n : ℤ) : DriverEvent → Option ℤ
  | .opened r => if r = hipFileSuccess then some (n + 1) else none
  | .closed r =>
    if n = 0 then if r = ⟨.driverNotInitialized, none⟩ then some n else none
    else if r = hipFileSuccess then some (n - 1) else none
  | .counted m => if m = n then some n else none
  | .initialised => some (if n = 0 then n + 1 else n)

/-- **The atomic driver**: a count, and the calls on it one after the other. -/
def atomicDriver : Machine ℤ DriverEvent := ⟨0, DriverEvent.apply⟩

/-! ## The system -/

/-- Where a thread is in a public function that takes the lock twice. -/
inductive DriverPoint
  | idle
  /-- in `hipFileDriverClose`, after a positive count -/
  | closing
  /-- in `hipFileIOAsync`, after the count 0 -/
  | asyncInit
  /-- in `hipFileIOAsync`, after another count -/
  | asyncLookup
  deriving DecidableEq

/-- A step of a thread. -/
inductive DriverAction
  | call (c : PublicCall)
  | driverOpen
  | useCount
  | closeTest
  | closeDecr
  | asyncTest
  | asyncInit
  | asyncLookup

/-- The driver and its threads. For the record, the calls are logged in the order in
which they take effect, and the increments of the count are counted. -/
structure DriverSystem where
  driver : DriverState
  point : ℕ → DriverPoint
  log : List DriverEvent
  increments : ℕ

/-- How often a method increments the count. -/
def DriverState.Call.increments (s : DriverState) : DriverState.Call → ℕ
  | .incrRefCount => 1
  | .registerBuffer _ _ _ _ | .registerFile _ _ | .ensureInitialized =>
    if s.refCount = 0 then 1 else 0
  | _ => 0

/-- What a method is in the log. -/
def DriverState.Call.events : DriverState.Call → List DriverEvent
  | .registerBuffer _ _ _ _ | .registerFile _ _ | .ensureInitialized => [.initialised]
  | _ => []

namespace DriverSystem

def init : DriverSystem := ⟨.init, fun _ => .idle, [], 0⟩

/-- The number of calls of `hipFileDriverClose` that have returned success. -/
def closes (s : DriverSystem) : ℕ := s.log.count (.closed hipFileSuccess)

def goto (s : DriverSystem) (t : ℕ) (p : DriverPoint) : DriverSystem :=
  { s with point := Function.update s.point t p }

/-- A method of the driver. -/
def method (s : DriverSystem) (c : DriverState.Call) : DriverSystem :=
  { s with
    driver := c.apply s.driver
    log := s.log ++ c.events
    increments := s.increments + c.increments s.driver }

/-- The step of thread `t`. -/
def step (s : DriverSystem) : ℕ × DriverAction → Option DriverSystem
  | (t, .call c) =>
    if s.point t = .idle then
      match c.method with
      | none => some s
      | some m => some (s.method m)
    else none
  | (t, .driverOpen) =>
    if s.point t = .idle then
      let r := hipFileDriverOpen s.driver
      some { s with
        driver := r.2, log := s.log ++ [.opened r.1], increments := s.increments + 1 }
    else none
  | (t, .useCount) =>
    if s.point t = .idle then some { s with log := s.log ++ [.counted (hipFileUseCount s.driver)] }
    else none
  | (t, .closeTest) =>
    if s.point t = .idle then
      match hipFileDriverCloseTest s.driver with
      | none => some (s.goto t .closing)
      | some r => some { s with log := s.log ++ [.closed r] }
    else none
  | (t, .closeDecr) =>
    if s.point t = .closing then
      let r := hipFileDriverCloseDecr s.driver
      some (DriverSystem.goto { s with driver := r.2, log := s.log ++ [.closed r.1] } t .idle)
    else none
  | (t, .asyncTest) =>
    if s.point t = .idle then
      some (s.goto t (if s.driver.getRefCount = 0 then .asyncInit else .asyncLookup))
    else none
  | (t, .asyncInit) =>
    -- the request is refused all the same
    if s.point t = .asyncInit then some ((s.method .ensureInitialized).goto t .idle) else none
  | (t, .asyncLookup) =>
    if s.point t = .asyncLookup then some (s.goto t .idle) else none

/-- **The driver under the public functions of any number of threads.** -/
def machine : Machine DriverSystem (ℕ × DriverAction) := ⟨init, step⟩

end DriverSystem

/-! ## The functions and their methods -/

/-- `hipFileHandleRegister` leaves the driver as its method does. -/
theorem hipFileHandleRegister_state (calls : FileCalls) (newFile : ℕ) (fhNull : Bool)
    (descr : Option HipFileDescr) (s : DriverState) :
    (hipFileHandleRegister calls newFile fhNull descr s).2.2 =
      match (PublicCall.handleRegister calls newFile fhNull descr).method with
      | none => s
      | some m => m.apply s := by
  unfold hipFileHandleRegister PublicCall.method
  cases fhNull with
  | true => rfl
  | false =>
    cases descr with
    | none => rfl
    | some d =>
      simp only
      cases d.type with
      | opaqueFD =>
        simp only
        cases UnregisteredFile.construct calls d.fd with
        | error e => rfl
        | ok uf =>
          simp only [DriverState.Call.apply]
          split <;> rename_i h <;> rw [h]
      | _ => rfl

/-- `hipFileBufRegister` leaves the driver as its method does. -/
theorem hipFileBufRegister_state (hip : HipQueries) (bufferBase length : ℕ) (flags : ℤ)
    (s : DriverState) :
    (hipFileBufRegister hip bufferBase length flags s).2 =
      DriverState.Call.apply s (.registerBuffer hip bufferBase length flags) := by
  unfold hipFileBufRegister
  simp only [DriverState.Call.apply]
  split <;> rename_i h <;> rw [h]

end HipFile
