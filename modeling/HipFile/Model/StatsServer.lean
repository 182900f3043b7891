import HipFile.Lib.Loop
import HipFile.Model.Basic

/-!
# The stats server's thread

`StatsServer::threadFn`, from the outcomes of the calls it makes. A round of its loop waits
for a connection or for the eventfd of the shutdown, and serves a connection before it looks
at the eventfd.
-/

namespace HipFile

def POLLIN : ℕ := 0x1
def POLLERR : ℕ := 0x8
def POLLNVAL : ℕ := 0x20

/-- What `poll(2)` returns for the listening socket and the eventfd: the return value, `errno`
if it is negative, and the two `revents`. -/
structure PollOutcome where
  ret : ℤ
  errno : Errno
  socketRevents : ℕ
  eventRevents : ℕ
  deriving DecidableEq, Repr

/-- How a round goes on after its `poll`. -/
inductive Polled
  | again
  | leave
  | ready (connection shutdown : Bool)
  deriving DecidableEq, Repr

/-- The tests of a round on what `poll` has returned. -/
def PollOutcome.polled (p : PollOutcome) : Polled :=
  if p.ret = 0 then .again
  else if p.ret < 0 then
    if p.errno = EINTR then .again else .leave
  else .ready (p.socketRevents &&& POLLIN ≠ 0)
    (p.eventRevents &&& (POLLIN ||| POLLERR ||| POLLNVAL) ≠ 0)

/-- The outcomes of the calls of a round: `accept` gives a connection, to which the descriptor
of the memory is sent. What `sendFd` returns is not looked at. -/
structure ServerRound where
  poll : PollOutcome
  accept : Except Errno ℤ
  sendFd : Except Errno Unit

/-- The outcomes of the calls of the thread. -/
structure ServerCalls where
  socket : Except Errno ℤ
  bind : Except Errno Unit
  listen : Except Errno Unit
  rounds : ℕ → ServerRound

/-- The rounds that the loop has begun, and the connections it has accepted, each with the
result of its `sendFd`. -/
structure ServerLoop where
  rounds : ℕ
  served : List (ℤ × Except Errno Unit)

/-- The end of a round. -/
def ServerLoop.testShutdown (s : ServerLoop) (shutdown : Bool) : ServerLoop ⊕ ServerLoop :=
  if shutdown then .inr s else .inl s

/-- One round of the loop. -/
def threadRound (rounds : ℕ → ServerRound) (s : ServerLoop) : ServerLoop ⊕ ServerLoop :=
  let r := rounds s.rounds
  let s := { s with rounds := s.rounds + 1 }
  match r.poll.polled with
  | .again => .inl s
  | .leave => .inr s
  | .ready connection shutdown =>
    if connection then
      match r.accept with
      -- `continue`, before the eventfd is looked at
      | .error _ => .inl s
      | .ok conn => { s with served := s.served ++ [(conn, r.sendFd)] }.testShutdown shutdown
    else s.testShutdown shutdown

/-- `StatsServer::threadFn`, allowed `n` rounds of its loop. -/
def threadFn (calls : ServerCalls) (n : ℕ) : ServerLoop ⊕ ServerLoop :=
  let start : ServerLoop := ⟨0, []⟩
  match calls.socket, calls.bind, calls.listen with
  | .ok _, .ok _, .ok _ => Loop.iter (threadRound calls.rounds) n start
  | _, _, _ => .inr start

/-- The `join` of `StatsServer::~StatsServer` returns: the thread ends. -/
def JoinReturns (calls : ServerCalls) : Prop := ∃ n s, threadFn calls n = .inr s

end HipFile
