import HipFile.Lib.Machine
import HipFile.Model.Descriptors
import HipFile.Model.StatsReport
import HipFile.Model.StatsServer

/-!
# The connection of a stats client to the server

`StatsClient::connectServer` and `StatsServer::threadFn` step by step, with the connections
between them. On each connection the server sends the descriptor of its memory as a control
message, and the client receives it as a descriptor of its own.

* `sendFd`, `recvFd`: the control message that is sent, and what is made of one.
* `StatsConnection.machine`: the server's thread, the client's calls of `connectServer` and
  the other clients' connections, in any order. The server's process may end at any moment.
-/

namespace HipFile

def SOL_SOCKET : ℕ := 1
def SCM_RIGHTS : ℕ := 1

/-- `CMSG_LEN(sizeof(int))` -/
def CMSG_LEN_INT : ℕ := 20

/-- A `cmsghdr`, with its data taken as a descriptor. -/
structure Cmsghdr where
  cmsgLen : ℕ
  cmsgLevel : ℕ
  cmsgType : ℕ
  data : ℤ
  deriving DecidableEq, Repr

/-- The header is that of one descriptor. -/
def Cmsghdr.Valid (cmsg : Cmsghdr) : Prop :=
  cmsg.cmsgLen = CMSG_LEN_INT ∧ cmsg.cmsgLevel = SOL_SOCKET ∧ cmsg.cmsgType = SCM_RIGHTS

instance (cmsg : Cmsghdr) : Decidable cmsg.Valid := inferInstanceAs (Decidable (_ ∧ _))

/-- The control message of `sendFd`. -/
def sendFd (fd : ℤ) : Cmsghdr := ⟨CMSG_LEN_INT, SOL_SOCKET, SCM_RIGHTS, fd⟩

/-- How `recvmsg(2)` ends. The control message of a message may be missing, or cut off. -/
inductive RecvOutcome
  | error (e : Errno)
  | endOfStream
  | message (cmsg : Option Cmsghdr)
  deriving DecidableEq, Repr

/-- `recvFd` -/
def recvFd : RecvOutcome → ℤ
  | .error _ => -1
  | .endOfStream => -1
  | .message none => -1
  | .message (some cmsg) =>
    if cmsg.cmsgLen ≠ CMSG_LEN_INT ∨ cmsg.cmsgLevel ≠ SOL_SOCKET ∨ cmsg.cmsgType ≠ SCM_RIGHTS
    then -1
    else cmsg.data

/-- A message with a valid `SCM_RIGHTS` header. -/
def RecvOutcome.HasRights (out : RecvOutcome) : Prop :=
  ∃ cmsg, out = .message (some cmsg) ∧ cmsg.Valid

/-! ## States -/

/-- What has been sent on a connection and not been received, and whether the server's end is
closed. -/
structure Connection where
  messages : List Cmsghdr
  closed : Bool
  deriving DecidableEq, Repr

/-- Where the server's thread is: before the loop, or in a round of it, which knows whether
its `poll` has reported the shutdown. -/
inductive ServerPhase
  | starting
  | polling
  | accepting (shutdown : Bool)
  | sending (conn : ℕ) (shutdown : Bool)
  | closing (conn : ℕ) (shutdown : Bool)
  | stopped
  deriving DecidableEq, Repr

/-- Where the client is: outside of `connectServer`, before `pollProcess` or `connect` in its
loop, or before `recvFd`. -/
inductive ClientPhase
  | outside
  | polling (timeout : ℕ)
  | connecting (timeout : ℕ)
  | receiving (conn : ℕ)
  deriving DecidableEq, Repr

/-- What `connectServer` has returned, and whether `m_sfd` then held a descriptor of the
server's memory. -/
structure ConnectReturn where
  result : Bool
  holds : Bool
  deriving DecidableEq, Repr

/-- The server's thread, the connections, and the client with its table of descriptors: an
entry has the server's descriptor that it was received for. -/
structure StatsConnection where
  server : ServerPhase
  backlog : List ℕ
  connections : ℕ → Connection
  nextConn : ℕ
  client : ClientPhase
  sfd : FileDescriptor
  fds : HandleTable ℤ ℕ
  returns : List ConnectReturn

namespace StatsConnection

def init : StatsConnection :=
  ⟨.starting, [], fun _ => ⟨[], false⟩, 0, .outside, .empty, .empty, []⟩

/-- `m_sfd` is an open descriptor that was received for the server's `m_fd`. -/
def holds (s : StatsConnection) (mfd : ℕ) : Bool :=
  match s.fds.entries s.sfd.fd with
  | some ⟨.own _, sent⟩ => sent = mfd
  | _ => false

/-- The server listens. -/
def Listening (s : StatsConnection) : Prop := s.server ≠ .starting ∧ s.server ≠ .stopped

instance (s : StatsConnection) : Decidable s.Listening := inferInstanceAs (Decidable (_ ∧ _))

/-- The thread returns, or the process ends: the sockets are closed. -/
def stop (s : StatsConnection) : StatsConnection :=
  { s with
    server := .stopped
    backlog := []
    connections := fun c => { s.connections c with closed := true } }

/-- The end of a round. -/
def testShutdown (s : StatsConnection) (shutdown : Bool) : StatsConnection :=
  if shutdown then s.stop else { s with server := .polling }

/-- A client's `connect` succeeds. -/
def enqueue (s : StatsConnection) : StatsConnection :=
  { s with backlog := s.backlog ++ [s.nextConn], nextConn := s.nextConn + 1 }

/-- `connectServer` returns. -/
def leave (s : StatsConnection) (mfd : ℕ) (result : Bool) : StatsConnection :=
  { s with client := .outside, returns := s.returns ++ [⟨result, s.holds mfd⟩] }

/-- `m_sfd = FileDescriptor::make_managed(recvFd(sock.get())); return true;` -/
def assignSfd (s : StatsConnection) (mfd : ℕ) (out : RecvOutcome) : StatsConnection :=
  let r := s.sfd.assign (.makeManaged (recvFd out)) s.fds
  { s with sfd := r.1, fds := r.2 }.leave mfd true

/-- The client receives a message: a descriptor that comes with it has a number that is not in
use. -/
def receive (s : StatsConnection) (conn : ℕ) (cmsg : Option Cmsghdr) : Option StatsConnection :=
  match (s.connections conn).messages with
  | [] => none
  | sent :: rest =>
    let s := { s with
      connections := Function.update s.connections conn
        { s.connections conn with messages := rest } }
    match cmsg with
    | none => some s
    | some cmsg =>
      if cmsg.Valid then
        if 0 ≤ cmsg.data ∧ s.fds.entries cmsg.data = none then
          some { s with fds := s.fds.openOwn cmsg.data sent.data.toNat }
        else none
      else some s

/-! ## Steps -/

/-- The calls of the server's thread and the end of its process, the connections of other
clients, and the calls of `connectServer`. -/
inductive Step
  | start (ok : Bool)
  | poll (p : PollOutcome)
  | accept (ok : Bool)
  | sendFd (ok : Bool)
  | close
  | exit
  | otherConnect
  | socket (ok : Bool)
  | pollProcess (exited : Bool)
  | connect (ok : Bool)
  | recvmsg (out : RecvOutcome)

/-- One step, if it can be made. -/
def step (mfd : ℕ) (s : StatsConnection) : Step → Option StatsConnection
  | .start ok =>
    match s.server with
    | .starting => some (if ok then { s with server := .polling } else s.stop)
    | _ => none
  | .poll p =>
    match s.server with
    | .polling =>
      match p.polled with
      | .again => some s
      | .leave => some s.stop
      | .ready true shutdown => some { s with server := .accepting shutdown }
      | .ready false shutdown => some (s.testShutdown shutdown)
    | _ => none
  | .accept ok =>
    match s.server with
    | .accepting shutdown =>
      if ok then
        match s.backlog with
        | [] => none
        | conn :: backlog => some { s with server := .sending conn shutdown, backlog := backlog }
      else some { s with server := .polling }
    | _ => none
  | .sendFd ok =>
    match s.server with
    | .sending conn shutdown =>
      let connection := s.connections conn
      let messages := if ok then connection.messages ++ [HipFile.sendFd mfd]
        else connection.messages
      some { s with
        server := .closing conn shutdown
        connections := Function.update s.connections conn { connection with messages := messages } }
    | _ => none
  | .close =>
    match s.server with
    | .closing conn shutdown =>
      some ({ s with
        connections := Function.update s.connections conn
          { s.connections conn with closed := true } }.testShutdown shutdown)
    | _ => none
  | .exit => some s.stop
  | .otherConnect => if s.Listening then some s.enqueue else none
  | .socket ok =>
    match s.client with
    | .outside => some (if ok then { s with client := .polling 0 } else s.leave mfd false)
    | _ => none
  | .pollProcess exited =>
    match s.client with
    -- `success` is still -1 when the process has ended
    | .polling timeout =>
      some (if exited then s.leave mfd false else { s with client := .connecting timeout })
    | _ => none
  | .connect ok =>
    match s.client with
    | .connecting timeout =>
      if ok then
        if s.Listening then some { s.enqueue with client := .receiving s.nextConn } else none
      else some { s with client := .polling (timeout + 1) }
    | _ => none
  | .recvmsg out =>
    match s.client with
    | .receiving conn =>
      match out with
      | .error _ => some (s.assignSfd mfd out)
      | .endOfStream =>
        if (s.connections conn).closed = true ∧ (s.connections conn).messages = [] then
          some (s.assignSfd mfd out)
        else none
      | .message cmsg => (s.receive conn cmsg).map fun s => s.assignSfd mfd out
    | _ => none

/-- The steps of a round of the server's loop. -/
def roundSteps (r : ServerRound) : List Step :=
  match r.poll.polled with
  | .again => [.poll r.poll]
  | .leave => [.poll r.poll]
  | .ready false _ => [.poll r.poll]
  | .ready true _ =>
    match r.accept with
    | .error _ => [.poll r.poll, .accept false]
    | .ok _ => [.poll r.poll, .accept true, .sendFd r.sendFd.isOk, .close]

/-- **The server and the client**, where the server's `m_fd` is `mfd`. -/
def machine (mfd : ℕ) : Machine StatsConnection Step := ⟨init, step mfd⟩

end StatsConnection

end HipFile
