import SocketWrapper.Descriptors.Objects
import SocketWrapper.Lib.FlatMemory

/-!
# The operations of a `UdpDatagram`

`read`, `write` and `stopReads`, with the system calls that they make. What the kernel answers may depend
on all the calls that have been made so far.
-/

namespace SocketWrapper.Descriptors

/-- The system calls, with their arguments. -/
inductive DatagramCall
  | poll (socketFd stopAllOperationsEventFd : Fd) (timeoutMs : Int)
  | recvmsg (fd : Fd) (bufferSize : Nat)
  | sendto (fd : Fd) (msgData : List Byte) (destinationIp : String) (port : Int)
  | write (fd : Fd) (value : Nat)
  deriving DecidableEq, Repr

/-- What `::poll` returns, and what it has marked by then. -/
structure PollAnswer where
  result : Int
  marks : Marks
  deriving DecidableEq, Repr

inductive RecvmsgAnswer
  | fails (errno : Nat)
  /-- The next datagram, of which the kernel drops what the buffer has no room for. -/
  | takes (datagram : List Byte)
  deriving DecidableEq, Repr

/-- The answer to a system call, whichever it is. -/
structure DatagramAnswer where
  /-- `none` where `::poll` does not come back. -/
  poll : Option PollAnswer
  recvmsg : RecvmsgAnswer
  /-- The `errno` of `::sendto`, if it fails. -/
  sendto : Option Nat
  /-- The value of `errno` where the code reads it and no call has failed. -/
  errno : Nat
  deriving DecidableEq, Repr

abbrev DatagramKernel := List DatagramCall → DatagramAnswer

namespace UdpDatagram

/-- The branches of `read` that throw before anything is received. The source compares the result of
`::poll` with the timeout. -/
def pollVerdict (timeoutMs : Int) (answer : PollAnswer) (errno : Nat) : Option SocketException :=
  if answer.result = timeoutMs then some (.withErrno .SOCKET_POLL errno)
  else if answer.marks.socket then none
  else if answer.marks.ending then some (.withErrno .SOCKET_TERMINATION_REQUEST errno)
  else some (.withErrno .SOCKET_READ_TIMEOUT errno)

/-- `::recvmsg` into the member `buffer`, and `assertRecvmsgSucceded`: the `read_result`. -/
def receive (u : UdpDatagram) (answer : RecvmsgAnswer) (errno : Nat) : Outcome Nat × UdpDatagram :=
  match answer with
  | .fails errno => (.socketError .SOCKET_READ errno, u)
  | .takes datagram =>
      let filled := { u with
        buffer := FlatMemory.store u.buffer 0 (datagram.take u.buffer.length) }
      -- `MSG_TRUNC`
      if u.buffer.length < datagram.length then
        (.socketError .SOCKET_RECEIVE_BUFFER_TOO_SMALL errno, filled)
      else (.returned datagram.length, filled)

/-- `{buffer.begin(), buffer.begin() + read_result}`. -/
def copyOut (u : UdpDatagram) (readResult : Nat) : List Byte := u.buffer.take readResult

variable (kernel : DatagramKernel)

def read (u : UdpDatagram) (timeoutMs : Int) (calls : List DatagramCall) :
    Outcome (List Byte) × (UdpDatagram × List DatagramCall) :=
  let polled := calls ++ [.poll u.socketFd u.stopAllOperationsEventFd timeoutMs]
  match (kernel polled).poll with
  | none => (.waiting, u, polled)
  | some answer =>
      match pollVerdict timeoutMs answer (kernel polled).errno with
      | some ex => (.threw (.socket ex), u, polled)
      | none =>
          let received := polled ++ [.recvmsg u.socketFd u.buffer.length]
          let r := u.receive (kernel received).recvmsg (kernel received).errno
          Outcome.andThen (r.1, r.2, received) fun readResult s =>
          (.returned (s.1.copyOut readResult), s)

/-- `found` is what the code finds in `ip_version` where no constructor has set it. -/
def write (found : IpVersion) (u : UdpDatagram) (msgData : List Byte) (destinationIp : String) (port : Int)
    (calls : List DatagramCall) : Outcome (List Byte) × (UdpDatagram × List DatagramCall) :=
  match u.ipVersion.getD found with
  | .IPv6 => (.threw (.logicError "IPv6 is not supported as of now"), u, calls)
  | .IPv4 =>
      let sent := calls ++ [.sendto u.socketFd msgData destinationIp port]
      match (kernel sent).sendto with
      | some errno => (.socketError .SOCKET_WRITE errno, u, sent)
      | none => (.returned [], u, sent)

inductive Operation
  | read (timeoutMs : Int)
  | write (msgData : List Byte) (destinationIp : String) (port : Int)
  | stopReads

def perform (found : IpVersion) (s : UdpDatagram × List DatagramCall) :
    Operation → Outcome (List Byte) × (UdpDatagram × List DatagramCall)
  | .read timeoutMs => s.1.read kernel timeoutMs s.2
  | .write msgData destinationIp port => s.1.write kernel found msgData destinationIp port s.2
  | .stopReads =>
      (.returned [], s.1, s.2 ++ [.write s.1.stopAllOperationsEventFd semaphoreValue])

/-- What becomes of the operations one after the other, and all system calls in the end. -/
def results (found : IpVersion) :
    UdpDatagram × List DatagramCall → List Operation → List (Outcome (List Byte)) × List DatagramCall
  | s, [] => ([], s.2)
  | s, op :: ops =>
      let r := perform kernel found s op
      let rest := results found r.2 ops
      (r.1 :: rest.1, rest.2)

/-- Whatever the kernel does, every sequence of operations has the same results on both objects. -/
def BehavesAs (u u' : UdpDatagram) : Prop :=
  ∀ (kernel : DatagramKernel) (found found' : IpVersion) (ops : List Operation),
    (results kernel found (u, []) ops).1 = (results kernel found' (u', []) ops).1

/-! ## Moves -/

/-- A move of the object, into a new one or to one that exists. -/
inductive Move
  | construct
  | assign (target : UdpDatagram)

/-- The object that has the socket after the move. -/
def Move.apply (u : UdpDatagram) : Move → UdpDatagram
  | .construct => u.moveConstruct.1
  | .assign target => (target.moveAssign u).1

/-- The object that ends up with the socket has a buffer of the original's size and the original's IP
version: nothing was moved, or the last move was to an object made for the same. -/
def CarriedBy (original : UdpDatagram) (moves : List Move) : Prop :=
  original.ipVersion.isSome ∧
    match moves.getLast? with
    | none => True
    | some .construct => False
    | some (.assign target) =>
        target.buffer.length = original.buffer.length ∧ target.ipVersion = original.ipVersion

end UdpDatagram

end SocketWrapper.Descriptors
