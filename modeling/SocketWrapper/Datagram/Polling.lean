import SocketWrapper.Datagram.Socket

/-!
# What `::poll` tells `UdpDatagram::read`
-/

namespace SocketWrapper.Descriptors

/-- How many descriptors are marked. -/
def Marks.count (marks : Marks) : Nat := marks.socket.toNat + marks.ending.toNat

/-- What POSIX allows: -1 if `::poll` has failed, otherwise the number of descriptors that it has marked;
without a timeout it does not come back before there is one. -/
inductive PollAnswer.Posix (timeoutMs : Int) : PollAnswer → Prop
  | fails : Posix timeoutMs ⟨-1, ⟨false, false⟩⟩
  | expires : 0 ≤ timeoutMs → Posix timeoutMs ⟨0, ⟨false, false⟩⟩
  | ready {marks : Marks} : marks.socket ∨ marks.ending → Posix timeoutMs ⟨marks.count, marks⟩

namespace UdpDatagram

/-- The system calls up to the `::poll` of a `read`. -/
def polled (u : UdpDatagram) (timeoutMs : Int) (calls : List DatagramCall) : List DatagramCall :=
  calls ++ [.poll u.socketFd u.stopAllOperationsEventFd timeoutMs]

/-- The system calls up to the `::recvmsg` of a `read`. -/
def receiving (u : UdpDatagram) (timeoutMs : Int) (calls : List DatagramCall) : List DatagramCall :=
  u.polled timeoutMs calls ++ [.recvmsg u.socketFd u.buffer.length]

/-- With the socket ready, a datagram that fits is returned as it is and one that does not is refused;
nothing else is ever returned, and `SOCKET_POLL` means that `::poll` has failed. -/
structure DeliversReady (kernel : DatagramKernel) (u : UdpDatagram) (timeoutMs : Int)
    (calls : List DatagramCall) (answer : PollAnswer) : Prop where
  fits : answer.marks.socket → ∀ datagram,
    (kernel (u.receiving timeoutMs calls)).recvmsg = .takes datagram →
    datagram.length ≤ u.buffer.length → (u.read kernel timeoutMs calls).1 = .returned datagram
  tooLong : answer.marks.socket → ∀ datagram,
    (kernel (u.receiving timeoutMs calls)).recvmsg = .takes datagram →
    u.buffer.length < datagram.length →
    (u.read kernel timeoutMs calls).1.ThrewType .SOCKET_RECEIVE_BUFFER_TOO_SMALL
  whole : ∀ data, (u.read kernel timeoutMs calls).1 = .returned data →
    (kernel (u.receiving timeoutMs calls)).recvmsg = .takes data
  pollFailed : (u.read kernel timeoutMs calls).1.ThrewType .SOCKET_POLL → answer.result = -1

end UdpDatagram

end SocketWrapper.Descriptors
