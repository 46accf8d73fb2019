import SocketWrapper.Descriptors.Kernel

/-!
# The objects that own descriptors

Constructors, moves and destructors, with the descriptors as the members hold them. A moved-from object
keeps -1 for its socket and still names the eventfd.
-/

namespace SocketWrapper.Descriptors

/-- `numeric_limits<uint16_t>::max()`. -/
def semaphoreValue : Nat := 65535

/-- `kInvalidSocketFdMarker`. -/
def kInvalidSocketFdMarker : Fd := -1

/-! ## `Stream` -/

structure Stream where
  streamFileDescriptor : Fd
  stopAllOperationsEventFd : Fd
  deriving DecidableEq, Repr

namespace Stream

variable (C : Choices)

/-- `Stream(socket_fd)`. The members' destructors, the only ones that run when it throws, close nothing. -/
def make (socketFd : Fd) (verdict : Option Nat) (k : Kernel) : Outcome Stream × Kernel :=
  let r := k.eventfd C verdict
  if r.1 = -1 then (.threw (.runtimeError "Failed to create event_fd"), r.2)
  else (.returned ⟨socketFd, r.1⟩, r.2)

/-- The move constructor: the new object, and what is left of the source. -/
def moveConstruct (src : Stream) : Stream × Stream :=
  (⟨src.streamFileDescriptor, src.stopAllOperationsEventFd⟩,
    { src with streamFileDescriptor := kInvalidSocketFdMarker })

/-- The move assignment: the object after it, and what is left of `streamToAssign`. Nothing is done with
the descriptors that the object held before. -/
def moveAssign (_s streamToAssign : Stream) : Stream × Stream :=
  (⟨streamToAssign.streamFileDescriptor, streamToAssign.stopAllOperationsEventFd⟩,
    { streamToAssign with streamFileDescriptor := kInvalidSocketFdMarker })

def stopReads (s : Stream) (k : Kernel) : Kernel := k.write s.stopAllOperationsEventFd semaphoreValue

/-- The destructor. -/
def destroy (s : Stream) (k : Kernel) : Kernel :=
  if s.streamFileDescriptor < 0 then k
  else
    let r := (k.write s.stopAllOperationsEventFd semaphoreValue).close s.streamFileDescriptor
    if r.1 then r.2 else r.2.terminate

end Stream

/-! ## `UdpDatagram` -/

inductive IpVersion
  | IPv4
  | IPv6
  deriving DecidableEq, Repr

structure UdpDatagram where
  buffer : List Byte
  socketFd : Fd
  /-- `none` where no constructor has set it. -/
  ipVersion : Option IpVersion
  stopAllOperationsEventFd : Fd
  deriving DecidableEq, Repr

namespace UdpDatagram

variable (C : Choices) (v : Verdicts)

/-- The constructor. Both branches for the IP version make the same calls, and neither looks at the
results of `setsockopt`. A negative `buffer_size` becomes a length above `max_size()`. -/
def make (version : IpVersion) (bufferSize : Int) (k : Kernel) : Outcome UdpDatagram × Kernel :=
  match v .socket with
  | some errno => (.socketError .SOCKET_SOCKET errno, k)
  | none =>
      let r := k.openFd C
      match v .bind with
      | some errno => (.socketError .SOCKET_BIND errno, r.2)
      | none =>
          if bufferSize < 0 then
            (.threw (.logicError "cannot create std::vector larger than max_size()"), r.2)
          else
            let e := r.2.eventfd C (v (.eventfd 0))
            if e.1 = -1 then (.threw (.runtimeError "Failed to create event_fd"), e.2)
            else (.returned ⟨List.replicate bufferSize.toNat 0, r.1, some version, e.1⟩, e.2)

/-- The move constructor, which takes neither the buffer nor the IP version along. -/
def moveConstruct (src : UdpDatagram) : UdpDatagram × UdpDatagram :=
  (⟨[], src.socketFd, none, src.stopAllOperationsEventFd⟩,
    { src with socketFd := kInvalidSocketFdMarker })

/-- The move assignment, which leaves the object's own buffer and IP version. -/
def moveAssign (u streamToAssign : UdpDatagram) : UdpDatagram × UdpDatagram :=
  ({ u with
      socketFd := streamToAssign.socketFd
      stopAllOperationsEventFd := streamToAssign.stopAllOperationsEventFd },
    { streamToAssign with socketFd := kInvalidSocketFdMarker })

def stopReads (u : UdpDatagram) (k : Kernel) : Kernel :=
  k.write u.stopAllOperationsEventFd semaphoreValue

/-- The destructor. -/
def destroy (u : UdpDatagram) (k : Kernel) : Kernel :=
  if u.socketFd < 0 then k
  else
    let r := (k.write u.stopAllOperationsEventFd semaphoreValue).close u.socketFd
    if r.1 then r.2 else r.2.terminate

end UdpDatagram

/-! ## `BufferedStream` -/

structure BufferedStream where
  stream : Stream
  streamBufferSize : Nat
  streamBuffer : Int
  bufferWriteOffset : Nat
  deriving DecidableEq, Repr

namespace BufferedStream

variable (C : Choices)

/-- `(char*)-1`. -/
def invalidBuffer : Int := -1

/-- The constructor: the new object, and what is left of the parameter. -/
def make (srcStream : Stream) (bufferSize : Nat) (k : Kernel) : BufferedStream × Stream × Kernel :=
  let moved := srcStream.moveConstruct
  let r := k.calloc C bufferSize
  (⟨moved.1, bufferSize, r.1, 0⟩, moved.2, r.2)

/-- `BufferedStream(std::move(stream), buffer_size)`: the parameter is constructed from the argument, and
destroyed at the end. -/
def wrap (stream : Stream) (bufferSize : Nat) (k : Kernel) : BufferedStream × Stream × Kernel :=
  let parameter := stream.moveConstruct
  let r := make C parameter.1 bufferSize k
  (r.1, parameter.2, r.2.1.destroy r.2.2)

/-- The move constructor. -/
def moveConstruct (src : BufferedStream) : BufferedStream × BufferedStream :=
  let moved := src.stream.moveConstruct
  (⟨moved.1, src.streamBufferSize, src.streamBuffer, src.bufferWriteOffset⟩,
    { src with stream := moved.2, streamBuffer := invalidBuffer })

def stopReads (b : BufferedStream) (k : Kernel) : Kernel := b.stream.stopReads k

/-- The destructor, and that of the member `stream` after it. -/
def destroy (b : BufferedStream) (k : Kernel) : Kernel :=
  b.stream.destroy (if b.streamBuffer ≠ invalidBuffer then k.free b.streamBuffer else k)

end BufferedStream

/-! ## `Listener` and `ListenerBase` -/

/-- The members that the two classes have in common. -/
structure Listening where
  listenerSocketFd : Fd
  listenerEndFd : Fd
  stoppedAccepting : Bool
  deriving DecidableEq, Repr

/-- What both versions of `stopAccepting` do where no thread has been started. -/
def Listening.stop (l : Listening) (k : Kernel) : Listening × Kernel :=
  if l.stoppedAccepting then (l, k)
  else ({ l with stoppedAccepting := true },
    ((k.write l.listenerEndFd semaphoreValue).close l.listenerSocketFd).2)

/-- The calls from `setsockopt` to `listen`, which are the same for both IP versions. -/
def Listening.setUp (v : Verdicts) (reuse : Bool) (l : Listening) (k : Kernel) :
    Outcome Listening × Kernel :=
  match if reuse then v .setReuseAddr else none with
  | some errno => (.socketError .SOCKET_SET_OPTION errno, k)
  | none =>
      match if reuse then v .setReusePort else none with
      | some errno => (.socketError .SOCKET_SET_OPTION errno, k)
      | none =>
          match v .bind with
          | some errno => (.socketError .SOCKET_BIND errno, k)
          | none =>
              match v .listen with
              | some errno => (.socketError .SOCKET_LISTEN errno, k)
              | none => (.returned l, k)

namespace ListenerBase

variable (C : Choices) (v : Verdicts)

/-- The constructor. -/
def make (k : Kernel) : Outcome Listening × Kernel :=
  let e := k.eventfd C (v (.eventfd 0))
  if e.1 = -1 then (.threw (.runtimeError "Failed to create event_fd"), e.2)
  else match v .socket with
    | some errno => (.socketError .SOCKET_SOCKET errno, e.2)
    | none =>
        let r := e.2.openFd C
        Listening.setUp v true ⟨r.1, e.1, false⟩ r.2

def stopAccepting (l : Listening) (k : Kernel) : Listening × Kernel := l.stop k

/-- The destructor. -/
def destroy (l : Listening) (k : Kernel) : Kernel := (stopAccepting l k).2

end ListenerBase

/-- What `::poll` reports of the listening socket and of the end descriptor. -/
structure Marks where
  socket : Bool
  ending : Bool
  deriving DecidableEq, Repr

namespace Listener

variable (C : Choices) (v : Verdicts)

/-- The constructor, which does not look at the result of `eventfd`. -/
def make (reuse : Bool) (k : Kernel) : Outcome Listening × Kernel :=
  let e := k.eventfd C (v (.eventfd 0))
  match v .socket with
  | some errno => (.socketError .SOCKET_SOCKET errno, e.2)
  | none =>
      let r := e.2.openFd C
      Listening.setUp v reuse ⟨r.1, e.1, false⟩ r.2

/-- `accept(timeout)`, where `::poll` comes back with `marks`. `errno` is its value where no call has
failed. -/
def accept (l : Listening) (marks : Marks) (errno : Nat) (k : Kernel) : Outcome Stream × Kernel :=
  let k := { k with polled := l.listenerSocketFd :: l.listenerEndFd :: k.polled }
  match v .poll with
  | some errno => (.socketError .SOCKET_POLL errno, k)
  | none =>
      if marks.socket then
        let k := { k with accepted := l.listenerSocketFd :: k.accepted }
        match v .accept with
        | some errno => (.socketError .SOCKET_ACCEPT errno, k)
        | none =>
            let r := k.openFd C
            Stream.make C r.1 (v (.eventfd 0)) r.2
      else if marks.ending then (.socketError .SOCKET_TERMINATION_REQUEST errno, k)
      else (.socketError .SOCKET_ACCEPT errno, k)

def stopAccepting (l : Listening) (k : Kernel) : Listening × Kernel := l.stop k

/-- The destructor. -/
def destroy (l : Listening) (k : Kernel) : Kernel := (stopAccepting l k).2

end Listener

/-! ## `StreamFactory` -/

namespace StreamFactory

variable (C : Choices) (v : Verdicts)

/-- `CreatePipe`. When the second `Stream` cannot be built, the first one is destroyed. -/
def createPipe (k : Kernel) : Outcome (Stream × Stream) × Kernel :=
  match v .socketpair with
  | some errno => (.socketError .SOCKET_PAIR errno, k)
  | none =>
      let r₀ := k.openFd C
      let r₁ := r₀.2.openFd C
      match Stream.make C r₀.1 (v (.eventfd 0)) r₁.2 with
      | (.returned first, k) =>
          match Stream.make C r₁.1 (v (.eventfd 1)) k with
          | (.returned second, k) => (.returned (first, second), k)
          | (.threw e, k) => (.threw e, first.destroy k)
          | (.waiting, k) => (.waiting, k)
      | (.threw e, k) => (.threw e, k)
      | (.waiting, k) => (.waiting, k)

/-- `CreateTcpStreamToServer`, which makes the same calls for both IP versions. -/
def createTcpStreamToServer (k : Kernel) : Outcome Stream × Kernel :=
  match v .socket with
  | some errno => (.socketError .SOCKET_SOCKET errno, k)
  | none =>
      let r := k.openFd C
      match v .connect with
      | some errno => (.socketError .SOCKET_CONNECT errno, r.2)
      | none => Stream.make C r.1 (v (.eventfd 0)) r.2

end StreamFactory

end SocketWrapper.Descriptors
