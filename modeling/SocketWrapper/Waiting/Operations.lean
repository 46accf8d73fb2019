import SocketWrapper.Base.BufferedStream
import SocketWrapper.Conditional.Stream
import SocketWrapper.Datagram.Socket

/-!
# The operations that wait for data

What each class makes of a `::poll` that comes back with nothing ready.
-/

namespace SocketWrapper

open Descriptors

/-- How a `::poll` comes back with nothing ready, and what `errno` is then. -/
inductive PollEnd
  | expired (errno : Nat)
  | failed (errno : Nat)
  deriving DecidableEq

namespace PollEnd

def isExpired : PollEnd → Bool
  | .expired _ => true
  | .failed _ => false

/-- Without a timeout it does not expire. -/
def Possible (timeoutMs : Int) : PollEnd → Prop
  | .expired _ => 0 ≤ timeoutMs
  | .failed _ => True

/-- Seen from `Stream::read`. -/
def answer : PollEnd → Answer
  | .expired _ => .quiet
  | .failed errno => .pollFails errno

/-- Seen from `UdpDatagram::read`. -/
def datagramAnswer : PollEnd → DatagramAnswer
  | .expired errno => ⟨some ⟨0, false, false⟩, .fails 0, none, errno⟩
  | .failed errno => ⟨some ⟨-1, false, false⟩, .fails 0, none, errno⟩

end PollEnd

/-- One more answer of the kernel, after those that it has given. -/
def Stream.more (s : Stream) (a : Answer) : Stream := { s with answers := s.answers ++ [a] }

def BufferedStream.more (b : BufferedStream) (a : Answer) : BufferedStream :=
  { b with stream := b.stream.more a }

/-- A call of an operation that may have to wait, with its arguments but for the timeout. -/
inductive BlockingReceive
  | stream (s : Stream) (maxBytesToRead minBytesToRead : Nat)
  | buffered (b : BufferedStream) (bytesToRead : Nat)
  | bufferedInto (b : BufferedStream) (maxBytesToRead minBytesToRead : Nat)
  | readBlocking (s : ConditionalBufferedStream) (conditionFd : Fd)
  | datagram (u : UdpDatagram)

namespace BlockingReceive

/-- With the answers that the kernel has given the call is at a `::poll`, and no stop has been requested. -/
def Waits (timeoutMs : Int) : BlockingReceive → Prop
  | .stream s most least => (s.read most least timeoutMs).outcome = .waiting
  | .buffered b n => (b.read n timeoutMs).1 = .waiting
  | .bufferedInto b most least => (b.readInto most least timeoutMs).1 = .waiting
  | .readBlocking s fd => s.eventFds.counter fd = 0 ∧ s.terminationRequested = false
  | .datagram _ => True

/-- The call throws a `SocketException` of type `t` after its `::poll` has come back. -/
def ThrowsAfter (timeoutMs : Int) (e : PollEnd) (t : SocketExceptionType) : BlockingReceive → Prop
  | .stream s most least => ((s.more e.answer).read most least timeoutMs).outcome.ThrewType t
  | .buffered b n => ((b.more e.answer).read n timeoutMs).1.ThrewType t
  | .bufferedInto b most least => ((b.more e.answer).readInto most least timeoutMs).1.ThrewType t
  | .readBlocking s fd =>
      match e with
      | .expired errno => (s.readBlocking fd timeoutMs false errno).1.ThrewType t
      | .failed errno => (s.readBlocking fd timeoutMs true errno).1.ThrewType t
  | .datagram u => (u.read (fun _ => e.datagramAnswer) timeoutMs []).1.ThrewType t

/-- The call throws `SOCKET_READ_TIMEOUT` exactly if its `::poll` has expired, and `SOCKET_POLL` exactly if it
has failed. -/
def Classifies (op : BlockingReceive) (timeoutMs : Int) (e : PollEnd) : Prop :=
  (op.ThrowsAfter timeoutMs e .SOCKET_READ_TIMEOUT ↔ e.isExpired = true) ∧
    (op.ThrowsAfter timeoutMs e .SOCKET_POLL ↔ e.isExpired = false)

/-- The operations that tell the one from the other: those of `Stream` and `BufferedStream`; and
`UdpDatagram::read` where the result of `::poll` is the timeout if it is -1, and otherwise is not. -/
def TellsApart (timeoutMs : Int) (e : PollEnd) : BlockingReceive → Prop
  | .stream _ _ _ => True
  | .buffered _ _ => True
  | .bufferedInto _ _ _ => True
  | .readBlocking _ _ => False
  | .datagram _ => if e.isExpired then timeoutMs ≠ 0 else timeoutMs = -1

instance (timeoutMs : Int) (e : PollEnd) (op : BlockingReceive) : Decidable (op.TellsApart timeoutMs e) :=
  match op with
  | .stream _ _ _ => inferInstanceAs (Decidable True)
  | .buffered _ _ => inferInstanceAs (Decidable True)
  | .bufferedInto _ _ _ => inferInstanceAs (Decidable True)
  | .readBlocking _ _ => inferInstanceAs (Decidable False)
  | .datagram _ => inferInstanceAs (Decidable (if e.isExpired then timeoutMs ≠ 0 else timeoutMs = -1))

end BlockingReceive

end SocketWrapper
