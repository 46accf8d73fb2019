import SocketWrapper.Base.Session
import SocketWrapper.Lib.Delimited

/-!
# Successive calls of `readUntilDelimiter`

What they are documented to do with a stream of segments, and with a buffer that has no room left.
-/

namespace SocketWrapper

namespace BufferedStream

/-- A new object on a socket whose peer sends `bytes` and closes. Every poll finds the socket readable,
and a `::read` gets as many bytes as have arrived until then. -/
def cutStream (bufferSize : Nat) (bytes : List Byte) (cuts : List Nat) : BufferedStream :=
  make ⟨⟨bytes, []⟩, 0, cuts.map .readable⟩ bufferSize

/-- The object before the `k`-th call. -/
def beforeLine (d : Byte) (b : BufferedStream) : Nat → BufferedStream
  | 0 => b
  | k + 1 => ((b.beforeLine d k).readUntilDelimiter d).2

/-- What becomes of the `k`-th call. -/
def line (d : Byte) (b : BufferedStream) (k : Nat) : Outcome (List Byte) :=
  ((b.beforeLine d k).readUntilDelimiter d).1

/-- The calls return the segments without their delimiters, all of them, and then report the end. -/
def DeliversLines (d : Byte) (b : BufferedStream) (segments : List (List Byte)) : Prop :=
  (∀ (k : Nat) (p : List Byte), segments[k]? = some (p ++ [d]) → b.line d k = .returned p) ∧
    (b.line d segments.length).ThrewType .SOCKET_CLOSED

/-- A segment whose delimiter is in the buffer is returned though nothing happens on the socket. -/
def NeedsNoMore (d : Byte) (b : BufferedStream) (segments : List (List Byte)) : Prop :=
  ∀ (k : Nat) (p : List Byte), segments[k]? = some (p ++ [d]) → d ∈ (b.beforeLine d k).contents →
    (((b.beforeLine d k).withFuture (b.beforeLine d k).stream.socket.unread []).readUntilDelimiter d).1 =
      .returned p

/-- If the call throws `std::logic_error` then the buffer is full, it does not contain the delimiter, and
the call has done nothing to it but to append what it has received. -/
def ReportsFull (d : Byte) (b : BufferedStream) : Prop :=
  ∀ what, (b.readUntilDelimiter d).1 = .threw (.logicError what) →
    (b.readUntilDelimiter d).2.contents.length = b.streamBufferSize ∧
    d ∉ (b.readUntilDelimiter d).2.contents ∧
    ∃ new, (b.readUntilDelimiter d).2.stream.socket.received = b.stream.socket.received ++ new ∧
      (b.readUntilDelimiter d).2.contents = b.contents ++ new

end BufferedStream

end SocketWrapper
