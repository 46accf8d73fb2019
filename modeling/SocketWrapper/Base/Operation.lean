import SocketWrapper.Base.BufferedStream

/-!
# The reading operations of `BufferedStream`
-/

namespace SocketWrapper

namespace BufferedStream

/-- A call of one of the reading operations, with its arguments. -/
inductive Operation
  | readUntilDelimiter (delimiterSequence : Byte)
  | read (bytesToRead : Nat) (timeoutMs : Int)
  | readInto (maxBytesToRead minBytesToRead : Nat) (timeoutMs : Int)

def perform (b : BufferedStream) : Operation → Outcome (List Byte) × BufferedStream
  | .readUntilDelimiter d => b.readUntilDelimiter d
  | .read n timeoutMs => b.read n timeoutMs
  | .readInto most least timeoutMs => b.readInto most least timeoutMs

/-- The same buffer and the same past, but from now on the peer sends `unread` and the kernel gives
`answers`. -/
def withFuture (b : BufferedStream) (unread : List Byte) (answers : List Answer) : BufferedStream :=
  { b with stream := ⟨⟨unread, b.stream.socket.calls⟩, b.stream.stopEvent, answers⟩ }

/-- One operation, with whatever the peer and the kernel do during it. -/
def operate (b : BufferedStream) (a : Operation × List Byte × List Answer) : BufferedStream :=
  ((b.withFuture a.2.1 a.2.2).perform a.1).2

/-- The buffer has room for every byte that the operation may ask the socket for. -/
def HasRoom (b : BufferedStream) : Operation → Prop
  | .readUntilDelimiter _ => True
  | .read _ _ => True
  | .readInto _ least _ => b.contents.length < b.streamBufferSize ∧ least ≤ b.streamBufferSize

/-- Whatever the peer and the kernel do, if the operation throws `SOCKET_CLOSED` then the end of the
stream has been reached. -/
def ClosedMeansEnd (b : BufferedStream) (op : Operation) : Prop :=
  ∀ unread answers, ((b.withFuture unread answers).perform op).1.ThrewType .SOCKET_CLOSED →
    ((b.withFuture unread answers).perform op).2.stream.socket.EndOfStream

/-- The two overloads of `read`, asked for `n` bytes, do the same with them and with the rest of the stream;
with `n` bytes in the buffer neither waits, and more than the buffer can hold is refused by both before
anything is done. -/
structure OverloadsAgree (b : BufferedStream) (n : Nat) (timeoutMs : Int) : Prop where
  outcome : (b.read n timeoutMs).1 = (b.readInto n n timeoutMs).1
  rest : (b.read n timeoutMs).2.contents ++ (b.read n timeoutMs).2.stream.socket.unread =
    (b.readInto n n timeoutMs).2.contents ++ (b.readInto n n timeoutMs).2.stream.socket.unread
  /-- Nothing happens on the socket during the calls. -/
  buffered : n ≤ b.contents.length →
    ((b.withFuture b.stream.socket.unread []).read n timeoutMs).1.isReturned ∧
    ((b.withFuture b.stream.socket.unread []).readInto n n timeoutMs).1.isReturned
  upFront : b.streamBufferSize < n →
    (∃ what, b.read n timeoutMs = (.threw (.logicError what), b)) ∧
    ∃ what, b.readInto n n timeoutMs = (.threw (.logicError what), b)

end BufferedStream

end SocketWrapper
