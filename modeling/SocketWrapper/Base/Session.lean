import SocketWrapper.Base.Operation

/-!
# The life of a `BufferedStream` between its construction and its destruction

Reads, each ending in whatever way the kernel makes it end, stops, and moves to another object.
-/

namespace SocketWrapper

namespace BufferedStream

/-- The move constructor. The source keeps neither the socket nor the block, and is not read from
again. -/
def moveConstruct (src : BufferedStream) : BufferedStream where
  stream := src.stream
  streamBufferSize := src.streamBufferSize
  streamBuffer := src.streamBuffer
  bufferWriteOffset := src.bufferWriteOffset

/-- `BufferedStream::stopReads`. -/
def stopReads (b : BufferedStream) : BufferedStream := { b with stream := b.stream.stopReads }

/-- The bytes that a call has taken out of the stream for its caller. `readUntilDelimiter` removes the
delimiter and does not return it. -/
def handedOut : Operation × Outcome (List Byte) → List Byte
  | (.readUntilDelimiter d, .returned bytes) => bytes ++ [d]
  | (.read _ _, .returned bytes) => bytes
  | (.readInto _ _ _, .returned bytes) => bytes
  | (_, .threw _) => []
  | (_, .waiting) => []

/-- What happens next. -/
inductive Event
  /-- A read, during which the kernel gives `answers`. -/
  | call (op : Operation) (answers : List Answer)
  | moveConstruct
  | stopReads

/-- The object that holds the stream now, and the calls so far with what became of them. -/
structure Session where
  object : BufferedStream
  calls : List (Operation × Outcome (List Byte))

namespace Session

/-- A new object on a socket whose peer sends `sent`. -/
def start (sent : List Byte) (bufferSize : Nat) : Session :=
  ⟨make ⟨⟨sent, []⟩, 0, []⟩ bufferSize, []⟩

def step (s : Session) : Event → Session
  | .call op answers =>
      let r := (s.object.withFuture s.object.stream.socket.unread answers).perform op
      ⟨r.2, s.calls ++ [(op, r.1)]⟩
  | .moveConstruct => { s with object := s.object.moveConstruct }
  | .stopReads => { s with object := s.object.stopReads }

def run (s : Session) (events : List Event) : Session := events.foldl step s

/-- Everything that the callers have been given, in order. -/
def handed (s : Session) : List Byte := (s.calls.map handedOut).flatten

end Session

end BufferedStream

end SocketWrapper
