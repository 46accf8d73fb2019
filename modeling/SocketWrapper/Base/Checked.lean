import SocketWrapper.Base.Session

/-!
# `BufferedStream` with its arithmetic and its memory accesses checked

The same code once more. Every subtraction on `size_t`, every range of bytes that is looked at or stored
to and every new offset is checked where the source has it; a call that fails a check stops there. A null
pointer is a block of no bytes.
-/

namespace SocketWrapper

open FlatMemory

inductive Fault
  /-- A subtraction goes below zero. -/
  | underflow
  /-- A range is not inside the allocated block. -/
  | outside
  /-- `buffer_write_offset` becomes larger than `stream_buffer_size`. -/
  | beyond
  deriving DecidableEq, Repr

/-- What is checked, or the first check that fails. -/
abbrev Checked (α : Type) := Except Fault α

namespace Checked

def subtract (a b : Nat) : Checked Nat := if b ≤ a then .ok (a - b) else .error .underflow

/-- `length` bytes from `stream_buffer + start` on are looked at or stored to. -/
def touch (b : BufferedStream) (start length : Nat) : Checked Unit :=
  if start + length ≤ b.streamBuffer.length then .ok () else .error .outside

def setOffset (b : BufferedStream) (offset : Nat) : Checked BufferedStream :=
  if offset ≤ b.streamBufferSize then .ok { b with bufferWriteOffset := offset } else .error .beyond

/-- `memmove(stream_buffer, stream_buffer + src, length)`. -/
def memmove (b : BufferedStream) (src length : Nat) : Checked BufferedStream := do
  touch b src length
  touch b 0 length
  return { b with streamBuffer := moveToFront b.streamBuffer src length }

def andThen {α β : Type} (r : Checked (Outcome α × BufferedStream))
    (k : α → BufferedStream → Checked (Outcome β × BufferedStream)) : Checked (Outcome β × BufferedStream) :=
  r.bind fun
    | (.returned a, b) => k a b
    | (.threw e, b) => .ok (.threw e, b)
    | (.waiting, b) => .ok (.waiting, b)

/-- The constructor. `allocated` is whether `calloc` has returned a block. -/
def make (allocated : Bool) (srcStream : Stream) (bufferSize : Nat) : BufferedStream :=
  ⟨srcStream, bufferSize, if allocated then List.replicate bufferSize 0 else [], 0⟩

def popFromBuffer (b : BufferedStream) (bytesToRead : Nat) :
    Checked (Outcome (List Byte) × BufferedStream) :=
  if b.bufferWriteOffset < bytesToRead then
    .ok (.threw (.outOfRange ("the buffer does not contain enough data yet, should read " ++
      toString bytesToRead ++ " can read " ++ toString b.bufferWriteOffset)), b)
  else do
    touch b 0 bytesToRead
    let result := b.streamBuffer.take bytesToRead
    let offset ← subtract b.bufferWriteOffset result.length
    let b ← setOffset b offset
    let b ← memmove b bytesToRead b.bufferWriteOffset
    return (.returned result, b)

def readAvailableDataIntoBuffer (b : BufferedStream) (timeoutMs : Int) :
    Checked (Outcome Nat × BufferedStream) := do
  let room ← subtract b.streamBufferSize b.bufferWriteOffset
  -- where `Stream::read` may store
  touch b b.bufferWriteOffset room
  let r := b.stream.read room 1 timeoutMs
  let filled := { b with
    stream := r.stream, streamBuffer := store b.streamBuffer b.bufferWriteOffset r.stored }
  match r.outcome with
  | .returned readBytes =>
      let filled ← setOffset filled (b.bufferWriteOffset + readBytes)
      return (.returned readBytes, filled)
  | .threw e => return (.threw e, filled)
  | .waiting => return (.waiting, filled)

def readUntilDelimiterLoop (delimiterSequence : Byte) :
    Nat → BufferedStream → Checked (Outcome (List Byte) × BufferedStream)
  | 0, b => .ok (.threw (.logicError "could not find delimiter, even though the buffer is full"), b)
  | rounds + 1, b =>
      if b.bufferWriteOffset < b.streamBufferSize then
        andThen (readAvailableDataIntoBuffer b (-1)) fun _ b => do
          touch b 0 b.bufferWriteOffset
          match b.contents.findIdx? (· == delimiterSequence) with
          | some delimiterPos =>
              touch b 0 delimiterPos
              let result := b.streamBuffer.take delimiterPos
              let offset ← subtract b.bufferWriteOffset (result.length + 1)
              let b ← setOffset b offset
              let b ← memmove b (delimiterPos + 1) b.bufferWriteOffset
              return (.returned result, b)
          | none => readUntilDelimiterLoop delimiterSequence rounds b
      else .ok (.threw (.logicError "could not find delimiter, even though the buffer is full"), b)

def readUntilDelimiter (b : BufferedStream) (delimiterSequence : Byte) :
    Checked (Outcome (List Byte) × BufferedStream) :=
  readUntilDelimiterLoop delimiterSequence (b.streamBufferSize - b.bufferWriteOffset) b

def fillLoop (bytes : Nat) (timeoutMs : Int) :
    Nat → BufferedStream → Checked (Outcome Unit × BufferedStream)
  | 0, b => .ok (.returned (), b)
  | rounds + 1, b =>
      if b.bufferWriteOffset < bytes then
        andThen (readAvailableDataIntoBuffer b timeoutMs) fun _ b => fillLoop bytes timeoutMs rounds b
      else .ok (.returned (), b)

def read (b : BufferedStream) (bytesToRead : Nat) (timeoutMs : Int) :
    Checked (Outcome (List Byte) × BufferedStream) :=
  if b.streamBufferSize < bytesToRead then
    .ok (.threw (.logicError "buffer is to small for the requested read"), b)
  else
    andThen (fillLoop bytesToRead timeoutMs bytesToRead b) fun _ b => popFromBuffer b bytesToRead

def readInto (b : BufferedStream) (maxBytesToRead minBytesToRead : Nat) (timeoutMs : Int) :
    Checked (Outcome (List Byte) × BufferedStream) :=
  andThen (readAvailableDataIntoBuffer b timeoutMs) fun _ b =>
  andThen (fillLoop minBytesToRead timeoutMs minBytesToRead b) fun _ b =>
  popFromBuffer b (min b.bufferWriteOffset maxBytesToRead)

end Checked

/-! ## Sequences of calls -/

namespace BufferedStream

/-- A call of any of the functions that work on the buffer, the private ones too. -/
inductive Call
  | operation (op : Operation)
  | readAvailableDataIntoBuffer (timeoutMs : Int)
  | popFromBuffer (bytesToRead : Nat)
  /-- The calls after it are made on the new object. -/
  | moveConstruct

/-- The object after a call. -/
def after (b : BufferedStream) : Call → BufferedStream
  | .operation op => (b.perform op).2
  | .readAvailableDataIntoBuffer timeoutMs => (b.readAvailableDataIntoBuffer timeoutMs).2
  | .popFromBuffer n => (b.popFromBuffer n).2
  | .moveConstruct => b.moveConstruct

/-- On a buffer of this size with nothing in it, the call reads from the socket. -/
def Call.ReadsSocket (streamBufferSize : Nat) : Call → Prop
  | .operation (.readUntilDelimiter _) => 0 < streamBufferSize
  | .operation (.read n _) => 0 < n ∧ n ≤ streamBufferSize
  | .operation (.readInto _ _ _) => True
  | .readAvailableDataIntoBuffer _ => True
  | .popFromBuffer _ => False
  | .moveConstruct => False

end BufferedStream

namespace Checked

open BufferedStream

def perform (b : BufferedStream) : Operation → Checked (Outcome (List Byte) × BufferedStream)
  | .readUntilDelimiter d => readUntilDelimiter b d
  | .read n timeoutMs => read b n timeoutMs
  | .readInto most least timeoutMs => readInto b most least timeoutMs

def after (b : BufferedStream) : Call → Checked BufferedStream
  | .operation op => (perform b op).map Prod.snd
  | .readAvailableDataIntoBuffer timeoutMs => (readAvailableDataIntoBuffer b timeoutMs).map Prod.snd
  | .popFromBuffer n => (popFromBuffer b n).map Prod.snd
  | .moveConstruct => .ok b.moveConstruct

/-- The calls one after the other, each with whatever the socket does during it. -/
def run : BufferedStream → List (Stream × Call) → Checked BufferedStream
  | b, [] => .ok b
  | b, (stream, call) :: rest => (after { b with stream } call).bind fun b => run b rest

/-- Nothing is done that is checked for, and the offset is never behind the end of the buffer. -/
def StaysValid (b : BufferedStream) (calls : List (Stream × Call)) : Prop :=
  ∀ earlier, earlier <+: calls →
    ∃ b', run b earlier = .ok b' ∧ b'.bufferWriteOffset ≤ b'.streamBufferSize

end Checked

end SocketWrapper
