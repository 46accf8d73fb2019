import SocketWrapper.Base.Stream
import SocketWrapper.Lib.FlatMemory

/-!
# `BufferedStream`

The allocated block is kept whole: the bytes behind `bufferWriteOffset` are whatever earlier
operations have left there.
-/

namespace SocketWrapper

open FlatMemory

/-- `a - b` on `size_t`, which wraps around below zero. -/
def sizeSub (a b : Nat) : Nat := if b ≤ a then a - b else a + 2 ^ 64 - b

theorem sizeSub_of_le {a b : Nat} (h : b ≤ a) : sizeSub a b = a - b := if_pos h

structure BufferedStream where
  stream : Stream
  streamBufferSize : Nat
  /-- The block of `streamBufferSize` bytes that the constructor allocates. -/
  streamBuffer : List Byte
  bufferWriteOffset : Nat
  deriving DecidableEq, Repr

namespace BufferedStream

/-- The constructor. -/
def make (srcStream : Stream) (bufferSize : Nat) : BufferedStream :=
  ⟨srcStream, bufferSize, List.replicate bufferSize 0, 0⟩

/-- The bytes that are in the buffer. -/
def contents (b : BufferedStream) : List Byte := b.streamBuffer.take b.bufferWriteOffset

/-- The offset stays inside the allocated block. -/
structure Valid (b : BufferedStream) : Prop where
  length_eq : b.streamBuffer.length = b.streamBufferSize
  offset_le : b.bufferWriteOffset ≤ b.streamBufferSize

def popFromBuffer (b : BufferedStream) (bytesToRead : Nat) : Outcome (List Byte) × BufferedStream :=
  if b.bufferWriteOffset < bytesToRead then
    (.threw (.outOfRange ("the buffer does not contain enough data yet, should read " ++
      toString bytesToRead ++ " can read " ++ toString b.bufferWriteOffset)), b)
  else
    let result := b.streamBuffer.take bytesToRead
    let offset := sizeSub b.bufferWriteOffset result.length
    (.returned result, { b with
      bufferWriteOffset := offset
      streamBuffer := moveToFront b.streamBuffer bytesToRead offset })

def readAvailableDataIntoBuffer (b : BufferedStream) (timeoutMs : Int) : Outcome Nat × BufferedStream :=
  let r := b.stream.read (sizeSub b.streamBufferSize b.bufferWriteOffset) 1 timeoutMs
  let filled := { b with
    stream := r.stream, streamBuffer := store b.streamBuffer b.bufferWriteOffset r.stored }
  match r.outcome with
  | .returned readBytes =>
      (.returned readBytes, { filled with bufferWriteOffset := b.bufferWriteOffset + readBytes })
  | .threw e => (.threw e, filled)
  | .waiting => (.waiting, filled)

/-- The loop of `readUntilDelimiter`. Each round adds a byte, so as many rounds as there is room for
are enough. The read in it is that of `readAvailableDataIntoBuffer`, written out in the source. -/
def readUntilDelimiterLoop (delimiterSequence : Byte) :
    Nat → BufferedStream → Outcome (List Byte) × BufferedStream
  | 0, b => (.threw (.logicError "could not find delimiter, even though the buffer is full"), b)
  | rounds + 1, b =>
      if b.bufferWriteOffset < b.streamBufferSize then
        Outcome.andThen (b.readAvailableDataIntoBuffer (-1)) fun _ b =>
        match b.contents.findIdx? (· == delimiterSequence) with
        | some delimiterPos =>
            let result := b.streamBuffer.take delimiterPos
            let offset := sizeSub b.bufferWriteOffset (result.length + 1)
            (.returned result, { b with
              bufferWriteOffset := offset
              streamBuffer := moveToFront b.streamBuffer (delimiterPos + 1) offset })
        | none => readUntilDelimiterLoop delimiterSequence rounds b
      else (.threw (.logicError "could not find delimiter, even though the buffer is full"), b)

def readUntilDelimiter (b : BufferedStream) (delimiterSequence : Byte) :
    Outcome (List Byte) × BufferedStream :=
  readUntilDelimiterLoop delimiterSequence (b.streamBufferSize - b.bufferWriteOffset) b

/-- `while (buffer_write_offset < bytes) readAvailableDataIntoBuffer(timeout_ms)`; each round adds a
byte, so `bytes` rounds are enough. -/
def fillLoop (bytes : Nat) (timeoutMs : Int) : Nat → BufferedStream → Outcome Unit × BufferedStream
  | 0, b => (.returned (), b)
  | rounds + 1, b =>
      if b.bufferWriteOffset < bytes then
        Outcome.andThen (b.readAvailableDataIntoBuffer timeoutMs) fun _ b =>
        fillLoop bytes timeoutMs rounds b
      else (.returned (), b)

/-- `read(bytes_to_read, timeout_ms)`. -/
def read (b : BufferedStream) (bytesToRead : Nat) (timeoutMs : Int) :
    Outcome (List Byte) × BufferedStream :=
  if b.streamBufferSize < bytesToRead then
    (.threw (.logicError "buffer is to small for the requested read"), b)
  else
    Outcome.andThen (fillLoop bytesToRead timeoutMs bytesToRead b) fun _ b =>
    b.popFromBuffer bytesToRead

/-- `read(buffer, max_bytes_to_read, min_bytes_to_read, timeout_ms)`, with the bytes that are stored at
`buffer`. Its `do` loop reads once before the fill level is looked at. -/
def readInto (b : BufferedStream) (maxBytesToRead minBytesToRead : Nat) (timeoutMs : Int) :
    Outcome (List Byte) × BufferedStream :=
  Outcome.andThen (b.readAvailableDataIntoBuffer timeoutMs) fun _ b =>
  Outcome.andThen (fillLoop minBytesToRead timeoutMs minBytesToRead b) fun _ b =>
  b.popFromBuffer (min b.bufferWriteOffset maxBytesToRead)

end BufferedStream

end SocketWrapper
