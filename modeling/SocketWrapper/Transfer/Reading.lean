import SocketWrapper.Base.Stream
import SocketWrapper.Lib.FlatMemory

/-!
# `Stream::read` into the caller's block

The same loop with the block of memory that `buffer` points to. A `::read` stores at
`buffer + read_bytes`.
-/

namespace SocketWrapper

open FlatMemory

/-- The result of `Stream::read`, with the caller's block. -/
structure BlockResult where
  outcome : Outcome Nat
  buffer : List Byte
  stream : Stream
  deriving DecidableEq, Repr

namespace Stream

/-- The loop, from where `readBytes` bytes have been read. -/
def readToLoop (maxBytesToRead minBytesToRead : Nat) (timeoutMs : Int) (stopEvent : Nat) :
    List Answer → Socket → List Byte → Nat → BlockResult
  | answers, socket, buffer, readBytes =>
      if minBytesToRead ≤ readBytes then ⟨.returned readBytes, buffer, ⟨socket, stopEvent, answers⟩⟩
      else match answers with
        | [] =>
            if 0 < stopEvent then
              ⟨.socketError .SOCKET_TERMINATION_REQUEST 0, buffer, ⟨socket, stopEvent, []⟩⟩
            else ⟨.waiting, buffer, ⟨socket, stopEvent, []⟩⟩
        | .pollFails errno :: rest =>
            ⟨.socketError .SOCKET_POLL errno, buffer, ⟨socket, stopEvent, rest⟩⟩
        | .readFails errno :: rest =>
            ⟨.socketError .SOCKET_READ errno, buffer, ⟨socket, stopEvent, rest⟩⟩
        | .readable available :: rest =>
            let r := socket.read (maxBytesToRead - readBytes) available
            if r.1 = [] then ⟨.socketError .SOCKET_CLOSED 0, buffer, ⟨r.2, stopEvent, rest⟩⟩
            else readToLoop maxBytesToRead minBytesToRead timeoutMs stopEvent rest r.2
              (store buffer readBytes r.1) (readBytes + r.1.length)
        | .quiet :: rest =>
            if 0 < stopEvent then
              ⟨.socketError .SOCKET_TERMINATION_REQUEST 0, buffer, ⟨socket, stopEvent, rest⟩⟩
            else if timeoutMs < 0 then
              readToLoop maxBytesToRead minBytesToRead timeoutMs stopEvent rest socket buffer readBytes
            else ⟨.socketError .SOCKET_READ_TIMEOUT 0, buffer, ⟨socket, stopEvent, rest⟩⟩

/-- `Stream::read(buffer, max_bytes_to_read, min_bytes_to_read, timeout_ms)`. -/
def readTo (s : Stream) (buffer : List Byte) (maxBytesToRead minBytesToRead : Nat) (timeoutMs : Int) :
    BlockResult :=
  readToLoop maxBytesToRead minBytesToRead timeoutMs s.stopEvent s.answers s.socket buffer 0

/-- The bytes that calls of `::read` have got. -/
def gotten (calls : List ReadCall) : List Byte := (calls.map ReadCall.bytes).flatten

/-- If the call throws, it has taken nothing from the socket, or `processed_bytes` is the number of bytes
that it has taken and that are at the front of the caller's block. -/
def ReportsTaken (s : Stream) (buffer : List Byte) (maxBytesToRead minBytesToRead : Nat) (timeoutMs : Int) :
    Prop :=
  let r := s.readTo buffer maxBytesToRead minBytesToRead timeoutMs
  ∀ e, r.outcome = .threw e → r.stream.socket.unread = s.socket.unread ∨
    ∃ ex n, e = .socket ex ∧ ex.processedBytes = (n : Nat) ∧
      r.stream.socket.unread = s.socket.unread.drop n ∧ r.buffer.take n = s.socket.unread.take n

/-! ## When a call is cut short -/

/-- The bytes that arrive with the first `k` polls. -/
def arrived (answers : List Answer) (k : Nat) : Nat :=
  ((answers.take k).map fun
    | .readable available => available + 1
    | _ => 0).sum

/-- A poll that does not end a call that needs more bytes. -/
def GoesOn (stopEvent : Nat) (timeoutMs : Int) : Answer → Prop
  | .readable _ => True
  | .quiet => stopEvent = 0 ∧ timeoutMs < 0
  | .pollFails _ => False
  | .readFails _ => False

/-- The `k`-th poll ends a call that needs more bytes: it fails, its time is up, it finds the stop event,
its `::read` fails, or the peer has closed and all its bytes have been taken. -/
def CutShort (unread : List Byte) (stopEvent : Nat) (timeoutMs : Int) (answers : List Answer) (k : Nat) :
    Prop :=
  match answers[k]? with
  | none => 0 < stopEvent
  | some (.readable _) => unread.length ≤ arrived answers k
  | some a => ¬ GoesOn stopEvent timeoutMs a

/-- Where the call would be cut short, none of its bytes have arrived yet, or as many as it needs. -/
def CutWhole (unread : List Byte) (stopEvent : Nat) (timeoutMs : Int) (answers : List Answer)
    (minBytesToRead : Nat) : Prop :=
  ∀ k ≤ answers.length, (∀ a ∈ answers.take k, GoesOn stopEvent timeoutMs a) →
    CutShort unread stopEvent timeoutMs answers k →
    min (arrived answers k) unread.length = 0 ∨ minBytesToRead ≤ min (arrived answers k) unread.length

instance (stopEvent : Nat) (timeoutMs : Int) : DecidablePred (GoesOn stopEvent timeoutMs)
  | .readable _ => inferInstanceAs (Decidable True)
  | .quiet => inferInstanceAs (Decidable (_ ∧ _))
  | .pollFails _ => inferInstanceAs (Decidable False)
  | .readFails _ => inferInstanceAs (Decidable False)

instance (unread : List Byte) (stopEvent : Nat) (timeoutMs : Int) (answers : List Answer) (k : Nat) :
    Decidable (CutShort unread stopEvent timeoutMs answers k) :=
  match h : answers[k]? with
  | none => decidable_of_iff (0 < stopEvent) (by simp [CutShort, h])
  | some (.readable _) => decidable_of_iff (unread.length ≤ arrived answers k) (by simp [CutShort, h])
  | some .quiet => decidable_of_iff (¬ GoesOn stopEvent timeoutMs .quiet) (by simp [CutShort, h])
  | some (.pollFails errno) => decidable_of_iff True (by simp [CutShort, h, GoesOn])
  | some (.readFails errno) => decidable_of_iff True (by simp [CutShort, h, GoesOn])

instance (unread : List Byte) (stopEvent : Nat) (timeoutMs : Int) (answers : List Answer)
    (minBytesToRead : Nat) : Decidable (CutWhole unread stopEvent timeoutMs answers minBytesToRead) :=
  inferInstanceAs (Decidable (∀ k ≤ answers.length, _ → _ → _))

end Stream

end SocketWrapper
