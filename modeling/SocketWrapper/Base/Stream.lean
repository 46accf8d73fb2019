import SocketWrapper.Base.Exceptions

/-!
# `Stream` and the socket behind it

The kernel is a script of answers: one for each time that `Stream::read` polls. What the peer sends is
fixed in advance (`Socket.unread`), when it arrives and how it is cut is up to the answers.
-/

namespace SocketWrapper

/-- The source's `char`. -/
abbrev Byte := UInt8

/-- A file descriptor. -/
abbrev Fd := Int

/-- A `::read` on the socket: the number of bytes asked for and the bytes handed over. -/
structure ReadCall where
  requested : Nat
  bytes : List Byte
  deriving DecidableEq, Repr

/-- The receiving end of a connected socket. -/
structure Socket where
  /-- What the peer sends before it closes and no `::read` has taken yet. -/
  unread : List Byte
  /-- Every `::read` so far. -/
  calls : List ReadCall
  deriving DecidableEq, Repr

namespace Socket

/-- The bytes obtained from the socket so far. -/
def received (s : Socket) : List Byte := (s.calls.map ReadCall.bytes).flatten

/-- A `::read` that asked for at least one byte has returned 0. -/
def EndOfStream (s : Socket) : Prop := ∃ c ∈ s.calls, 1 ≤ c.requested ∧ c.bytes = []

/-- `::read`: at most `requested` bytes, and at most `available + 1` have arrived. -/
def read (s : Socket) (requested available : Nat) : List Byte × Socket :=
  let bytes := s.unread.take (min requested (available + 1))
  (bytes, ⟨s.unread.drop (min requested (available + 1)), s.calls ++ [⟨requested, bytes⟩]⟩)

end Socket

/-- What happens on the socket by the time a `poll` comes back. -/
inductive Answer
  /-- `poll` fails. -/
  | pollFails (errno : Nat)
  /-- The socket is marked; `available + 1` bytes have arrived, or the peer has closed. -/
  | readable (available : Nat)
  /-- The socket is marked and `::read` fails. -/
  | readFails (errno : Nat)
  /-- Nothing happens on the socket for as long as a timeout lasts. -/
  | quiet
  deriving DecidableEq, Repr

structure Stream where
  socket : Socket
  /-- The counter of `stop_all_operations_event_fd`; `poll` marks it when it is positive. -/
  stopEvent : Nat
  /-- The kernel's answers to the coming polls. -/
  answers : List Answer
  deriving DecidableEq, Repr

/-- The result of `Stream::read`, with the bytes that it has stored at `buffer`. -/
structure ReadResult where
  outcome : Outcome Nat
  stored : List Byte
  stream : Stream
  deriving DecidableEq, Repr

namespace Stream

/-- The loop of `Stream::read`, `stored` being what the earlier rounds have read. -/
def readLoop (maxBytesToRead minBytesToRead : Nat) (timeoutMs : Int) (stopEvent : Nat) :
    List Answer → Socket → List Byte → ReadResult
  | answers, socket, stored =>
      if minBytesToRead ≤ stored.length then ⟨.returned stored.length, stored, ⟨socket, stopEvent, answers⟩⟩
      else match answers with
        | [] =>
            if 0 < stopEvent then
              ⟨.socketError .SOCKET_TERMINATION_REQUEST 0, stored, ⟨socket, stopEvent, []⟩⟩
            else ⟨.waiting, stored, ⟨socket, stopEvent, []⟩⟩
        | .pollFails errno :: rest =>
            ⟨.socketError .SOCKET_POLL errno, stored, ⟨socket, stopEvent, rest⟩⟩
        | .readFails errno :: rest =>
            ⟨.socketError .SOCKET_READ errno, stored, ⟨socket, stopEvent, rest⟩⟩
        | .readable available :: rest =>
            -- the socket's mark is looked at before that of the stop event
            let r := socket.read (maxBytesToRead - stored.length) available
            if r.1 = [] then ⟨.socketError .SOCKET_CLOSED 0, stored, ⟨r.2, stopEvent, rest⟩⟩
            else readLoop maxBytesToRead minBytesToRead timeoutMs stopEvent rest r.2 (stored ++ r.1)
        | .quiet :: rest =>
            if 0 < stopEvent then
              ⟨.socketError .SOCKET_TERMINATION_REQUEST 0, stored, ⟨socket, stopEvent, rest⟩⟩
            else if timeoutMs < 0 then
              readLoop maxBytesToRead minBytesToRead timeoutMs stopEvent rest socket stored
            else ⟨.socketError .SOCKET_READ_TIMEOUT 0, stored, ⟨socket, stopEvent, rest⟩⟩

/-- `Stream::read`. -/
def read (s : Stream) (maxBytesToRead minBytesToRead : Nat) (timeoutMs : Int) : ReadResult :=
  readLoop maxBytesToRead minBytesToRead timeoutMs s.stopEvent s.answers s.socket []

/-- `Stream::stopReads`: the event counter goes up by `numeric_limits<uint16_t>::max()`. -/
def stopReads (s : Stream) : Stream := { s with stopEvent := s.stopEvent + 65535 }

end Stream

end SocketWrapper
