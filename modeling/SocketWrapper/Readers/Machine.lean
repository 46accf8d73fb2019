import SocketWrapper.Base.Stream
import SocketWrapper.Lib.Calls
import SocketWrapper.Lib.Interleaved
import SocketWrapper.Lib.Transition

/-!
# Threads that call `Stream::read` on one `Stream`

A step is a round of the loop, which holds the read mutex: between two rounds of a call the mutex is free.
-/

namespace SocketWrapper

/-- A call of `Stream::read`, with what it has stored at `buffer` so far. -/
structure StreamRead where
  maxBytesToRead : Nat
  minBytesToRead : Nat
  timeoutMs : Int
  stored : List Byte
  deriving DecidableEq, Repr

namespace StreamRead

/-- A round of the loop: the exception that ends the call, or none, and the bytes that are stored. -/
def round (call : StreamRead) (stopEvent : Nat) : Answer → Socket → Option (Outcome Nat) × List Byte × Socket
  | .pollFails errno, socket => (some (.socketError .SOCKET_POLL errno), [], socket)
  | .readFails errno, socket => (some (.socketError .SOCKET_READ errno), [], socket)
  | .readable available, socket =>
      let r := socket.read (call.maxBytesToRead - call.stored.length) available
      (if r.1 = [] then some (.socketError .SOCKET_CLOSED 0) else none, r.1, r.2)
  | .quiet, socket =>
      (if 0 < stopEvent then some (.socketError .SOCKET_TERMINATION_REQUEST 0)
        else if call.timeoutMs < 0 then none
        else some (.socketError .SOCKET_READ_TIMEOUT 0), [], socket)

/-- A part of what the call needs is in its buffer. -/
def Partway (call : StreamRead) : Prop :=
  call.stored ≠ [] ∧ call.stored.length < call.minBytesToRead

instance (call : StreamRead) : Decidable call.Partway := inferInstanceAs (Decidable (_ ∧ _))

/-- The call can still get all the bytes it needs if the peer has `left` more. -/
def CanFinish (call : StreamRead) (left : Nat) : Prop :=
  call.minBytesToRead ≤ call.maxBytesToRead ∧ call.minBytesToRead ≤ call.stored.length + left

instance (call : StreamRead) (left : Nat) : Decidable (call.CanFinish left) :=
  inferInstanceAs (Decidable (_ ∧ _))

end StreamRead

/-- A call that has come back, with what is in its buffer. -/
structure StreamReadDone where
  number : Nat
  stored : List Byte
  outcome : Outcome Nat
  deriving DecidableEq, Repr

structure StreamReaders where
  socket : Socket
  stopEvent : Nat
  calls : Calls StreamRead
  /-- History: the bytes that have been received, each with the number of the call that it was stored for. -/
  taken : List (Nat × Byte)
  completions : List StreamReadDone

namespace StreamReaders

inductive Action
  | call (thread maxBytesToRead minBytesToRead : Nat) (timeoutMs : Int)
  | round (thread : Nat) (answer : Answer)
  /-- The call of a thread has as many bytes as it needs. -/
  | finish (thread : Nat)
  | stopReads
  deriving DecidableEq

/-- A socket whose peer sends `sent`. No thread has called anything. -/
def start (sent : List Byte) (threads : Nat) : StreamReaders := ⟨⟨sent, []⟩, 0, .start threads, [], []⟩

/-- The call of a thread comes back. -/
def complete (m : StreamReaders) (thread number : Nat) (call : StreamRead) (outcome : Outcome Nat) :
    StreamReaders :=
  { m with
    calls := m.calls.leave thread
    completions := m.completions ++ [⟨number, call.stored, outcome⟩] }

def step (m : StreamReaders) : Action → Option StreamReaders
  | .call thread maxBytesToRead minBytesToRead timeoutMs =>
      match m.calls.threads[thread]? with
      | some none => some { m with
          calls := m.calls.enter thread ⟨maxBytesToRead, minBytesToRead, timeoutMs, []⟩ }
      | _ => none
  | .round thread answer =>
      match m.calls.call? thread with
      | some (number, call) =>
          if call.stored.length < call.minBytesToRead then
            let r := call.round m.stopEvent answer m.socket
            let m := { m with socket := r.2.2, taken := m.taken ++ Interleaved.tag number r.2.1 }
            match r.1 with
            | some outcome => some (m.complete thread number call outcome)
            | none => some { m with
                calls := m.calls.goOn thread number { call with stored := call.stored ++ r.2.1 } }
          else none
      | none => none
  | .finish thread =>
      match m.calls.call? thread with
      | some (number, call) =>
          if call.minBytesToRead ≤ call.stored.length then
            some (m.complete thread number call (.returned call.stored.length))
          else none
      | none => none
  | .stopReads => some { m with stopEvent := m.stopEvent + 65535 }

/-- The bytes that the calls have stored are those that the peer has sent, and every call that has returned
has one piece of them, which no other call has a part of. -/
structure Contiguous (sent : List Byte) (m : StreamReaders) : Prop where
  inOrder : m.taken.map Prod.snd ++ m.socket.unread = sent
  piece : ∀ c ∈ m.completions, ∀ count, c.outcome = .returned count →
    c.stored.length = count ∧ Interleaved.Block m.taken c.number c.stored
  numbers : (m.completions.map StreamReadDone.number).Nodup

/-- Nothing is received by a call while another is partway that can still get all it needs from the rest. -/
def Undisturbed (m : StreamReaders) : Action → Prop
  | .round thread (.readable available) => ∀ mine ∈ m.calls.call? thread,
      ∀ call ∈ m.calls.others thread, call.Partway →
        let r := m.socket.read (mine.2.maxBytesToRead - mine.2.stored.length) available
        r.1 = [] ∨ ¬ call.CanFinish r.2.unread.length
  | _ => True

instance (m : StreamReaders) (a : Action) : Decidable (m.Undisturbed a) :=
  match a with
  | .round thread (.readable available) => inferInstanceAs (Decidable (∀ mine ∈ m.calls.call? thread,
      ∀ call ∈ m.calls.others thread, call.Partway →
        let r := m.socket.read (mine.2.maxBytesToRead - mine.2.stored.length) available
        r.1 = [] ∨ ¬ call.CanFinish r.2.unread.length))
  | .round _ (.pollFails _) => inferInstanceAs (Decidable True)
  | .round _ (.readFails _) => inferInstanceAs (Decidable True)
  | .round _ .quiet => inferInstanceAs (Decidable True)
  | .call _ _ _ _ => inferInstanceAs (Decidable True)
  | .finish _ => inferInstanceAs (Decidable True)
  | .stopReads => inferInstanceAs (Decidable True)

end StreamReaders

end SocketWrapper
