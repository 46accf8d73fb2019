import SocketWrapper.Base.Operation
import SocketWrapper.Lib.Calls
import SocketWrapper.Lib.Interleaved
import SocketWrapper.Lib.Transition

/-!
# Threads that call `read(bytes_to_read, timeout_ms)` on one `BufferedStream`

`buffer_lock` is held by `readAvailableDataIntoBuffer` and by `PopFromBuffer`, each for itself, so that a
call is a sequence of steps: the comparison with the size of the buffer, the test of the fill level, the
refills and the pop.
-/

namespace SocketWrapper

/-- Where a call is: at the step that the name says. -/
inductive FillAt
  | checking
  | testing
  | filling
  | popping
  deriving DecidableEq, Repr

structure BufferedRead where
  bytesToRead : Nat
  timeoutMs : Int
  place : FillAt
  deriving DecidableEq, Repr

/-- A call that has come back. -/
structure BufferedReadDone where
  number : Nat
  bytesToRead : Nat
  outcome : Outcome (List Byte)
  deriving DecidableEq, Repr

structure BufferedReaders where
  object : BufferedStream
  calls : Calls BufferedRead
  /-- History: the bytes that have been popped, each with the number of the call that has popped it. -/
  handed : List (Nat × Byte)
  completions : List BufferedReadDone

namespace BufferedReaders

inductive Action
  | call (thread bytesToRead : Nat) (timeoutMs : Int)
  | check (thread : Nat)
  | test (thread : Nat)
  /-- A refill, during which the kernel gives `answers`. -/
  | fill (thread : Nat) (answers : List Answer)
  | pop (thread : Nat)
  deriving DecidableEq

/-- A new object on a socket whose peer sends `sent`. No thread has called anything. -/
def start (sent : List Byte) (bufferSize threads : Nat) : BufferedReaders :=
  ⟨.make ⟨⟨sent, []⟩, 0, []⟩ bufferSize, .start threads, [], []⟩

/-- The call of a thread comes back. -/
def complete (m : BufferedReaders) (thread number : Nat) (call : BufferedRead)
    (outcome : Outcome (List Byte)) : BufferedReaders :=
  { m with
    calls := m.calls.leave thread
    completions := m.completions ++ [⟨number, call.bytesToRead, outcome⟩] }

/-- The call of a thread goes on at another step. -/
def moveTo (m : BufferedReaders) (thread number : Nat) (call : BufferedRead) (place : FillAt) :
    BufferedReaders :=
  { m with calls := m.calls.goOn thread number { call with place := place } }

/-- A step of the call that the thread is in. A refill that would wait for the kernel is none. -/
def stepCall (m : BufferedReaders) (thread number : Nat) (call : BufferedRead) :
    Action → Option BufferedReaders
  | .check _ =>
      if call.place = .checking then
        if m.object.streamBufferSize < call.bytesToRead then
          some (m.complete thread number call
            (.threw (.logicError "buffer is to small for the requested read")))
        else some (m.moveTo thread number call .testing)
      else none
  | .test _ =>
      if call.place = .testing then
        some (m.moveTo thread number call
          (if m.object.bufferWriteOffset < call.bytesToRead then .filling else .popping))
      else none
  | .fill _ answers =>
      if call.place = .filling then
        let r := (m.object.withFuture m.object.stream.socket.unread answers).readAvailableDataIntoBuffer
          call.timeoutMs
        let m := { m with object := r.2 }
        match r.1 with
        | .returned _ => some (m.moveTo thread number call .testing)
        | .threw e => some (m.complete thread number call (.threw e))
        | .waiting => none
      else none
  | .pop _ =>
      if call.place = .popping then
        let r := m.object.popFromBuffer call.bytesToRead
        let bytes := match r.1 with
          | .returned bytes => bytes
          | _ => []
        some ({ m with
          object := r.2
          handed := m.handed ++ Interleaved.tag number bytes }.complete thread number call r.1)
      else none
  | .call _ _ _ => none

def step (m : BufferedReaders) (a : Action) : Option BufferedReaders :=
  match a with
  | .call thread bytesToRead timeoutMs =>
      match m.calls.threads[thread]? with
      | some none => some { m with calls := m.calls.enter thread ⟨bytesToRead, timeoutMs, .checking⟩ }
      | _ => none
  | .check thread | .test thread | .fill thread _ | .pop thread =>
      match m.calls.call? thread with
      | some (number, call) => m.stepCall thread number call a
      | none => none

/-- Every call that has returned gave as many bytes as were asked for, and they are one piece of what the
peer has sent, which no other call has a part of. -/
structure EachItsPiece (sent : List Byte) (m : BufferedReaders) : Prop where
  inOrder : m.handed.map Prod.snd ++ m.object.contents ++ m.object.stream.socket.unread = sent
  piece : ∀ c ∈ m.completions, ∀ bytes, c.outcome = .returned bytes →
    bytes.length = c.bytesToRead ∧ Interleaved.Block m.handed c.number bytes
  numbers : (m.completions.map BufferedReadDone.number).Nodup

/-- No call has found less in the buffer than its test had found. -/
def NeverOutOfRange (m : BufferedReaders) : Prop :=
  ∀ c ∈ m.completions, ∀ what, c.outcome ≠ .threw (.outOfRange what)

/-- A pop leaves enough for every other call that is past its test. -/
def LeavesEnough (m : BufferedReaders) : Action → Prop
  | .pop thread => ∀ mine ∈ m.calls.call? thread, ∀ call ∈ m.calls.others thread,
      call.place = .popping → mine.2.bytesToRead + call.bytesToRead ≤ m.object.contents.length
  | _ => True

instance (m : BufferedReaders) (a : Action) : Decidable (m.LeavesEnough a) :=
  match a with
  | .pop thread => inferInstanceAs (Decidable (∀ mine ∈ m.calls.call? thread,
      ∀ call ∈ m.calls.others thread, call.place = .popping →
        mine.2.bytesToRead + call.bytesToRead ≤ m.object.contents.length))
  | .call _ _ _ => inferInstanceAs (Decidable True)
  | .check _ => inferInstanceAs (Decidable True)
  | .test _ => inferInstanceAs (Decidable True)
  | .fill _ _ => inferInstanceAs (Decidable True)

end BufferedReaders

end SocketWrapper
