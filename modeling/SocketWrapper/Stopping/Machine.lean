import SocketWrapper.Descriptors.Objects
import SocketWrapper.Readers.Machine

/-!
# Reads, stops and moves of `Stream` objects in several threads

Every `Stream` is made for a socket of its own. The eventfds are never closed, so that `eventfd` does not
return one of their descriptors again. A read is polling from the moment that it has the read mutex; a move
has a part that transfers the socket and one that copies the eventfd's descriptor, and other threads may
take steps between the two. The move assignment holds the mutexes of both objects for both of its parts, the
move constructor has given them back before the second.
-/

namespace SocketWrapper

structure StreamObject where
  members : Descriptors.Stream
  /-- History: which call of the constructor has made the stream that it is, or was before it was moved
  from. -/
  number : Nat
  deriving DecidableEq, Repr

/-- Where a thread is in a call. -/
inductive StreamCall
  /-- In `read` of object `i`, at the head of its loop. -/
  | reading (i : Nat) (call : StreamRead)
  /-- In `read`, at the `poll`, with the read mutex of object `i`, which is `o`. -/
  | polling (i : Nat) (o : StreamObject) (call : StreamRead)
  /-- In `stopReads` of object `i`, at the `::write` to the eventfd of the stream `number`. -/
  | stopping (i number : Nat) (eventFd : Fd)
  /-- In the move constructor, after the block that transfers the socket `fd` of the stream `number` from
  object `i`. -/
  | constructing (i : Nat) (fd : Fd) (number : Nat)
  /-- In the move assignment, with the mutexes of both objects, after object `i` has got the socket of
  object `j`, which is the stream `number`. -/
  | assigning (i j number : Nat)
  deriving DecidableEq, Repr

namespace StreamCall

/-- The objects that the call is working on. -/
def uses : StreamCall → List Nat
  | reading i _ => [i]
  | polling i _ _ => [i]
  | stopping i _ _ => [i]
  | constructing i _ _ => [i]
  | assigning i j _ => [i, j]

/-- The objects whose read mutex the call holds. -/
def locks : StreamCall → List Nat
  | reading _ _ => []
  | polling i _ _ => [i]
  | stopping _ _ _ => []
  | constructing _ _ _ => []
  | assigning i j _ => [i, j]

/-- The object whose eventfd the call copies without a mutex. -/
def copies : StreamCall → List Nat
  | reading _ _ => []
  | polling _ _ _ => []
  | stopping _ _ _ => []
  | constructing i _ _ => [i]
  | assigning _ _ _ => []

/-- The objects that the call moves from or to. -/
def moves : StreamCall → List Nat
  | reading _ _ => []
  | polling _ _ _ => []
  | stopping _ _ _ => []
  | constructing i _ _ => [i]
  | assigning i j _ => [i, j]

end StreamCall

/-- The largest value of an eventfd's counter. -/
def maxCounter : Nat := 2 ^ 64 - 2

structure Streams where
  /-- The objects in the order of their construction; `none` once destroyed. -/
  objects : List (Option StreamObject)
  sockets : Fd → Socket
  /-- The counters of the eventfds. -/
  counter : Fd → Nat
  calls : Calls StreamCall
  /-- History: the eventfd of each stream, the streams that a call of `stopReads` has come back for, and
  the calls of `read` that have come back. -/
  eventFds : List Fd
  stopped : List Nat
  completions : List StreamReadDone

namespace Streams

inductive Action
  /-- `Stream(socket_fd)`, for a socket whose peer sends `sent`; `eventfd` returns `event_fd`. -/
  | construct (socketFd eventFd : Fd) (sent : List Byte)
  | read (thread i maxBytesToRead minBytesToRead : Nat) (timeoutMs : Int)
  | poll (thread : Nat)
  /-- The `poll` of a thread comes back. -/
  | answer (thread : Nat) (a : Answer)
  /-- The call of a thread has as many bytes as it needs. -/
  | finish (thread : Nat)
  | stopReads (thread i : Nat)
  /-- The `::write` of a call of `stopReads` succeeds. -/
  | post (thread : Nat)
  /-- A signal ends the `::write` while it waits. -/
  | interrupt (thread : Nat)
  | moveConstruct (thread i : Nat)
  | moveConstructed (thread : Nat)
  /-- Assign object `j` to object `i`. -/
  | moveAssign (thread i j : Nat)
  | moveAssigned (thread : Nat)
  | destroy (i : Nat)
  deriving DecidableEq

def init (threads : Nat) : Streams := ⟨[], fun _ => ⟨[], []⟩, fun _ => 0, .start threads, [], [], []⟩

/-- Object `i`, if it is alive. -/
def object? (m : Streams) (i : Nat) : Option StreamObject := m.objects[i]?.join

def Locked (m : Streams) (i : Nat) : Prop := ∃ c ∈ m.calls.all, i ∈ c.locks

instance (m : Streams) (i : Nat) : Decidable (m.Locked i) :=
  inferInstanceAs (Decidable (∃ c ∈ m.calls.all, i ∈ c.locks))

/-- An object is not destroyed during a call. -/
def InUse (m : Streams) (i : Nat) : Prop := ∃ c ∈ m.calls.all, i ∈ c.uses

instance (m : Streams) (i : Nat) : Decidable (m.InUse i) :=
  inferInstanceAs (Decidable (∃ c ∈ m.calls.all, i ∈ c.uses))

/-- What the `poll` of a call may come back with. It ignores a negative descriptor; where nothing happens on
the socket it waits for the stop event or the timeout. -/
def MayAnswer (m : Streams) (o : StreamObject) (call : StreamRead) : Answer → Prop
  | .pollFails _ => True
  | .readable _ => 0 ≤ o.members.streamFileDescriptor
  | .readFails _ => 0 ≤ o.members.streamFileDescriptor
  | .quiet => 0 < m.counter o.members.stopAllOperationsEventFd ∨ 0 ≤ call.timeoutMs

instance (m : Streams) (o : StreamObject) (call : StreamRead) (a : Answer) :
    Decidable (m.MayAnswer o call a) :=
  match a with
  | .pollFails _ => inferInstanceAs (Decidable True)
  | .readable _ => inferInstanceAs (Decidable (0 ≤ o.members.streamFileDescriptor))
  | .readFails _ => inferInstanceAs (Decidable (0 ≤ o.members.streamFileDescriptor))
  | .quiet => inferInstanceAs (Decidable (_ ∨ _))

def complete (m : Streams) (thread number : Nat) (call : StreamRead) (outcome : Outcome Nat) : Streams :=
  { m with
    calls := m.calls.leave thread
    completions := m.completions ++ [⟨number, call.stored, outcome⟩] }

/-- The rest of a round, after the `poll` has come back. -/
def answered (m : Streams) (thread number i : Nat) (o : StreamObject) (call : StreamRead) (a : Answer) :
    Streams :=
  let fd := o.members.streamFileDescriptor
  let r := call.round (m.counter o.members.stopAllOperationsEventFd) a (m.sockets fd)
  let m := { m with sockets := Function.update m.sockets fd r.2.2 }
  match r.1 with
  | some outcome => m.complete thread number call outcome
  | none => { m with
      calls := m.calls.goOn thread number (.reading i { call with stored := call.stored ++ r.2.1 }) }

/-- `::write` of `semaphore_value`: the counter goes up. -/
def posted (m : Streams) (eventFd : Fd) : Streams :=
  { m with counter :=
      Function.update m.counter eventFd (m.counter eventFd + Descriptors.semaphoreValue) }

/-- `::write` does not wait. -/
def HasRoom (m : Streams) (eventFd : Fd) : Prop :=
  m.counter eventFd + Descriptors.semaphoreValue ≤ maxCounter

instance (m : Streams) (eventFd : Fd) : Decidable (m.HasRoom eventFd) :=
  inferInstanceAs (Decidable (_ ≤ _))

/-- The object without its socket. -/
def withoutSocket (o : StreamObject) : StreamObject :=
  { o with members := { o.members with streamFileDescriptor := Descriptors.kInvalidSocketFdMarker } }

def step (m : Streams) : Action → Option Streams
  | .construct socketFd eventFd sent =>
      if eventFd ∈ m.eventFds then none
      else some { m with
        objects := m.objects ++ [some ⟨⟨socketFd, eventFd⟩, m.eventFds.length⟩]
        sockets := Function.update m.sockets socketFd ⟨sent, []⟩
        counter := Function.update m.counter eventFd 0
        eventFds := m.eventFds ++ [eventFd] }
  | .read thread i maxBytesToRead minBytesToRead timeoutMs =>
      match m.calls.threads[thread]?, m.object? i with
      | some none, some _ => some { m with
          calls := m.calls.enter thread (.reading i ⟨maxBytesToRead, minBytesToRead, timeoutMs, []⟩) }
      | _, _ => none
  | .poll thread =>
      match m.calls.call? thread with
      | some (number, .reading i call) =>
          match m.object? i with
          | some o =>
              if call.stored.length < call.minBytesToRead ∧ ¬ m.Locked i then
                some { m with calls := m.calls.goOn thread number (.polling i o call) }
              else none
          | none => none
      | _ => none
  | .answer thread a =>
      match m.calls.call? thread with
      | some (number, .polling i o call) =>
          if m.MayAnswer o call a then some (m.answered thread number i o call a) else none
      | _ => none
  | .finish thread =>
      match m.calls.call? thread with
      | some (number, .reading _ call) =>
          if call.minBytesToRead ≤ call.stored.length then
            some (m.complete thread number call (.returned call.stored.length))
          else none
      | _ => none
  | .stopReads thread i =>
      match m.calls.threads[thread]?, m.object? i with
      | some none, some o => some { m with
          calls := m.calls.enter thread (.stopping i o.number o.members.stopAllOperationsEventFd) }
      | _, _ => none
  | .post thread =>
      match m.calls.call? thread with
      | some (_, .stopping _ number eventFd) =>
          if m.HasRoom eventFd then
            some { m.posted eventFd with
              calls := m.calls.leave thread
              stopped := number :: m.stopped }
          else none
      | _ => none
  | .interrupt thread =>
      match m.calls.call? thread with
      | some (_, .stopping _ number eventFd) =>
          if m.HasRoom eventFd then none
          else some { m with
            calls := m.calls.leave thread
            stopped := number :: m.stopped }
      | _ => none
  | .moveConstruct thread i =>
      match m.calls.threads[thread]?, m.object? i with
      | some none, some o =>
          if m.Locked i then none
          else some { m with
            objects := m.objects.set i (some (withoutSocket o))
            calls := m.calls.enter thread (.constructing i o.members.streamFileDescriptor o.number) }
      | _, _ => none
  | .moveConstructed thread =>
      match m.calls.call? thread with
      | some (_, .constructing i fd number) =>
          match m.object? i with
          | some o => some { m with
              objects := m.objects ++ [some ⟨⟨fd, o.members.stopAllOperationsEventFd⟩, number⟩]
              calls := m.calls.leave thread }
          | none => none
      | _ => none
  | .moveAssign thread i j =>
      match m.calls.threads[thread]?, m.object? i, m.object? j with
      | some none, some o, some src =>
          if i = j ∨ m.Locked i ∨ m.Locked j then none
          else some { m with
            objects := (m.objects.set i (some { o with members := { o.members with
                streamFileDescriptor := src.members.streamFileDescriptor } })).set j
              (some (withoutSocket src))
            calls := m.calls.enter thread (.assigning i j src.number) }
      | _, _, _ => none
  | .moveAssigned thread =>
      match m.calls.call? thread with
      | some (_, .assigning i j number) =>
          match m.object? i, m.object? j with
          | some o, some src => some { m with
              objects := m.objects.set i (some ⟨{ o.members with
                stopAllOperationsEventFd := src.members.stopAllOperationsEventFd }, number⟩)
              calls := m.calls.leave thread }
          | _, _ => none
      | _ => none
  | .destroy i =>
      match m.object? i with
      | some o =>
          if m.InUse i then none
          else if o.members.streamFileDescriptor < 0 then some { m with objects := m.objects.set i none }
          else if m.HasRoom o.members.stopAllOperationsEventFd then
            some { m.posted o.members.stopAllOperationsEventFd with objects := m.objects.set i none }
          else none
      | none => none

/-! ## Moves that keep apart -/

def Copied (m : Streams) (i : Nat) : Prop := ∃ c ∈ m.calls.all, i ∈ c.copies

instance (m : Streams) (i : Nat) : Decidable (m.Copied i) :=
  inferInstanceAs (Decidable (∃ c ∈ m.calls.all, i ∈ c.copies))

/-- No object is assigned to while a move constructor that moves from it is running. -/
def KeepsApart (m : Streams) : Action → Prop
  | .moveAssign _ i _ => ¬ m.Copied i
  | _ => True

instance (m : Streams) (a : Action) : Decidable (m.KeepsApart a) :=
  match a with
  | .moveAssign _ i _ => inferInstanceAs (Decidable (¬ m.Copied i))
  | .construct _ _ _ => inferInstanceAs (Decidable True)
  | .read _ _ _ _ _ => inferInstanceAs (Decidable True)
  | .poll _ => inferInstanceAs (Decidable True)
  | .answer _ _ => inferInstanceAs (Decidable True)
  | .finish _ => inferInstanceAs (Decidable True)
  | .stopReads _ _ => inferInstanceAs (Decidable True)
  | .post _ => inferInstanceAs (Decidable True)
  | .interrupt _ => inferInstanceAs (Decidable True)
  | .moveConstruct _ _ => inferInstanceAs (Decidable True)
  | .moveConstructed _ => inferInstanceAs (Decidable True)
  | .moveAssigned _ => inferInstanceAs (Decidable True)
  | .destroy _ => inferInstanceAs (Decidable True)

/-! ## Reads of a stopped stream -/

/-- What a read of a stopped stream may throw. -/
inductive StoppedRead : Outcome Nat → Prop
  | closed : StoppedRead (.socketError .SOCKET_CLOSED 0)
  | pollFailed (errno : Nat) : StoppedRead (.socketError .SOCKET_POLL errno)
  | readFailed (errno : Nat) : StoppedRead (.socketError .SOCKET_READ errno)
  | terminated : StoppedRead (.socketError .SOCKET_TERMINATION_REQUEST 0)

/-- The poll has brought bytes, or the call has thrown what a read of a stopped stream may throw. -/
def BroughtOrThrew (m m' : Streams) (thread number i : Nat) (call : StreamRead) : Prop :=
  (∃ bytes, bytes ≠ [] ∧
    m'.calls.At thread number (.reading i { call with stored := call.stored ++ bytes })) ∨
  ∃ outcome, StoppedRead outcome ∧ m'.completions = m.completions ++ [⟨number, call.stored, outcome⟩]

end Streams

end SocketWrapper
