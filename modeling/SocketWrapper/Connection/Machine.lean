import SocketWrapper.Concurrent.Lemmas.Conservation
import SocketWrapper.Writers.Machine

/-!
# Two `ConditionalBufferedStream`s that are connected

What the threads of one end write is what the other end has to read. The kernel takes bytes from a `::write`
and hands them over in order; how it cuts them and when they arrive is open. After an end is gone, the other
one reads what has been sent and then the end of the stream.
-/

namespace SocketWrapper

open ConditionalBufferedStream

/-- What comes to an end from outside: a byte that the peer sends, or an answer to a poll of the worker. -/
abbrev Input := Byte ⊕ Answer

namespace Input

/-- The bytes among the inputs. -/
def bytes (is : List Input) : List Byte := is.filterMap Sum.getLeft?

/-- The answers among the inputs. -/
def answers (is : List Input) : List Answer := is.filterMap Sum.getRight?

variable {is js : List Input} {xs : List Byte} {as : List Answer}

@[simp] theorem bytes_nil : bytes [] = [] := rfl
@[simp] theorem answers_nil : answers [] = [] := rfl
@[simp] theorem bytes_append : bytes (is ++ js) = bytes is ++ bytes js := List.filterMap_append
@[simp] theorem answers_append : answers (is ++ js) = answers is ++ answers js := List.filterMap_append

@[simp] theorem bytes_inl : bytes (xs.map .inl) = xs := by
  rw [bytes, List.filterMap_map]
  exact List.filterMap_some

@[simp] theorem answers_inl : answers (xs.map .inl) = [] := by
  simp [answers]

@[simp] theorem bytes_inr : bytes (as.map .inr) = [] := by
  simp [bytes]

@[simp] theorem answers_inr : answers (as.map .inr) = as := by
  rw [answers, List.filterMap_map]
  exact List.filterMap_some

end Input

/-! ## Input that is still to come -/

def Stream.fed (s : Stream) (is : List Input) : Stream :=
  ⟨⟨s.socket.unread ++ Input.bytes is, s.socket.calls⟩, s.stopEvent, s.answers ++ Input.answers is⟩

def BufferedStream.fed (b : BufferedStream) (is : List Input) : BufferedStream :=
  { b with stream := b.stream.fed is }

def ConditionalBufferedStream.fed (s : ConditionalBufferedStream) (is : List Input) :
    ConditionalBufferedStream :=
  { s with stream := s.stream.fed is }

/-- The machine with more bytes sent and more answers of the kernel to come. -/
def Machine.fed (m : Machine) (is : List Input) : Machine := { m with stream := m.stream.fed is }

/-! ## The two ends -/

inductive Side
  | left
  | right
  deriving DecidableEq

def Side.other : Side → Side
  | .left => .right
  | .right => .left

structure Endpoint where
  /-- The threads that write to the stream. -/
  writers : Writers
  /-- The other threads. -/
  machine : Machine

structure Connection where
  ends : Side → Endpoint

namespace Connection

/-- An end that is gone: its object has been destroyed, or its process has been terminated. -/
def closed (c : Connection) (side : Side) : Bool := (c.ends side).machine.halted

/-- What an end has written, in the order in which the kernel has taken it. -/
def sent (c : Connection) (side : Side) : List Byte := (c.ends side).writers.wire.map Prod.snd

/-- What the worker of an end has not read yet. -/
def unread (c : Connection) (side : Side) : List Byte :=
  (c.ends side).machine.stream.stream.stream.socket.unread

/-- The connection with another machine at an end. -/
def setMachine (c : Connection) (side : Side) (m : Machine) : Connection :=
  ⟨Function.update c.ends side { c.ends side with machine := m }⟩

/-- The connection with other writers at an end. -/
def setWriters (c : Connection) (side : Side) (w : Writers) : Connection :=
  ⟨Function.update c.ends side { c.ends side with writers := w }⟩

inductive Action
  /-- A thread calls `ConditionalBufferedStream::write(data)`. -/
  | write (side : Side) (thread : Nat) (data : List Byte)
  | attempt (side : Side) (thread : Nat) (answer : WriteAnswer)
  | giveUp (side : Side) (thread : Nat) (errno : Nat)
  /-- The worker of an end reads, and its poll comes back with the answer. -/
  | poll (side : Side) (answer : Answer)
  /-- Any other step of an end. -/
  | other (side : Side) (a : SocketWrapper.Action)
  deriving DecidableEq

/-- A step of the threads that write. The other end gets what the kernel takes. -/
def writes (c : Connection) (side : Side) (a : Writers.Action) : Option Connection :=
  if c.closed side then none
  else ((c.ends side).writers.step a).map fun w =>
    let new := (w.wire.drop (c.ends side).writers.wire.length).map Prod.snd
    (c.setWriters side w).setMachine side.other ((c.ends side.other).machine.fed (new.map .inl))

/-- What a poll of an end can find: bytes that have been sent, or the end of the stream once the other end
is gone. It may fail or find nothing at any time. -/
def CanFind (c : Connection) (side : Side) : Answer → Prop
  | .readable available =>
      available < (c.unread side).length ∨ (c.unread side = [] ∧ c.closed side.other = true)
  | _ => True

instance (c : Connection) (side : Side) (answer : Answer) : Decidable (c.CanFind side answer) :=
  match answer with
  | .readable _ => inferInstanceAs (Decidable (_ ∨ _))
  | .pollFails _ => inferInstanceAs (Decidable True)
  | .readFails _ => inferInstanceAs (Decidable True)
  | .quiet => inferInstanceAs (Decidable True)

variable (S : Side → Setup)

def step (c : Connection) : Action → Option Connection
  | .write side thread data => c.writes side (.callBuffered thread data)
  | .attempt side thread answer => c.writes side (.attempt thread answer)
  | .giveUp side thread errno => c.writes side (.giveUp thread errno)
  | .poll side answer =>
      match (c.ends side).machine.worker with
      | .reading =>
          if c.CanFind side answer then
            (((c.ends side).machine.fed [.inr answer]).step (S side) .worker).map (c.setMachine side)
          else none
      | _ => none
  | .other side .worker =>
      match (c.ends side).machine.worker with
      | .reading => none
      | _ => ((c.ends side).machine.step (S side) .worker).map (c.setMachine side)
  | .other side a => ((c.ends side).machine.step (S side) a).map (c.setMachine side)

/-- Nothing has been written and nothing read. Each end has a buffer, threads that write and consumers. -/
def start (size writers consumers : Side → Nat) : Connection :=
  ⟨fun side => ⟨.start (writers side), .connected (S side) (size side) [] [] (consumers side)⟩⟩

end Connection

end SocketWrapper
