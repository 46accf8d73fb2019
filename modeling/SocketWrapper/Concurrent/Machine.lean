import SocketWrapper.Conditional.Stream
import SocketWrapper.Lib.Transition

/-!
# The threads of a `ConditionalBufferedStream`

The worker, any number of consumers, a thread that calls `stopReads` and one that runs the destructor.
A step of a thread ends where another thread may see or change what it has done: at a system call, at
the end of a locked section, at a write to a shared member.
-/

namespace SocketWrapper

open ConditionalBufferedStream

/-! ## Where the threads are -/

/-- A call of `processDataSendSignals` that has not returned: its data, and the handlers that its loop
has not come to. -/
structure Frame where
  data : List Byte
  rest : List BufferEventHandler

/-- A call that begins. It returns at once if there is no data. -/
def Frame.enter (S : Setup) (data : List Byte) : Frame :=
  ⟨data, if data = [] then [] else S.handlers⟩

inductive WorkerAt
  | notStarted
  /-- At `readAvailableDataIntoBuffer`. -/
  | reading
  /-- In the loops of the calls of `processDataSendSignals`, the innermost first. -/
  | dispatching (frames : List Frame)
  /-- At `PopFromBuffer`, after the condition of `fd` gave `v`. -/
  | popping (fd : Fd) (v : Int32) (frame : Frame) (frames : List Frame)
  /-- At the `::write` to `fd`, after the segment was queued. -/
  | posting (fd : Fd) (v : Int32) (frame : Frame) (frames : List Frame)
  /-- At the beginning of the `catch` block. -/
  | caught (ex : SocketException)
  /-- In the loop of the `catch` block. -/
  | notifying (t : SocketExceptionType) (rest : List BufferEventHandler)
  | ended (t : SocketExceptionType)
  /-- An exception has left the thread function: `std::terminate`. -/
  | terminated (e : Exception)

/-- How the thread function has ended, if it has. -/
def WorkerAt.end? : WorkerAt → Option (SocketExceptionType ⊕ Exception)
  | .ended t => some (.inl t)
  | .terminated e => some (.inr e)
  | _ => none

instance (w : WorkerAt) (t : SocketExceptionType) : Decidable (w = .ended t) :=
  decidable_of_iff (w.end? = some (.inl t)) (by cases w <;> simp [WorkerAt.end?])

instance (w : WorkerAt) (e : Exception) : Decidable (w = .terminated e) :=
  decidable_of_iff (w.end? = some (.inr e)) (by cases w <;> simp [WorkerAt.end?])

inductive ConsumerAt
  | idle
  /-- At the `::poll` of `readBlocking`. -/
  | polling (fd : Fd) (timeoutMs : Int)
  /-- The `::poll` has returned 0. -/
  | expired (fd : Fd)
  /-- At the `::read` of a token. -/
  | taking (fd : Fd)
  /-- At `read`, called by `readBlocking` with or without a token, or by the user. -/
  | popping (fd : Fd) (token : Bool)
  deriving DecidableEq

inductive DestructorAt
  | alive
  | closing (rest : List BufferEventHandler)
  | joining
  | destroyed
  /-- An exception has left the destructor: `std::terminate`. -/
  | terminated (e : Exception)

/-- How the destructor has ended, if it has. -/
def DestructorAt.end? : DestructorAt → Option (Unit ⊕ Exception)
  | .destroyed => some (.inl ())
  | .terminated e => some (.inr e)
  | _ => none

instance (d : DestructorAt) : Decidable (d = .destroyed) :=
  decidable_of_iff (d.end? = some (.inl ())) (by cases d <;> simp [DestructorAt.end?])

instance (d : DestructorAt) (e : Exception) : Decidable (d = .terminated e) :=
  decidable_of_iff (d.end? = some (.inr e)) (by cases d <;> simp [DestructorAt.end?])

/-- A call of a consumer that has come back. -/
structure Completion where
  consumer : Nat
  fd : Fd
  /-- It had taken a token from the eventfd. -/
  token : Bool
  outcome : Outcome (List Byte)
  deriving DecidableEq

structure Machine where
  stream : ConditionalBufferedStream
  worker : WorkerAt
  consumers : List ConsumerAt
  /-- A call of `stopReads` has set the flag and has not yet stopped the stream. -/
  stopping : Bool
  /-- A call of `stopReads` has returned. -/
  stopped : Bool
  destructor : DestructorAt
  /-- History: the calls that have come back, in order. -/
  completions : List Completion

/-! ## The worker -/

section

variable (S : Setup)

/-- Where an exception in the worker's `try` block leads. -/
def WorkerAt.raised : Exception → WorkerAt
  | .socket ex => .caught ex
  | e => .terminated e

/-- Go on with the recursive call, after the handler's segment has been dealt with. -/
def WorkerAt.recurse (v : Int32) (frame : Frame) (frames : List Frame) : WorkerAt :=
  .dispatching (Frame.enter S (frame.data.drop (absSize v)) :: frame :: frames)

/-- A step of the worker; `none` where it waits or has ended. -/
def workerStep : WorkerAt → ConditionalBufferedStream → Option (WorkerAt × ConditionalBufferedStream)
  | .notStarted, _ => none
  | .reading, s =>
      match s.stream.readAvailableDataIntoBuffer (-1) with
      | (.returned _, b) => some (.dispatching [.enter S b.contents], { s with stream := b })
      | (.threw e, b) => some (.raised e, { s with stream := b })
      | (.waiting, _) => none
  | .dispatching [], s => some (.reading, s)
  | .dispatching (⟨_, []⟩ :: frames), s => some (.dispatching frames, s)
  | .dispatching (⟨data, h :: rest⟩ :: frames), s =>
      let (v, s) := s.evaluate h data
      if data.length < absSize v then some (.raised tooMuchData, s)
      else if v = 0 then some (.dispatching (⟨data, rest⟩ :: frames), s)
      else some (.popping h.fd v ⟨data, rest⟩ frames, s)
  | .popping fd v frame frames, s =>
      match s.popAndQueue fd v with
      | (.returned _, s) =>
          if 0 < v then some (.posting fd v frame frames, s) else some (.recurse S v frame frames, s)
      | (.threw e, s) => some (.raised e, s)
      | (.waiting, _) => none
  | .posting fd v frame frames, s =>
      match s.post S fd with
      | (.returned _, s) => some (.recurse S v frame frames, s)
      | (.threw e, s) => some (.raised e, s)
      | (.waiting, _) => none
  | .caught ex, s =>
      if ex.exceptionType = .SOCKET_TERMINATION_REQUEST then some (.ended ex.exceptionType, s)
      else some (.notifying ex.exceptionType S.handlers, { s with lastEx := ex.exceptionType })
  | .notifying t [], s => some (.ended t, s)
  | .notifying t (h :: rest), s =>
      match s.post S h.fd with
      | (.returned _, s) => some (.notifying t rest, { s with
          failureTokens := Function.update s.failureTokens h.fd (s.failureTokens h.fd + 1) })
      | (.threw e, s) => some (.terminated e, s)
      | (.waiting, _) => none
  | .ended _, _ => none
  | .terminated _, _ => none

end

/-! ## The other threads -/

namespace Machine

/-- The machine with consumer `c` at another place. -/
def moveTo (m : Machine) (c : Nat) (place : ConsumerAt) : Machine :=
  { m with consumers := m.consumers.set c place }

/-- The call of consumer `c` comes back. -/
def complete (m : Machine) (c : Nat) (fd : Fd) (token : Bool) (outcome : Outcome (List Byte)) : Machine :=
  { m.moveTo c .idle with completions := m.completions ++ [⟨c, fd, token, outcome⟩] }

section

variable {m : Machine} {c : Nat} {place : ConsumerAt} {fd : Fd} {token : Bool}
  {o : Outcome (List Byte)}

@[simp] theorem stream_moveTo : (m.moveTo c place).stream = m.stream := rfl
@[simp] theorem worker_moveTo : (m.moveTo c place).worker = m.worker := rfl
@[simp] theorem completions_moveTo : (m.moveTo c place).completions = m.completions := rfl
@[simp] theorem consumers_moveTo : (m.moveTo c place).consumers = m.consumers.set c place := rfl
@[simp] theorem stream_complete : (m.complete c fd token o).stream = m.stream := rfl
@[simp] theorem consumers_complete : (m.complete c fd token o).consumers = m.consumers.set c .idle := rfl
@[simp] theorem completions_complete :
    (m.complete c fd token o).completions = m.completions ++ [⟨c, fd, token, o⟩] := rfl

end

end Machine

inductive ConsumerAction
  /-- Call `readBlocking(fd, timeout_ms)`. -/
  | readBlocking (fd : Fd) (timeoutMs : Int)
  /-- Call `read(fd)`. -/
  | read (fd : Fd)
  /-- `::poll` comes back with a positive result. -/
  | pollReady
  /-- `::poll` comes back with 0. -/
  | pollExpires
  /-- `::poll` fails, or reports something else than `POLLIN`. -/
  | pollFails (errno : Nat)
  /-- `readBlocking` throws after its `::poll` has come back with 0. -/
  | throwExpired (errno : Nat)
  | takeToken
  | pop
  deriving DecidableEq

/-- A step of consumer `c`. -/
def consumerStep (m : Machine) (c : Nat) (a : ConsumerAction) : Option Machine :=
  match m.consumers[c]?, a with
  | some .idle, .readBlocking fd timeoutMs => some (m.moveTo c (.polling fd timeoutMs))
  | some .idle, .read fd => some (m.moveTo c (.popping fd false))
  | some (.polling fd _), .pollReady =>
      if 0 < m.stream.eventFds.counter fd ∧ fd ∉ m.stream.eventFds.closed then
        some (m.moveTo c (.taking fd))
      else none
  | some (.polling fd timeoutMs), .pollExpires =>
      if m.stream.eventFds.counter fd = 0 ∧ fd ∉ m.stream.eventFds.closed ∧ 0 ≤ timeoutMs then
        some (m.moveTo c (.expired fd))
      else none
  | some (.polling fd _), .pollFails errno =>
      some (m.complete c fd false (.socketError .SOCKET_READ_TIMEOUT errno))
  | some (.expired fd), .throwExpired errno =>
      some (m.complete c fd false (.threw (m.stream.pollExpired errno)))
  | some (.taking fd), .takeToken =>
      -- the result of the `::read` is not looked at
      if fd ∈ m.stream.eventFds.closed then some (m.moveTo c (.popping fd false))
      else if 0 < m.stream.eventFds.counter fd then
        some ({ m with stream := m.stream.takeToken fd }.moveTo c (.popping fd true))
      else none
  | some (.popping fd token), .pop =>
      some ({ m with stream := (m.stream.read fd).2 }.complete c fd token (m.stream.read fd).1)
  | _, _ => none

/-- A step of the destructor: close every handler's descriptor, stop the worker's reads, join. -/
def destructorStep (S : Setup) (m : Machine) : Option Machine :=
  match m.destructor with
  | .alive => some { m with destructor := .closing S.handlers }
  | .closing (h :: rest) => some { m with
      destructor := .closing rest
      stream := { m.stream with eventFds :=
        { m.stream.eventFds with closed := m.stream.eventFds.closed ++ [h.fd] } } }
  | .closing [] => some { m with
      destructor := .joining
      stream := { m.stream with stream := { m.stream.stream with stream := m.stream.stream.stream.stopReads } } }
  | .joining =>
      match m.worker with
      | .notStarted => some { m with destructor := .terminated .systemError }
      | .ended _ => some { m with destructor := .destroyed }
      | _ => none
  | .destroyed => none
  | .terminated _ => none

inductive Action
  /-- `start()`. -/
  | start
  | worker
  | consumer (c : Nat) (a : ConsumerAction)
  /-- `stopReads()` sets `termination_requested`. -/
  | stopReads
  /-- `stopReads()` stops the stream's reads and returns. -/
  | stopStream
  | destructor
  deriving DecidableEq

namespace Machine

/-- Before `start()`, with a number of consumers. -/
def init (s : ConditionalBufferedStream) (consumers : Nat) : Machine :=
  ⟨s, .notStarted, List.replicate consumers .idle, false, false, .alive, []⟩

/-- The process has been terminated, or the object destroyed. -/
def halted (m : Machine) : Bool :=
  match m.worker, m.destructor with
  | .terminated _, _ => true
  | _, .terminated _ => true
  | _, .destroyed => true
  | _, _ => false

def act (S : Setup) (m : Machine) : Action → Option Machine
  | .start =>
      match m.worker, m.destructor with
      | .notStarted, .alive => some { m with worker := .reading }
      | _, _ => none
  | .worker => (workerStep S m.worker m.stream).map fun r => { m with worker := r.1, stream := r.2 }
  | .consumer c a => consumerStep m c a
  | .stopReads =>
      if m.stopping then none
      else some { m with stopping := true, stream := { m.stream with terminationRequested := true } }
  | .stopStream =>
      if m.stopping then
        some { m with
          stopping := false
          stopped := true
          stream := { m.stream with
            stream := { m.stream.stream with stream := m.stream.stream.stream.stopReads } } }
      else none
  | .destructor => destructorStep S m

def step (S : Setup) (m : Machine) (a : Action) : Option Machine :=
  if m.halted then none else m.act S a

end Machine

end SocketWrapper
