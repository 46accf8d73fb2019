import SocketWrapper.Conditional.Stream

/-!
# `readBlocking` in a process with other descriptors

`readBlocking` polls and reads whatever descriptor it is given, which may be an eventfd of another stream,
a socket, or nothing at all.
-/

namespace SocketWrapper

/-- What is behind a descriptor. -/
inductive Descriptor
  | closed
  /-- An eventfd made with `EFD_SEMAPHORE`, as all of this library are. -/
  | eventfd (counter : Nat)
  /-- A connected socket: the bytes that have arrived, and whether the peer has closed. -/
  | socket (arrived : List Byte) (ended : Bool)
  | datagramSocket (queued : List (List Byte))
  | listeningSocket (clients : Nat)
  deriving DecidableEq

/-- What `::poll` reports of a descriptor: nothing, `POLLIN`, or `POLLNVAL`. -/
inductive Revents
  | nothing
  | pollin
  | pollnval
  deriving DecidableEq

namespace Descriptor

def revents : Descriptor → Revents
  | .closed => .pollnval
  | .eventfd counter => if 0 < counter then .pollin else .nothing
  | .socket arrived ended => if arrived ≠ [] ∨ ended then .pollin else .nothing
  | .datagramSocket queued => if queued ≠ [] then .pollin else .nothing
  | .listeningSocket clients => if 0 < clients then .pollin else .nothing

/-- `::read` of eight bytes. On a listening socket it fails. -/
def read : Descriptor → Descriptor
  | .closed => .closed
  | .eventfd counter => .eventfd (counter - 1)
  | .socket arrived ended => .socket (arrived.drop 8) ended
  | .datagramSocket queued => .datagramSocket queued.tail
  | .listeningSocket clients => .listeningSocket clients

/-- A `::read` finds nothing that it could take, though `::poll` has reported `POLLIN`. -/
def NothingToTake : Descriptor → Prop
  | .socket arrived ended => arrived = [] ∧ ended
  | .listeningSocket clients => 0 < clients
  | .closed => False
  | .eventfd _ => False
  | .datagramSocket _ => False

instance : DecidablePred NothingToTake
  | .socket arrived ended => inferInstanceAs (Decidable (arrived = [] ∧ ended))
  | .listeningSocket clients => inferInstanceAs (Decidable (0 < clients))
  | .closed => inferInstanceAs (Decidable False)
  | .eventfd _ => inferInstanceAs (Decidable False)
  | .datagramSocket _ => inferInstanceAs (Decidable False)

end Descriptor

/-- A `ConditionalBufferedStream` of the process, with its handlers. `createEventfdOnCondition` makes an
entry of the map with every handler. -/
structure OpenStream where
  setup : Setup
  state : ConditionalBufferedStream
  entries : ∀ fd, (state.receivedDataPerCondition fd).isSome ↔ setup.Registered fd

namespace OpenStream

/-- The stream on a connection, before anything has been read. -/
def connected (S : Setup) (size : Nat) (bytes : List Byte) (stopEvent : Nat) (answers : List Answer) :
    OpenStream where
  setup := S
  state := .connected S size bytes stopEvent answers
  entries fd := by simp [ConditionalBufferedStream.connected, ConditionalBufferedStream.make]

/-- An eventfd of the stream. -/
def descriptor (o : OpenStream) (fd : Fd) : Descriptor :=
  if fd ∈ o.state.eventFds.closed then .closed else .eventfd (o.state.eventFds.counter fd)

/-- `::read` on an eventfd of the stream. -/
def takeToken (o : OpenStream) (fd : Fd) : OpenStream :=
  if fd ∈ o.state.eventFds.closed then o
  else { setup := o.setup, state := o.state.takeToken fd, entries := o.entries }

theorem entries_read (o : OpenStream) (conditionFd fd : Fd) :
    ((o.state.read conditionFd).2.receivedDataPerCondition fd).isSome ↔ o.setup.Registered fd := by
  rw [← o.entries fd]
  simp only [ConditionalBufferedStream.read]
  split
  · rfl
  · rename_i hqueue
    by_cases hfd : fd = conditionFd
    · subst hfd
      simp [hqueue]
    · simp [hfd]
  · split <;> rfl

/-- `read(condition_fd)`. -/
def read (o : OpenStream) (conditionFd : Fd) : Outcome (List Byte) × OpenStream :=
  ((o.state.read conditionFd).1, ⟨o.setup, (o.state.read conditionFd).2, o.entries_read conditionFd⟩)

end OpenStream

/-- The stream whose `readBlocking` is called, and everything else that a descriptor may belong to. -/
structure Process where
  stream : OpenStream
  /-- The other streams. -/
  others : List OpenStream
  /-- The descriptors that are no condition's. -/
  descriptors : Fd → Descriptor

namespace Process

/-- The other stream that has the descriptor, if one has. -/
def owner? (p : Process) (fd : Fd) : Option Nat :=
  p.others.findIdx? fun o => o.setup.Registered fd

def descriptor (p : Process) (fd : Fd) : Descriptor :=
  if p.stream.setup.Registered fd then p.stream.descriptor fd
  else match p.owner? fd with
    | some i => (p.others[i]?).elim .closed fun o => o.descriptor fd
    | none => p.descriptors fd

/-- `::poll` ignores a negative descriptor. -/
def revents (p : Process) (fd : Fd) : Revents := if fd < 0 then .nothing else (p.descriptor fd).revents

/-- `::read` of eight bytes from a descriptor. -/
def readDescriptor (p : Process) (fd : Fd) : Process :=
  if p.stream.setup.Registered fd then { p with stream := p.stream.takeToken fd }
  else match p.owner? fd with
    | some i => { p with others := p.others.modify i fun o => o.takeToken fd }
    | none => { p with descriptors := Function.update p.descriptors fd (p.descriptors fd).read }

/-- `readBlocking(condition_fd, timeout_ms)`; the state is the one when its `::poll` comes back.
`pollFails` is whether that fails, `errno` what `errno` is when it throws. -/
def readBlocking (p : Process) (conditionFd : Fd) (timeoutMs : Int) (pollFails : Bool) (errno : Nat) :
    Outcome (List Byte) × Process :=
  if pollFails then (.socketError .SOCKET_READ_TIMEOUT errno, p)
  else match p.revents conditionFd with
    | .pollin =>
        let p := p.readDescriptor conditionFd
        let r := p.stream.read conditionFd
        (r.1, { p with stream := r.2 })
    | .pollnval => (.socketError .SOCKET_READ_TIMEOUT errno, p)
    | .nothing =>
        if timeoutMs < 0 then (.waiting, p) else (.threw (p.stream.state.pollExpired errno), p)

/-- The call throws `SOCKET_INVALID_CONDITION`, and nothing in the process has changed. -/
def Refuses (p : Process) (conditionFd : Fd) (timeoutMs : Int) (pollFails : Bool) (errno : Nat) : Prop :=
  let r := p.readBlocking conditionFd timeoutMs pollFails errno
  r.1.ThrewType .SOCKET_INVALID_CONDITION ∧ r.2 = p

end Process

end SocketWrapper
