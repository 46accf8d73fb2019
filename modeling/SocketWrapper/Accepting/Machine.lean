import SocketWrapper.Base.Stream
import SocketWrapper.Lib.Transition

/-!
# The threads of a `ListenerBase`

The handler thread, clients that connect, and threads that call `stopAccepting`, from the return of
`startAccepting` on. A step ends at a system call, at an access to a shared member, or where user code is
entered or left.
-/

namespace SocketWrapper

/-- Where the handler is in `handleIncomingStreams`: at the call that the name says, or in the callback. -/
inductive HandlerAt
  | polling
  | accepting
  | building (fd : Fd)
  | calling (fd : Fd)
  | incoming (fd : Fd)
  | ended
  /-- An exception that is no `std::exception` has left the thread function: `std::terminate`. -/
  | terminated
  deriving DecidableEq, Repr

/-- Where a thread is in `stopAccepting`: at the load of the flag, the `::write`, `joinable`, `join`, the
`::close` and the store. -/
inductive StopperAt
  | notCalled
  | checking
  | posting
  | asking
  | joining
  | closing
  | storing
  | returned
  deriving DecidableEq, Repr

structure ListenerBase where
  /-- `listener_socket_fd` is open. -/
  socketOpen : Bool
  /-- The clients that have connected and have not been accepted. -/
  clients : List Nat
  /-- The counter of `listener_end_fd`. -/
  endEvent : Nat
  /-- `handle_incoming_streams_task.joinable()`. -/
  joinable : Bool
  stoppedAccepting : Bool
  handler : HandlerAt
  stoppers : List StopperAt
  /-- History: what `::accept` has returned, with which of it a `Stream` was built, and which of the
  streams were passed to `onIncomingStream`. -/
  accepted : List Fd
  builds : List (Fd × Bool)
  passed : List Fd
  /-- History: the calls of `::poll` and `::accept` on the socket after it was closed. -/
  staleUses : Nat
  deriving DecidableEq

namespace ListenerBase

inductive HandlerAction
  | pollFails
  /-- `::poll` succeeds, and the listening socket is marked or not. -/
  | pollMarks (socket : Bool)
  | accept (fd : Fd)
  | acceptFails
  | build
  /-- The `eventfd` of the `Stream` cannot be created. -/
  | buildFails
  | callOnIncomingStream
  /-- `onIncomingStream` returns, or throws a `std::exception`. -/
  | leave
  /-- `onIncomingStream` throws something else. -/
  | throwOther
  deriving DecidableEq, Repr

inductive Action
  | arrive (client : Nat)
  /-- A client that has not been accepted gives up. -/
  | depart (client : Nat)
  | handler (a : HandlerAction)
  /-- A step of the `c`-th thread that calls `stopAccepting`. -/
  | stopper (c : Nat)
  deriving DecidableEq, Repr

/-- After `startAccepting`, with a number of threads that will call `stopAccepting`. -/
def started (stoppers : Nat) : ListenerBase :=
  ⟨true, [], 0, true, false, .polling, List.replicate stoppers .notCalled, [], [], [], 0⟩

/-- What the kernel may report of the listening socket: it is marked if a client waits, and `::poll` does
not come back before something is marked. -/
def mayMark (m : ListenerBase) (socket : Bool) : Bool :=
  if socket then true else (!m.socketOpen || m.clients.isEmpty) && decide (0 < m.endEvent)

/-- A `::poll` or `::accept` on the listening socket. -/
def useSocket (m : ListenerBase) : ListenerBase :=
  { m with staleUses := if m.socketOpen then m.staleUses else m.staleUses + 1 }

/-- A step of `handleIncomingStreams`. -/
def handlerStep (m : ListenerBase) (a : HandlerAction) : Option ListenerBase :=
  match m.handler, a with
  | .polling, .pollFails => some m.useSocket
  | .polling, .pollMarks socket =>
      if m.mayMark socket then
        -- the socket's mark is looked at before that of the end descriptor
        if socket then some { m.useSocket with handler := .accepting }
        else some { m.useSocket with handler := .ended }
      else none
  | .accepting, .accept fd =>
      match m.clients with
      | [] => none
      | _ :: clients => some { m.useSocket with
          handler := .building fd, clients := clients, accepted := m.accepted ++ [fd] }
  | .accepting, .acceptFails => some { m.useSocket with handler := .polling }
  | .building fd, .build => some { m with handler := .calling fd, builds := m.builds ++ [(fd, true)] }
  | .building fd, .buildFails => some { m with handler := .polling, builds := m.builds ++ [(fd, false)] }
  | .calling fd, .callOnIncomingStream => some { m with handler := .incoming fd, passed := m.passed ++ [fd] }
  | .incoming _, .leave => some { m with handler := .polling }
  | .incoming _, .throwOther => some { m with handler := .terminated }
  | _, _ => none

/-- The machine with stopper `c` at another place. -/
def moveTo (m : ListenerBase) (c : Nat) (place : StopperAt) : ListenerBase :=
  { m with stoppers := m.stoppers.set c place }

/-- A step of `stopAccepting` in thread `c`. -/
def stopperStep (m : ListenerBase) (c : Nat) : Option ListenerBase :=
  match m.stoppers[c]? with
  | none => none
  | some .notCalled => some (m.moveTo c .checking)
  | some .checking => some (m.moveTo c (if m.stoppedAccepting then .returned else .posting))
  | some .posting => some ({ m with endEvent := m.endEvent + 65535 }.moveTo c .asking)
  | some .asking => some (m.moveTo c (if m.joinable then .joining else .closing))
  | some .joining =>
      if m.handler = .ended then some ({ m with joinable := false }.moveTo c .closing) else none
  | some .closing => some ({ m with socketOpen := false }.moveTo c .storing)
  | some .storing => some ({ m with stoppedAccepting := true }.moveTo c .returned)
  | some .returned => none

def act (m : ListenerBase) : Action → Option ListenerBase
  | .arrive client => some { m with clients := m.clients ++ [client] }
  | .depart client => some { m with clients := m.clients.erase client }
  | .handler a => handlerStep m a
  | .stopper c => stopperStep m c

/-- Nothing happens after `std::terminate`. -/
def step (m : ListenerBase) (a : Action) : Option ListenerBase :=
  if m.handler = .terminated then none else m.act a

end ListenerBase

end SocketWrapper
