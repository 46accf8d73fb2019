import SocketWrapper.Lib.Calls
import SocketWrapper.Lib.Transition

/-!
# Threads that call `stopAccepting`, and the destructor

For a `Listener` and for a `ListenerBase`. A step ends at an access to a shared member or at a system call.
The handler thread of a `ListenerBase` may call `stopAccepting` from its callback.
-/

namespace SocketWrapper

/-- Whose `stopAccepting` it is. `handler` is the thread that `startAccepting` has started, if it was
called. -/
inductive Stoppable
  | listener
  | listenerBase (handler : Option Nat)
  deriving DecidableEq, Repr

/-- Where a call is: at the load of the flag, the `::write`, `joinable()`, the beginning of `join()`, the
wait in it, the `::close` and the store. -/
inductive StopAt
  | loading
  | posting
  | asking
  | entering
  | joining
  | closing
  | storing
  deriving DecidableEq, Repr

structure StopCall where
  place : StopAt
  /-- The call is that of the destructor. -/
  destructor : Bool
  deriving DecidableEq, Repr

structure Stops where
  object : Stoppable
  /-- `handle_incoming_streams_task.joinable()`. -/
  joinable : Bool
  handlerEnded : Bool
  /-- The counter of `listener_end_fd`. -/
  endEvent : Nat
  stoppedAccepting : Bool
  calls : Calls StopCall
  /-- The destructor has begun, and it has ended. -/
  destroying : Bool
  destroyed : Bool
  /-- An exception has left the destructor, which is `noexcept`. -/
  terminated : Bool
  /-- History: the `::close` calls on `listener_socket_fd` and the joins of the handler thread. -/
  closes : Nat
  joins : Nat

namespace Stops

inductive Action
  | call (thread : Nat)
  | destroy (thread : Nat)
  /-- A thread goes on in `stopAccepting`. -/
  | advance (thread : Nat)
  | handlerEnds
  deriving DecidableEq

def handler? (m : Stops) : Option Nat :=
  match m.object with
  | .listener => none
  | .listenerBase handler => handler

/-- A new object. No thread has called anything. -/
def start (object : Stoppable) (threads : Nat) : Stops :=
  let joinable := match object with
    | .listener => false
    | .listenerBase handler => handler.isSome
  ⟨object, joinable, false, 0, false, .start threads, false, false, false, 0, 0⟩

/-- The call of a thread goes on at another place. -/
def moveTo (m : Stops) (thread number : Nat) (call : StopCall) (place : StopAt) : Stops :=
  { m with calls := m.calls.goOn thread number { call with place := place } }

/-- The call of a thread returns. -/
def complete (m : Stops) (thread : Nat) (call : StopCall) : Stops :=
  { m with calls := m.calls.leave thread, destroyed := m.destroyed || call.destructor }

/-- The call of a thread throws. -/
def fail (m : Stops) (thread : Nat) (call : StopCall) : Stops :=
  { m with calls := m.calls.leave thread, terminated := m.terminated || call.destructor }

/-- A step of `stopAccepting`. A `join()` that would wait for the handler is none. -/
def advance (m : Stops) (thread number : Nat) (call : StopCall) : Option Stops :=
  match call.place with
  | .loading =>
      some (if m.stoppedAccepting then m.complete thread call else m.moveTo thread number call .posting)
  | .posting =>
      let next := match m.object with
        | .listener => .closing
        | .listenerBase _ => .asking
      some ({ m with endEvent := m.endEvent + 65535 }.moveTo thread number call next)
  | .asking => some (m.moveTo thread number call (if m.joinable then .entering else .closing))
  | .entering =>
      -- `join()` throws where there is nothing to join, and in the handler thread itself
      if m.joinable ∧ m.handler? ≠ some thread then some (m.moveTo thread number call .joining)
      else some (m.fail thread call)
  | .joining =>
      if m.handlerEnded then
        some ({ m with joinable := false, joins := m.joins + 1 }.moveTo thread number call .closing)
      else none
  | .closing => some ({ m with closes := m.closes + 1 }.moveTo thread number call .storing)
  | .storing => some ({ m with stoppedAccepting := true }.complete thread call)

def act (m : Stops) : Action → Option Stops
  | .call thread =>
      if m.calls.Idle thread ∧ ¬ m.destroying ∧ (m.handler? = some thread → ¬ m.handlerEnded) then
        some { m with calls := m.calls.enter thread ⟨.loading, false⟩ }
      else none
  | .destroy thread =>
      -- all the calls have come back
      if m.calls.Idle thread ∧ ¬ m.destroying ∧ m.handler? ≠ some thread ∧ m.calls.all = [] then
        some { m with calls := m.calls.enter thread ⟨.loading, true⟩, destroying := true }
      else none
  | .advance thread =>
      match m.calls.call? thread with
      | some (number, call) => m.advance thread number call
      | none => none
  | .handlerEnds =>
      match m.handler? with
      | some handler =>
          -- the handler looks at the end descriptor between two callbacks
          if m.calls.call? handler = none ∧ 0 < m.endEvent ∧ ¬ m.handlerEnded then
            some { m with handlerEnded := true }
          else none
      | none => none

/-- Nothing happens after `std::terminate`. -/
def step (m : Stops) (a : Action) : Option Stops := if m.terminated then none else m.act a

/-- The socket is closed once at the most, and once when the destructor has ended. The handler thread is
joined once at the most. -/
structure ClosedOnce (m : Stops) : Prop where
  closes : m.closes ≤ 1
  joins : m.joins ≤ 1
  destroyed : m.destroyed = true → m.closes = 1

/-- A call of a thread that can join has found the flag unset and has not set it. -/
def Inside (m : Stops) (thread : Nat) : Prop :=
  m.handler? ≠ some thread ∧ ∃ c ∈ m.calls.call? thread, c.2.place ≠ .loading

/-- A thread that can join only finds the flag unset while no other is past that. -/
def Alone (m : Stops) : Action → Prop
  | .advance thread =>
      m.handler? ≠ some thread → m.stoppedAccepting = false →
        (∃ c ∈ m.calls.call? thread, c.2.place = .loading) →
        ∀ other < m.calls.threads.length, ¬ m.Inside other
  | _ => True

instance (m : Stops) (thread : Nat) : Decidable (m.Inside thread) := inferInstanceAs (Decidable (_ ∧ _))

instance (m : Stops) (a : Action) : Decidable (m.Alone a) :=
  match a with
  | .advance thread => inferInstanceAs (Decidable (m.handler? ≠ some thread → m.stoppedAccepting = false →
      (∃ c ∈ m.calls.call? thread, c.2.place = .loading) →
        ∀ other < m.calls.threads.length, ¬ m.Inside other))
  | .call _ => inferInstanceAs (Decidable True)
  | .destroy _ => inferInstanceAs (Decidable True)
  | .handlerEnds => inferInstanceAs (Decidable True)

end Stops

end SocketWrapper
