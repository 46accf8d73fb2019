import SocketWrapper.Datagram.Socket
import SocketWrapper.Lib.Calls
import SocketWrapper.Lib.Transition

/-!
# Threads that read from one `UdpDatagram`

A read is three steps: `::poll`, `::recvmsg` into the member `buffer`, and the copy of its first bytes.
-/

namespace SocketWrapper.Descriptors

/-- A call whose `::poll` has found the socket marked. -/
inductive Reading
  /-- The call is at `::recvmsg`. -/
  | polled
  /-- The call is at the copy; with the number of the datagram that it has received. -/
  | received (readResult datagram : Nat)
  deriving DecidableEq, Repr

/-- A call that has returned, with the number of the datagram that it had received. -/
structure ReadDatagram where
  datagram : Nat
  bytes : List Byte
  deriving DecidableEq, Repr

structure DatagramReaders where
  object : UdpDatagram
  calls : Calls Reading
  /-- The datagrams that have not been received. -/
  queued : List (List Byte)
  /-- History: the datagrams that have, and the calls that have returned. -/
  received : List (List Byte)
  completions : List ReadDatagram

namespace DatagramReaders

inductive Action
  /-- A thread calls `read`, and `::poll` comes back. -/
  | poll (thread : Nat) (timeoutMs : Int) (answer : PollAnswer) (errno : Nat)
  | recvmsg (thread errno : Nat)
  | recvmsgFails (thread errno : Nat)
  | copy (thread : Nat)
  deriving DecidableEq, Repr

/-- `read()`, and `::poll` marks the socket. -/
def Action.pollMarked (thread : Nat) : Action := .poll thread (-1) ⟨1, true, false⟩ 0

/-- No thread has called anything. -/
def start (object : UdpDatagram) (threads : Nat) (queued : List (List Byte)) : DatagramReaders :=
  ⟨object, .start threads, queued, [], []⟩

def step (m : DatagramReaders) : Action → Option DatagramReaders
  | .poll thread timeoutMs answer errno =>
      match m.calls.threads[thread]? with
      | some none =>
          match UdpDatagram.pollVerdict timeoutMs answer errno with
          | some _ => some m
          | none => some { m with calls := m.calls.enter thread .polled }
      | _ => none
  | .recvmsg thread errno =>
      match m.calls.threads[thread]?, m.queued with
      | some (some (number, .polled)), datagram :: queued =>
          let r := m.object.receive (.takes datagram) errno
          let m := { m with object := r.2, queued := queued, received := m.received ++ [datagram] }
          match r.1 with
          | .returned readResult => some { m with
              calls := m.calls.goOn thread number (.received readResult (m.received.length - 1)) }
          | _ => some { m with calls := m.calls.leave thread }
      | _, _ => none
  | .recvmsgFails thread _ =>
      match m.calls.threads[thread]? with
      | some (some (_, .polled)) => some { m with calls := m.calls.leave thread }
      | _ => none
  | .copy thread =>
      match m.calls.threads[thread]? with
      | some (some (_, .received readResult datagram)) => some { m with
          calls := m.calls.leave thread
          completions := m.completions ++ [⟨datagram, m.object.copyOut readResult⟩] }
      | _ => none

/-- Every call that has returned gave the bytes of the datagram that it had received, and no two had
received the same one. -/
structure EachItsOwn (m : DatagramReaders) : Prop where
  bytes : ∀ c ∈ m.completions, m.received[c.datagram]? = some c.bytes
  once : (m.completions.map ReadDatagram.datagram).Nodup

/-- If the call has still to copy a datagram, that one and the new one agree as far as both go. -/
def MayFollow (m : DatagramReaders) (datagram : List Byte) : Reading → Prop
  | .polled => True
  | .received _ pending => ∀ bytes ∈ m.received[pending]?, bytes <+: datagram ∨ datagram <+: bytes

instance (m : DatagramReaders) (datagram : List Byte) (call : Reading) :
    Decidable (m.MayFollow datagram call) :=
  match call with
  | .polled => inferInstanceAs (Decidable True)
  | .received _ pending => inferInstanceAs (Decidable
      (∀ bytes ∈ m.received[pending]?, bytes <+: datagram ∨ datagram <+: bytes))

/-- A datagram is received only where it does not spoil what another thread has still to copy. -/
def SpoilsNothing (m : DatagramReaders) : Action → Prop
  | .recvmsg thread _ =>
      ∀ datagram ∈ m.queued.head?, ∀ call ∈ m.calls.others thread, m.MayFollow datagram call
  | _ => True

instance (m : DatagramReaders) (a : Action) : Decidable (m.SpoilsNothing a) :=
  match a with
  | .recvmsg thread _ => inferInstanceAs (Decidable
      (∀ datagram ∈ m.queued.head?, ∀ call ∈ m.calls.others thread, m.MayFollow datagram call))
  | .poll _ _ _ _ => inferInstanceAs (Decidable True)
  | .recvmsgFails _ _ => inferInstanceAs (Decidable True)
  | .copy _ => inferInstanceAs (Decidable True)

end DatagramReaders

end SocketWrapper.Descriptors
