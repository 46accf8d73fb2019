import SocketWrapper.Descriptors.Objects
import SocketWrapper.Lib.Transition

/-!
# Programs that create, move and destroy the objects

One thread, any number of objects. An object keeps its place in the list after its destructor has run.
-/

namespace SocketWrapper.Descriptors

open Ownership

/-! ## Creating operations -/

inductive Object
  | stream (s : Stream)
  | udpDatagram (u : UdpDatagram)
  | buffered (b : BufferedStream)
  | listener (l : Listening)
  | listenerBase (l : Listening)
  deriving DecidableEq, Repr

/-- The descriptor, unless it is a marker for none. -/
def nonnegative (fd : Fd) : List Fd := if fd < 0 then [] else [fd]

namespace Object

/-- The socket that the destructor closes, if there is one. -/
def sockets : Object → List Fd
  | .stream s => nonnegative s.streamFileDescriptor
  | .udpDatagram u => nonnegative u.socketFd
  | .buffered b => nonnegative b.stream.streamFileDescriptor
  | .listener l => if l.stoppedAccepting then [] else [l.listenerSocketFd]
  | .listenerBase l => if l.stoppedAccepting then [] else [l.listenerSocketFd]

/-- The block that the destructor frees, if there is one. -/
def blocks : Object → List Int
  | .buffered b =>
      if b.streamBuffer = BufferedStream.invalidBuffer ∨ b.streamBuffer = 0 then [] else [b.streamBuffer]
  | _ => []

end Object

/-- The operations that open descriptors. -/
inductive Creation
  | createPipe
  | createTcpStreamToServer
  | listener (reuse : Bool)
  | listenerBase
  /-- `accept` of a listener, where `::poll` comes back with the marks. -/
  | accept (l : Listening) (marks : Marks) (errno : Nat)
  | udpDatagram (version : IpVersion) (bufferSize : Int)
  deriving DecidableEq, Repr

/-- The objects that a constructor or a factory returns. -/
def asObjects {α : Type} (objects : α → List Object) (r : Outcome α × Kernel) :
    Outcome (List Object) × Kernel :=
  Outcome.andThen r fun a k => (.returned (objects a), k)

/-- Perform the operation: the objects that it creates. -/
def Creation.perform (C : Choices) (v : Verdicts) (k : Kernel) :
    Creation → Outcome (List Object) × Kernel
  | .createPipe =>
      asObjects (fun p => [.stream p.1, .stream p.2]) (StreamFactory.createPipe C v k)
  | .createTcpStreamToServer =>
      asObjects (fun s => [.stream s]) (StreamFactory.createTcpStreamToServer C v k)
  | .listener reuse => asObjects (fun l => [.listener l]) (Listener.make C v reuse k)
  | .listenerBase => asObjects (fun l => [.listenerBase l]) (ListenerBase.make C v k)
  | .accept l marks errno =>
      asObjects (fun s => [.stream s]) (Listener.accept C v l marks errno k)
  | .udpDatagram version bufferSize =>
      asObjects (fun u => [.udpDatagram u]) (UdpDatagram.make C v version bufferSize k)

/-! ## Programs -/

structure Program where
  kernel : Kernel
  /-- The objects in the order of their creation; `none` once destroyed. -/
  objects : List (Option Object)
  /-- History: the sockets that a move assignment has overwritten. -/
  overwritten : List Fd

def Program.init : Program := ⟨.init, [], []⟩

inductive Action
  /-- A creating operation that succeeds. -/
  | create (c : Creation) (v : Verdicts)
  /-- Move-construct a new object from object `i`. -/
  | moveConstruct (i : Nat)
  /-- Move-assign object `j` to object `i`. -/
  | moveAssign (i j : Nat)
  /-- Construct a `BufferedStream` from the `Stream` `i`. -/
  | wrap (i bufferSize : Nat)
  /-- `stopReads` or `stopAccepting`. -/
  | stop (i : Nat)
  | destroy (i : Nat)

namespace Object

/-- The move constructor, where the class has one: the new object, and what is left of the source. -/
def moveConstruct : Object → Option (Object × Object)
  | .stream s => some (.stream s.moveConstruct.1, .stream s.moveConstruct.2)
  | .udpDatagram u => some (.udpDatagram u.moveConstruct.1, .udpDatagram u.moveConstruct.2)
  | .buffered b => some (.buffered b.moveConstruct.1, .buffered b.moveConstruct.2)
  | _ => none

/-- The move assignment, where there is one for the two objects. -/
def moveAssign : Object → Object → Option (Object × Object)
  | .stream s, .stream src => some (.stream (s.moveAssign src).1, .stream (s.moveAssign src).2)
  | .udpDatagram u, .udpDatagram src =>
      some (.udpDatagram (u.moveAssign src).1, .udpDatagram (u.moveAssign src).2)
  | _, _ => none

/-- `stopReads` or `stopAccepting`. -/
def stop (k : Kernel) : Object → Object × Kernel
  | .stream s => (.stream s, s.stopReads k)
  | .udpDatagram u => (.udpDatagram u, u.stopReads k)
  | .buffered b => (.buffered b, b.stopReads k)
  | .listener l => (.listener (Listener.stopAccepting l k).1, (Listener.stopAccepting l k).2)
  | .listenerBase l =>
      (.listenerBase (ListenerBase.stopAccepting l k).1, (ListenerBase.stopAccepting l k).2)

/-- The destructor. -/
def destroy (k : Kernel) : Object → Kernel
  | .stream s => s.destroy k
  | .udpDatagram u => u.destroy k
  | .buffered b => b.destroy k
  | .listener l => Listener.destroy l k
  | .listenerBase l => ListenerBase.destroy l k

end Object

namespace Program

variable (C : Choices)

/-- Object `i`, if it is alive. -/
def object? (p : Program) (i : Nat) : Option Object := p.objects[i]?.join

def act (p : Program) : Action → Option Program
  | .create c v =>
      match c.perform C v p.kernel with
      | (.returned created, k) =>
          some { p with kernel := k, objects := p.objects ++ created.map some }
      | _ => none
  | .moveConstruct i => do
      let o ← p.object? i
      let (created, left) ← o.moveConstruct
      some { p with objects := p.objects.set i (some left) ++ [some created] }
  | .moveAssign i j => do
      if i = j then none
      let o ← p.object? i
      let src ← p.object? j
      let (assigned, left) ← o.moveAssign src
      some { p with
        objects := (p.objects.set i (some assigned)).set j (some left)
        overwritten := o.sockets ++ p.overwritten }
  | .wrap i bufferSize =>
      match p.object? i with
      | some (.stream s) =>
          let (b, left, k) := BufferedStream.wrap C s bufferSize p.kernel
          some { p with
            kernel := k
            objects := p.objects.set i (some (.stream left)) ++ [some (.buffered b)] }
      | _ => none
  | .stop i => do
      let o ← p.object? i
      let (o, k) := o.stop p.kernel
      some { p with kernel := k, objects := p.objects.set i (some o) }
  | .destroy i => do
      let o ← p.object? i
      some { p with kernel := o.destroy p.kernel, objects := p.objects.set i none }

/-- Nothing happens after `std::terminate`. -/
def step (p : Program) (a : Action) : Option Program :=
  if p.kernel.terminated then none else p.act C a

end Program

end SocketWrapper.Descriptors
