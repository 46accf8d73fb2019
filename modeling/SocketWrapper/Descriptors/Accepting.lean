import SocketWrapper.Descriptors.Objects
import SocketWrapper.Lib.Transition

/-!
# A `Listener` among other users of descriptors

`stopAccepting` closes the listening socket and keeps its number. The kernel may hand the number out
again to any other part of the process.
-/

namespace SocketWrapper.Descriptors

structure Process where
  listener : Listening
  kernel : Kernel
  /-- The descriptors that other parts of the process have opened and may close. -/
  others : List Fd

namespace Process

/-- The process after the construction of the listener. -/
def listening (C : Choices) : Process :=
  let e := Kernel.init.eventfd C none
  let r := e.2.openFd C
  ⟨⟨r.1, e.1, false⟩, r.2, []⟩

/-- What the kernel may answer to the calls of `accept(timeout)`. A number that is not open is marked
`POLLNVAL`, and `::accept` on it fails with `EBADF`. The eventfd is marked while its counter is positive. -/
def admits (p : Process) (timeout : Int) (marks : Marks) (v : Verdicts) : Bool :=
  (decide (p.listener.listenerSocketFd ∈ p.kernel.fds.opened) || marks.socket && decide (v .accept = some 9)) &&
    (marks.ending == decide (0 < p.kernel.counter p.listener.listenerEndFd)) &&
    (marks.socket || marks.ending || decide (0 ≤ timeout))

end Process

inductive ProcessAction
  | accept (timeout : Int) (marks : Marks) (v : Verdicts) (errno : Nat)
  | stopAccepting
  /-- Another part of the process opens a descriptor. -/
  | openOther
  | closeOther (fd : Fd)

/-- The socket of the stream, if the call has returned one. -/
def acceptedSocket : Outcome Stream → List Fd
  | .returned s => [s.streamFileDescriptor]
  | _ => []

def Process.step (C : Choices) (p : Process) : ProcessAction → Option Process
  | .accept timeout marks v errno =>
      if p.admits timeout marks v then
        let r := Listener.accept C v p.listener marks errno p.kernel
        some { p with kernel := r.2, others := acceptedSocket r.1 ++ p.others }
      else none
  | .stopAccepting =>
      let r := Listener.stopAccepting p.listener p.kernel
      some { p with listener := r.1, kernel := r.2 }
  | .openOther =>
      let r := p.kernel.openFd C
      some { p with kernel := r.2, others := r.1 :: p.others }
  | .closeOther fd =>
      if fd ∈ p.others then some { p with kernel := (p.kernel.close fd).2, others := p.others.erase fd }
      else none

end SocketWrapper.Descriptors
