import SocketWrapper.Base.Stream

/-!
# `Stream::write`, one attempt after the other

The loop gives up the write mutex after every attempt, so a call is described by what it has done so
far.
-/

namespace SocketWrapper

/-- What a `::write` comes back with. -/
inductive WriteAnswer
  /-- The kernel has taken that many bytes. -/
  | accepts (count : Nat)
  | fails (errno : Nat)
  deriving DecidableEq

/-- A call of `Stream::write` at the head of its loop. -/
structure WriteCall where
  buffer : List Byte
  /-- The attempts that are left. -/
  attempts : Nat
  totalWrittenBytes : Nat
  deriving DecidableEq

namespace WriteCall

/-- The call at its beginning. -/
def start (buffer : List Byte) (attempts : Nat) : WriteCall := ⟨buffer, attempts, 0⟩

/-- What the next `::write` is given. -/
def offered (w : WriteCall) : List Byte := w.buffer.drop w.totalWrittenBytes

/-- The kernel takes at most what it is given. -/
def Allows (w : WriteCall) : WriteAnswer → Prop
  | .accepts count => count ≤ w.offered.length
  | .fails _ => True

instance (w : WriteCall) (answer : WriteAnswer) : Decidable (w.Allows answer) :=
  match answer with
  | .accepts count => inferInstanceAs (Decidable (count ≤ w.offered.length))
  | .fails _ => inferInstanceAs (Decidable True)

/-- One attempt: the bytes that the kernel takes, how the call comes back if it does, and where its
loop stands otherwise. -/
def attempt (w : WriteCall) : WriteAnswer → List Byte × Option (Outcome Unit) × WriteCall
  | .fails errno => ([], some (.socketError .SOCKET_WRITE errno), { w with attempts := w.attempts - 1 })
  | .accepts count =>
      let w' : WriteCall := ⟨w.buffer, w.attempts - 1, w.totalWrittenBytes + count⟩
      (w.offered.take count,
        if w'.totalWrittenBytes = w.buffer.length then some (.returned ()) else none, w')

/-- After the last attempt. `errno` is whatever an earlier call of anything has left there. -/
def giveUp (w : WriteCall) (errno : Nat) : Outcome Unit :=
  if w.totalWrittenBytes ≠ w.buffer.length then
    .threw (.socket ⟨.SOCKET_WRITE_PARTIAL, errno, w.totalWrittenBytes⟩)
  else .returned ()

end WriteCall

end SocketWrapper
