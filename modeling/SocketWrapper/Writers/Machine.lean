import SocketWrapper.Base.Write
import SocketWrapper.Lib.Interleaved
import SocketWrapper.Lib.Transition

/-!
# Threads that write to one `Stream`

The section that holds the write mutex is one step, and it is an attempt: between two attempts of a
call the mutex is free.
-/

namespace SocketWrapper

/-- A call that has not come back, with its number. -/
structure Writing where
  number : Nat
  call : WriteCall
  deriving DecidableEq

/-- A part of the call's buffer is on the wire, and the call goes on with the rest. -/
def Writing.Partway (w : Writing) : Prop := 0 < w.call.totalWrittenBytes ∧ 0 < w.call.attempts

instance (w : Writing) : Decidable w.Partway := inferInstanceAs (Decidable (_ ∧ _))

/-- A call that has come back. -/
structure Written where
  number : Nat
  buffer : List Byte
  outcome : Outcome Unit
  deriving DecidableEq

structure Writers where
  /-- What each thread is doing. -/
  threads : List (Option Writing)
  /-- The bytes that the kernel has taken, each with the number of the call that it comes from. -/
  wire : List (Nat × Byte)
  /-- History: the calls that have begun and those that have come back. -/
  begun : Nat
  completions : List Written

namespace Writers

inductive Action
  /-- A thread calls `Stream::write(buffer, size, attempts)`. -/
  | call (thread : Nat) (buffer : List Byte) (attempts : Nat)
  | attempt (thread : Nat) (answer : WriteAnswer)
  /-- A thread has no attempt left. -/
  | giveUp (thread : Nat) (errno : Nat)
  deriving DecidableEq

/-- `BufferedStream::write`, which `ConditionalBufferedStream::write` calls as well. -/
def Action.callBuffered (thread : Nat) (buffer : List Byte) : Action := .call thread buffer 2

/-- No thread has called anything. -/
def start (threads : Nat) : Writers := ⟨List.replicate threads none, [], 0, []⟩

/-- The thread is in a call. -/
abbrev At (m : Writers) (thread : Nat) (w : Writing) : Prop := m.threads[thread]? = some (some w)

/-- The call of a thread comes back. -/
def complete (m : Writers) (thread : Nat) (w : Writing) (outcome : Outcome Unit) : Writers :=
  { m with
    threads := m.threads.set thread none
    completions := m.completions ++ [⟨w.number, w.call.buffer, outcome⟩] }

def step (m : Writers) : Action → Option Writers
  | .call thread buffer attempts =>
      match m.threads[thread]? with
      | some none => some { m with
          threads := m.threads.set thread (some ⟨m.begun, .start buffer attempts⟩)
          begun := m.begun + 1 }
      | _ => none
  | .attempt thread answer =>
      match m.threads[thread]? with
      | some (some w) =>
          if 0 < w.call.attempts ∧ w.call.Allows answer then
            let r := w.call.attempt answer
            let m := { m with wire := m.wire ++ Interleaved.tag w.number r.1 }
            match r.2.1 with
            | some outcome => some (m.complete thread w outcome)
            | none => some { m with threads := m.threads.set thread (some ⟨w.number, r.2.2⟩) }
          else none
      | _ => none
  | .giveUp thread errno =>
      match m.threads[thread]? with
      | some (some w) =>
          if w.call.attempts = 0 then some (m.complete thread w (w.call.giveUp errno)) else none
      | _ => none

/-- The bytes of every call that has returned are on the wire in one piece. -/
def Atomic (m : Writers) : Prop :=
  ∀ c ∈ m.completions, c.outcome = .returned () → Interleaved.Block m.wire c.number c.buffer

/-- Bytes are only taken from a call while no other is partway. -/
def Undisturbed (m : Writers) : Action → Prop
  | .attempt thread (.accepts count) =>
      0 < count → ∀ other w, other ≠ thread → m.At other w → ¬ w.Partway
  | _ => True

instance (m : Writers) (a : Action) : Decidable (m.Undisturbed a) :=
  match a with
  | .attempt thread (.accepts count) =>
      decidable_of_iff (0 < count → ∀ other < m.threads.length, other ≠ thread →
          ∀ w ∈ (m.threads[other]?).join, ¬ w.Partway) <| by
        constructor
        · intro h hpos other w hne hw
          exact h hpos other (List.getElem?_eq_some_iff.mp hw).1 hne w (by simp [hw])
        · intro h hpos other _ hne w hw
          exact h hpos other w hne (Option.join_eq_some_iff.mp hw)
  | .attempt _ (.fails _) => inferInstanceAs (Decidable True)
  | .call _ _ _ => inferInstanceAs (Decidable True)
  | .giveUp _ _ => inferInstanceAs (Decidable True)

end Writers

end SocketWrapper
