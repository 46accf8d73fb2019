import SocketWrapper.Lib.Calls
import SocketWrapper.Lib.Transition
import SocketWrapper.Lib.WaitFor

/-!
# The mutexes of `Stream`

What a call does while it holds a mutex is left out here, a `std::lock_guard` is a step when it locks and a
step when it unlocks. Streams are named by numbers.
-/

namespace SocketWrapper

/-- `stream_file_descriptor_read_mtx` and `stream_file_descriptor_write_mtx` of a stream. -/
inductive Mutex
  | readMtx (stream : Nat)
  | writeMtx (stream : Nat)
  deriving DecidableEq, Repr

/-- `Stream::read`, `Stream::write`, the construction of a stream from `src` and `target = std::move(src)`. -/
inductive LockingCall
  | read (stream : Nat)
  | write (stream : Nat)
  | construct (src : Nat)
  | assign (target src : Nat)
  deriving DecidableEq, Repr

namespace LockingCall

/-- The mutexes in the order of the `std::lock_guard`s. -/
def mutexes : LockingCall → List Mutex
  | .read stream => [.readMtx stream]
  | .write stream => [.writeMtx stream]
  | .construct src => [.readMtx src, .writeMtx src]
  | .assign target src => [.writeMtx target, .readMtx target, .writeMtx src, .readMtx src]

/-- The call locks in a loop, once or more often or never. -/
def Loops : LockingCall → Prop
  | .read _ => True
  | .write _ => True
  | .construct _ => False
  | .assign _ _ => False

instance (call : LockingCall) : Decidable call.Loops :=
  match call with
  | .read _ => inferInstanceAs (Decidable True)
  | .write _ => inferInstanceAs (Decidable True)
  | .construct _ => inferInstanceAs (Decidable False)
  | .assign _ _ => inferInstanceAs (Decidable False)

/-- The calls have `target = std::move(src)` among them. -/
def AssignedFrom (calls : List LockingCall) (target src : Nat) : Prop := .assign target src ∈ calls

/-- No stream gets its own value back over the assignments, and none that a stream is constructed from is
assigned to or from. -/
structure Orderly (calls : List LockingCall) : Prop where
  acyclic : WaitFor.Acyclic (AssignedFrom calls)
  apart : ∀ {src target src'}, .construct src ∈ calls → .assign target src' ∈ calls →
    src ≠ target ∧ src ≠ src'

end LockingCall

/-- Where a call is: how many of its mutexes it holds, and whether it is giving them back. -/
structure Locking where
  call : LockingCall
  held : Nat
  releasing : Bool
  deriving DecidableEq, Repr

namespace Locking

def start (call : LockingCall) : Locking := ⟨call, 0, false⟩

def holding (l : Locking) : List Mutex := l.call.mutexes.take l.held

/-- The mutex that the call locks next. -/
def next? (l : Locking) : Option Mutex := if l.releasing then none else l.call.mutexes[l.held]?

/-- The mutex that was locked last is given back. After the last one a loop is at its condition again. -/
def release (l : Locking) : Locking :=
  ⟨l.call, l.held - 1, if l.call.Loops ∧ l.held = 1 then false else true⟩

end Locking

structure Locks where
  calls : Calls Locking

namespace Locks

inductive Action
  | call (thread : Nat) (call : LockingCall)
  | lock (thread : Nat)
  | unlock (thread : Nat)
  | finish (thread : Nat)
  deriving DecidableEq

/-- No thread has called anything. -/
def start (threads : Nat) : Locks := ⟨.start threads⟩

/-- Nobody holds the mutex. -/
def Free (m : Locks) (mutex : Mutex) : Prop := ∀ l ∈ m.calls.all, mutex ∉ l.holding

instance (m : Locks) (mutex : Mutex) : Decidable (m.Free mutex) :=
  inferInstanceAs (Decidable (∀ l ∈ m.calls.all, mutex ∉ l.holding))

def step (m : Locks) : Action → Option Locks
  | .call thread call =>
      match m.calls.threads[thread]? with
      | some none => some ⟨m.calls.enter thread (.start call)⟩
      | _ => none
  | .lock thread =>
      match m.calls.call? thread with
      | some (number, l) =>
          match l.next? with
          | some mutex =>
              if m.Free mutex then some ⟨m.calls.goOn thread number { l with held := l.held + 1 }⟩
              else none
          | none => none
      | none => none
  | .unlock thread =>
      match m.calls.call? thread with
      | some (number, l) =>
          if 0 < l.held ∧ (l.releasing ∨ l.held = l.call.mutexes.length) then
            some ⟨m.calls.goOn thread number l.release⟩
          else none
      | none => none
  | .finish thread =>
      match m.calls.call? thread with
      | some (_, l) =>
          if l.held = 0 ∧ (l.releasing ∨ l.call.Loops) then some ⟨m.calls.leave thread⟩ else none
      | none => none

/-- The calls that have not come back. -/
def inProgress (m : Locks) : List LockingCall := m.calls.all.map Locking.call

/-- A thread waits for a mutex that the other one holds, or that it holds itself. -/
def WaitsFor (m : Locks) (thread other : Nat) : Prop :=
  ∃ n l n' l' mutex, m.calls.At thread n l ∧ l.next? = some mutex ∧ m.calls.At other n' l' ∧
    mutex ∈ l'.holding

def Deadlocked (m : Locks) : Prop := ∃ threads, WaitFor.Stuck m.WaitsFor threads

/-- A call only begins where it and those that have not come back are orderly. -/
def KeepsOrder (m : Locks) : Action → Prop
  | .call _ call => LockingCall.Orderly (call :: m.inProgress)
  | _ => True

/-- Thread `i` makes call `i` and no other. -/
def Action.Of (calls : List LockingCall) : Action → Prop
  | .call thread made => calls[thread]? = some made
  | _ => True

instance (calls : List LockingCall) (a : Action) : Decidable (a.Of calls) :=
  match a with
  | .call thread made => inferInstanceAs (Decidable (calls[thread]? = some made))
  | .lock _ => inferInstanceAs (Decidable True)
  | .unlock _ => inferInstanceAs (Decidable True)
  | .finish _ => inferInstanceAs (Decidable True)

end Locks

end SocketWrapper
