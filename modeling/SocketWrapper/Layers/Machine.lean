import SocketWrapper.Lib.Guards
import SocketWrapper.Locks.Machine

/-!
# The mutexes of the layers above `Stream`

The functions of `Stream`, `BufferedStream` and `ConditionalBufferedStream` with their `std::lock_guard`s, the
calls between them and the places where they wait. Streams are named by numbers, whatever layers they have.
-/

namespace SocketWrapper

open Guards

inductive LayerMutex
  | bufferEventHandlersMtx (stream : Nat)
  | receivedDataPerConditionMtx (stream : Nat)
  | bufferLock (stream : Nat)
  | streamMtx (m : Mutex)
  deriving DecidableEq, Repr

/-- `std::recursive_mutex`, or else `std::mutex`. -/
def LayerMutex.recursive : LayerMutex → Bool
  | .streamMtx _ => false
  | _ => true

inductive Procedure
  | streamRead (stream : Nat)
  | streamWrite (stream : Nat)
  /-- `Stream(Stream &&src)`. -/
  | construct (src : Nat)
  /-- `Stream &operator=(Stream &&stream_to_assign)`. -/
  | moveAssign (target src : Nat)
  | readUntilDelimiter (stream : Nat)
  /-- `BufferedStream::read(bytes_to_read, timeout_ms)`. -/
  | bufferedRead (stream : Nat)
  /-- `BufferedStream::read(buffer, max_bytes_to_read, min_bytes_to_read, timeout_ms)`. -/
  | bufferedReadInto (stream : Nat)
  | popFromBuffer (stream : Nat)
  | readAvailableDataIntoBuffer (stream : Nat)
  | bufferedWrite (stream : Nat)
  | conditionalBufferWorker (stream : Nat)
  | processDataSendSignals (stream : Nat)
  /-- What the handlers of a stream were registered with. -/
  | condition (stream : Nat)
  | read (stream : Nat)
  | readBlocking (stream : Nat)
  | write (stream : Nat)
  deriving DecidableEq, Repr

namespace Procedure

/-- The bodies, for conditions that do as they like. `poll`, `::write` and `sleep_for` wait. -/
def body (conditions : Nat → Code LayerMutex Procedure) : Procedure → Code LayerMutex Procedure
  | .streamRead s => .loop (.guard (.streamMtx (.readMtx s)) .wait)
  | .streamWrite s => .loop (.seq (.guard (.streamMtx (.writeMtx s)) .wait) .wait)
  | .construct src => .guard (.streamMtx (.readMtx src)) (.guard (.streamMtx (.writeMtx src)) .skip)
  | .moveAssign target src =>
      .guard (.streamMtx (.writeMtx target)) (.guard (.streamMtx (.readMtx target))
        (.guard (.streamMtx (.writeMtx src)) (.guard (.streamMtx (.readMtx src)) .skip)))
  | .readUntilDelimiter s => .loop (.call (.streamRead s))
  | .bufferedRead s =>
      .seq (.loop (.call (.readAvailableDataIntoBuffer s))) (.call (.popFromBuffer s))
  | .bufferedReadInto s =>
      .guard (.bufferLock s)
        (.seq (.call (.readAvailableDataIntoBuffer s))
          (.seq (.loop (.call (.readAvailableDataIntoBuffer s))) (.call (.popFromBuffer s))))
  | .popFromBuffer s => .guard (.bufferLock s) .skip
  | .readAvailableDataIntoBuffer s => .guard (.bufferLock s) (.call (.streamRead s))
  | .bufferedWrite s => .call (.streamWrite s)
  | .conditionalBufferWorker s =>
      .seq (.loop (.seq (.call (.readAvailableDataIntoBuffer s)) (.call (.processDataSendSignals s))))
        (.choose .skip (.guard (.bufferEventHandlersMtx s) .skip))
  | .processDataSendSignals s =>
      .choose .skip (.guard (.bufferEventHandlersMtx s)
        (.loop (.seq (.call (.condition s))
          (.choose .skip (.seq (.guard (.receivedDataPerConditionMtx s) (.call (.popFromBuffer s)))
            (.call (.processDataSendSignals s)))))))
  | .condition s => conditions s
  | .read s => .guard (.receivedDataPerConditionMtx s) .skip
  | .readBlocking s => .seq .wait (.call (.read s))
  | .write s => .call (.bufferedWrite s)

/-- What the users of the classes can call. -/
def IsPublic : Procedure → Bool
  | .popFromBuffer _ | .readAvailableDataIntoBuffer _ | .conditionalBufferWorker _
  | .processDataSendSignals _ | .condition _ => false
  | _ => true

/-- What is moved, by those that move. -/
def move? : Procedure → Option LockingCall
  | .construct src => some (.construct src)
  | .moveAssign target src => some (.assign target src)
  | _ => none

/-- What the users of the classes can call, where the moves are some of `moves`. -/
def IsPublicAmong (moves : List LockingCall) (p : Procedure) : Bool :=
  p.IsPublic && p.move?.all fun call => decide (call ∈ moves)

/-- The public functions of `ConditionalBufferedStream`. -/
def OfConditional : Procedure → Bool
  | .read _ | .readBlocking _ | .write _ => true
  | _ => false

/-- The stream whose worker it is. -/
def workerOf? : Procedure → Option Nat
  | .conditionalBufferWorker s => some s
  | _ => none

end Procedure

/-- A condition that locks nothing itself and calls what is `allowed`. -/
def CallsOnly (allowed : Procedure → Bool) : Code LayerMutex Procedure → Prop
  | .skip => True
  | .wait => True
  | .seq a c => CallsOnly allowed a ∧ CallsOnly allowed c
  | .choose a c => CallsOnly allowed a ∧ CallsOnly allowed c
  | .loop a => CallsOnly allowed a
  | .guard _ _ => False
  | .call p => allowed p = true

abbrev Layers := Threads LayerMutex Procedure

namespace Layers

abbrev step (conditions : Nat → Code LayerMutex Procedure) :
    Layers → Threads.Action Procedure → Option Layers :=
  Threads.step (Procedure.body conditions) LayerMutex.recursive

/-- Threads call public functions, with no moves but these, and `start()` makes one that is a worker. -/
def Uses (moves : List LockingCall) (_ : Layers) : Threads.Action Procedure → Prop
  | .start _ p => p.IsPublicAmong moves = true ∨ p.workerOf?.isSome = true
  | _ => True

/-- Threads call the public functions of `ConditionalBufferedStream`s, and the worker of each is thread
`worker s`. -/
def UsesConditional (worker : Nat → Nat) (_ : Layers) : Threads.Action Procedure → Prop
  | .start i p => p.OfConditional = true ∨ p.workerOf?.map worker = some i
  | _ => True

instance (moves : List LockingCall) (g : Layers) (a : Threads.Action Procedure) : Decidable (Uses moves g a) :=
  match a with
  | .start _ p => inferInstanceAs (Decidable (p.IsPublicAmong moves = true ∨ p.workerOf?.isSome = true))
  | .advance _ _ => inferInstanceAs (Decidable True)
  | .throw _ => inferInstanceAs (Decidable True)

instance (worker : Nat → Nat) (g : Layers) (a : Threads.Action Procedure) :
    Decidable (UsesConditional worker g a) :=
  match a with
  | .start i p => inferInstanceAs (Decidable (p.OfConditional = true ∨ p.workerOf?.map worker = some i))
  | .advance _ _ => inferInstanceAs (Decidable True)
  | .throw _ => inferInstanceAs (Decidable True)

/-- Some threads wait for each other in a circle, or a thread for itself. -/
def Deadlocked (g : Layers) : Prop := ∃ threads, WaitFor.Stuck (g.WaitsFor LayerMutex.recursive) threads

/-- The thread is in `poll`, or elsewhere where it takes as long as others like. -/
def Polls (g : Layers) (i : Nat) : Prop := ∃ k, g.stack i = .code .wait :: k

end Layers

end SocketWrapper
