import SocketWrapper.Concurrent.Lemmas.Recorded

/-!
# Inside the sections that hold `received_data_per_condition_mtx`

`read` and the part of `processDataSendSignals` that queues a segment, an access to the shared members at a
time. The other threads take their steps in between, as long as they do not need the mutex.
-/

namespace SocketWrapper

open ConditionalBufferedStream

/-- Where a consumer is in `read`: at `find`, `empty`, `front`, `pop_front`, the test of `last_ex` and the
`throw` of it. -/
inductive ReadAt
  | find
  | empty
  | front
  | popFront (data : List Byte)
  | lastEx
  | throwLastEx
  deriving DecidableEq

/-- Where the worker is: at `PopFromBuffer`, or at `push_back` unless the data is discarded. -/
inductive PopAt
  | pop
  | push (readData : List Byte)
  deriving DecidableEq

inductive SectionThread
  | worker
  | consumer (c : Nat)
  deriving DecidableEq

/-- Who holds the mutex. A thread that is leaving has nothing left to do but to unlock it. -/
inductive QueueSection
  | free
  | reading (c : Nat) (place : ReadAt)
  | popping (place : PopAt)
  | leaving (thread : SectionThread)
  deriving DecidableEq

def QueueSection.thread? : QueueSection → Option SectionThread
  | .free => none
  | .reading c _ => some (.consumer c)
  | .popping _ => some .worker
  | .leaving thread => some thread

/-- The accesses of a section have all been made, or nobody is in one. -/
def QueueSection.Over : QueueSection → Prop
  | .free => True
  | .leaving _ => True
  | _ => False

structure FineMachine where
  machine : Machine
  inside : QueueSection

namespace FineMachine

inductive Action
  /-- A step that needs no mutex. -/
  | other (a : SocketWrapper.Action)
  | lock (thread : SectionThread)
  | access
  | unlock
  deriving DecidableEq

def start (m : Machine) : FineMachine := ⟨m, .free⟩

/-- The worker comes to `PopFromBuffer`. -/
def isPopping : WorkerAt → Bool
  | .popping .. => true
  | _ => false

/-- The thread that takes a step, if it is one of those that lock the mutex. -/
def thread? : SocketWrapper.Action → Option SectionThread
  | .worker => some .worker
  | .consumer c _ => some (.consumer c)
  | _ => none

/-- The step is a section. -/
def entersSection (m : Machine) : SocketWrapper.Action → Bool
  | .worker => isPopping m.worker
  | .consumer _ .pop => true
  | _ => false

/-- `received_data_per_condition[condition_fd].pop_front()`. -/
def popFront (s : ConditionalBufferedStream) (fd : Fd) : ConditionalBufferedStream :=
  { s with receivedDataPerCondition :=
      Function.update s.receivedDataPerCondition fd (some (s.queue fd).tail) }

/-- An access of `read`. -/
def accessRead (m : Machine) (c : Nat) (fd : Fd) (token : Bool) : ReadAt → FineMachine
  | .find =>
      match m.stream.receivedDataPerCondition fd with
      | none =>
          ⟨m.complete c fd token (.threw (.socket (.ofType .SOCKET_INVALID_CONDITION))), .leaving (.consumer c)⟩
      | some _ => ⟨m, .reading c .empty⟩
  | .empty => ⟨m, .reading c (if m.stream.queue fd = [] then .lastEx else .front)⟩
  | .front => ⟨m, .reading c (.popFront ((m.stream.queue fd).headD []))⟩
  | .popFront data =>
      ⟨{ m with stream := popFront m.stream fd }.complete c fd token (.returned data), .leaving (.consumer c)⟩
  | .lastEx =>
      if m.stream.lastEx ≠ .SOCKET_OK then ⟨m, .reading c .throwLastEx⟩
      else
        ⟨m.complete c fd token (.threw (.outOfRange ("A read on condition " ++ toString fd ++
          " was performed, but there is no data present yet"))), .leaving (.consumer c)⟩
  | .throwLastEx =>
      ⟨m.complete c fd token (.threw (.socket (.ofType m.stream.lastEx))), .leaving (.consumer c)⟩

/-- An access of the worker. -/
def accessPop (S : Setup) (m : Machine) (fd : Fd) (v : Int32) (frame : Frame) (frames : List Frame) :
    PopAt → Option FineMachine
  | .pop =>
      match m.stream.stream.popFromBuffer (absSize v) with
      | (.returned readData, b) =>
          some ⟨{ m with stream := { m.stream with stream := b } }, .popping (.push readData)⟩
      | (.threw e, b) =>
          some ⟨{ m with worker := .raised e, stream := { m.stream with stream := b } }, .leaving .worker⟩
      | (.waiting, _) => none
  | .push readData =>
      some ⟨{ m with
        worker := if 0 < v then .posting fd v frame frames else .recurse S v frame frames
        stream := m.stream.queueUnlessDiscarded fd v readData }, .leaving .worker⟩

def access (S : Setup) (f : FineMachine) : Option FineMachine :=
  match f.inside with
  | .reading c place =>
      match f.machine.consumers[c]? with
      | some (.popping fd token) => some (accessRead f.machine c fd token place)
      | _ => none
  | .popping place =>
      match f.machine.worker with
      | .popping fd v frame frames => accessPop S f.machine fd v frame frames place
      | _ => none
  | _ => none

def act (S : Setup) (f : FineMachine) : Action → Option FineMachine
  | .other a =>
      if entersSection f.machine a = true ∨ (thread? a).isSome ∧ thread? a = f.inside.thread? then none
      else (f.machine.act S a).map fun m => { f with machine := m }
  | .lock (.consumer c) =>
      match f.inside, f.machine.consumers[c]? with
      | .free, some (.popping _ _) => some { f with inside := .reading c .find }
      | _, _ => none
  | .lock .worker =>
      match f.inside, f.machine.worker with
      | .free, .popping _ _ _ _ => some { f with inside := .popping .pop }
      | _, _ => none
  | .access => f.access S
  | .unlock =>
      match f.inside with
      | .leaving _ => some { f with inside := .free }
      | _ => none

def step (S : Setup) (f : FineMachine) (a : Action) : Option FineMachine :=
  if f.machine.halted then none else f.act S a

end FineMachine

end SocketWrapper
