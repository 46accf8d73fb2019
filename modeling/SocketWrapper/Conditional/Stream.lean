import SocketWrapper.Base.BufferedStream

/-!
# `ConditionalBufferedStream`

The functions of the class, each run to its end by one thread. The fields named as history do not
exist in the source: they record what happened and no function reads them, except for counting.
-/

namespace SocketWrapper

/-- The source's `buffer_event_condition`. The first argument counts the conditions that the stream has
evaluated so far, so that user code may answer differently on each call. -/
abbrev BufferEventCondition := Nat → List Byte → Int32

structure BufferEventHandler where
  condition : BufferEventCondition
  fd : Fd

/-- `abs(v)` on `int`, converted to `size_t`. The minimum `int` is its own absolute value. -/
def absSize (v : Int32) : Nat := (v.abs.toInt % 2 ^ 64).toNat

/-- What is fixed by the time `start()` is called. -/
structure Setup where
  /-- `buffer_event_handlers`, in the order of registration. -/
  handlers : List BufferEventHandler
  /-- The kernel does not hand out a descriptor that is in use. -/
  fdsNodup : (handlers.map BufferEventHandler.fd).Nodup
  /-- The `errno` of the `n`-th `::write` to a condition's eventfd, if it fails. -/
  eventfdWrite : Nat → Option Nat

namespace Setup

/-- A stream without handlers, on a kernel whose eventfd writes end as given. -/
def empty (eventfdWrite : Nat → Option Nat) : Setup := ⟨[], List.nodup_nil, eventfdWrite⟩

/-- `createEventfdOnCondition`, with the descriptor that the kernel returns. -/
def createEventfdOnCondition (S : Setup) (condition : BufferEventCondition) (fd : Fd)
    (fresh : fd ∉ S.handlers.map BufferEventHandler.fd) : Setup where
  handlers := S.handlers ++ [⟨condition, fd⟩]
  fdsNodup := by
    rw [List.map_append, List.nodup_append]
    refine ⟨S.fdsNodup, List.nodup_singleton _, ?_⟩
    rintro a ha b hb rfl
    simp only [List.map_cons, List.map_nil, List.mem_singleton] at hb
    exact fresh (hb ▸ ha)
  eventfdWrite := S.eventfdWrite

/-- `fd` belongs to a handler. -/
def Registered (S : Setup) (fd : Fd) : Prop := fd ∈ S.handlers.map BufferEventHandler.fd

instance (S : Setup) (fd : Fd) : Decidable (S.Registered fd) :=
  inferInstanceAs (Decidable (fd ∈ S.handlers.map BufferEventHandler.fd))

end Setup

/-- The kernel's side of the condition eventfds. -/
structure EventFds where
  counter : Fd → Nat
  /-- The descriptors that have been closed. -/
  closed : List Fd
  /-- History: the number of writes, and the writes to a descriptor that was closed already. -/
  writes : Nat
  staleWrites : List Fd

namespace EventFds

/-- `::write` of the value 1: the `errno` if it fails. On a closed descriptor that is `EBADF`. -/
def write (k : EventFds) (outcome : Nat → Option Nat) (fd : Fd) : Option Nat × EventFds :=
  if fd ∈ k.closed then
    (some 9, { k with writes := k.writes + 1, staleWrites := k.staleWrites ++ [fd] })
  else match outcome k.writes with
    | some errno => (some errno, { k with writes := k.writes + 1 })
    | none => (none, { k with
        writes := k.writes + 1, counter := Function.update k.counter fd (k.counter fd + 1) })

/-- `::read` of a semaphore eventfd whose counter is positive. -/
def take (k : EventFds) (fd : Fd) : EventFds :=
  { k with counter := Function.update k.counter fd (k.counter fd - 1) }

end EventFds

/-- One call of a condition: its handler, the bytes it was given, the buffer then, and its result. -/
structure Evaluation where
  fd : Fd
  data : List Byte
  buffer : List Byte
  value : Int32
  deriving DecidableEq

/-- A segment taken off the buffer, with the handler and the result that caused it. -/
structure Removal where
  fd : Fd
  value : Int32
  segment : List Byte
  deriving DecidableEq

structure ConditionalBufferedStream where
  lastEx : SocketExceptionType
  stream : BufferedStream
  terminationRequested : Bool
  /-- `received_data_per_condition`; `none` where the map has no entry. -/
  receivedDataPerCondition : Fd → Option (List (List Byte))
  eventFds : EventFds
  /-- History: what the conditions were asked, and what was taken off the buffer. -/
  evaluations : List Evaluation
  removals : List Removal
  /-- History: how often a failure has been posted to a handler. -/
  failureTokens : Fd → Nat

namespace ConditionalBufferedStream

variable (S : Setup)

/-- The constructor, and what `createEventfdOnCondition` has put in for each handler of `S`. -/
def make (stream : BufferedStream) : ConditionalBufferedStream where
  lastEx := .SOCKET_OK
  stream := stream
  terminationRequested := false
  receivedDataPerCondition := fun fd => if S.Registered fd then some [] else none
  eventFds := ⟨fun _ => 0, [], 0, []⟩
  evaluations := []
  removals := []
  failureTokens := fun _ => 0

/-- The stream on a connection whose peer sends `bytes`, before anything has been read. -/
def connected (size : Nat) (bytes : List Byte) (stopEvent : Nat) (answers : List Answer) :
    ConditionalBufferedStream :=
  make S (BufferedStream.make ⟨⟨bytes, []⟩, stopEvent, answers⟩ size)

/-- The result of a call on the member `stream`, as a result of a call on the whole. -/
def onStream {α : Type} (s : ConditionalBufferedStream) (r : Outcome α × BufferedStream) :
    Outcome α × ConditionalBufferedStream :=
  (r.1, { s with stream := r.2 })

/-! ## `processDataSendSignals` -/

/-- `event_handler.condition(data)`. -/
def evaluate (s : ConditionalBufferedStream) (h : BufferEventHandler) (data : List Byte) :
    Int32 × ConditionalBufferedStream :=
  let v := h.condition s.evaluations.length data
  (v, { s with evaluations := s.evaluations ++ [⟨h.fd, data, s.stream.contents, v⟩] })

/-- `received_data_per_condition[fd].push_back(read_data)`, unless the data is discarded. -/
def queueUnlessDiscarded (s : ConditionalBufferedStream) (fd : Fd) (bytesReadByCondition : Int32)
    (readData : List Byte) : ConditionalBufferedStream :=
  let queue := (s.receivedDataPerCondition fd).getD []
  { s with
    receivedDataPerCondition :=
      if 0 < bytesReadByCondition then
        Function.update s.receivedDataPerCondition fd (some (queue ++ [readData]))
      else s.receivedDataPerCondition
    removals := s.removals ++ [⟨fd, bytesReadByCondition, readData⟩] }

/-- The section that holds `received_data_per_condition_mtx`. -/
def popAndQueue (s : ConditionalBufferedStream) (fd : Fd) (bytesReadByCondition : Int32) :
    Outcome Unit × ConditionalBufferedStream :=
  Outcome.andThen (s.onStream (s.stream.popFromBuffer (absSize bytesReadByCondition)))
    fun readData s => (.returned (), s.queueUnlessDiscarded fd bytesReadByCondition readData)

/-- Write one token to the eventfd `fd`. -/
def post (s : ConditionalBufferedStream) (fd : Fd) : Outcome Unit × ConditionalBufferedStream :=
  match s.eventFds.write S.eventfdWrite fd with
  | (none, k) => (.returned (), { s with eventFds := k })
  | (some errno, k) => (.socketError .SOCKET_WRITE errno, { s with eventFds := k })

/-- No write to an eventfd fails: the kernel fails none, and no descriptor has been closed. -/
structure PostsSucceed (s : ConditionalBufferedStream) : Prop where
  kernel : ∀ n, S.eventfdWrite n = none
  opened : s.eventFds.closed = []

/-- Post the segment that was queued, if one was. -/
def postIfQueued (s : ConditionalBufferedStream) (fd : Fd) (bytesReadByCondition : Int32) :
    Outcome Unit × ConditionalBufferedStream :=
  if 0 < bytesReadByCondition then s.post S fd else (.returned (), s)

def tooMuchData : Exception :=
  .logicError "a condition on a ConditionalBufferedStream tried to read more data, than exists"

/-- The loop over the handlers. It keeps the `data` it was called with, whatever the recursive calls
`recur` do to the buffer. -/
def dispatchHandlers
    (recur : List Byte → ConditionalBufferedStream → Outcome Unit × ConditionalBufferedStream)
    (data : List Byte) :
    List BufferEventHandler → ConditionalBufferedStream → Outcome Unit × ConditionalBufferedStream
  | [], s => (.returned (), s)
  | h :: rest, s =>
      let (v, s) := s.evaluate h data
      if data.length < absSize v then (.threw tooMuchData, s)
      else if v = 0 then dispatchHandlers recur data rest s
      else
        Outcome.andThen (s.popAndQueue h.fd v) fun _ s =>
        Outcome.andThen (s.postIfQueued S h.fd v) fun _ s =>
        Outcome.andThen (recur (data.drop (absSize v)) s) fun _ s =>
        dispatchHandlers recur data rest s

/-- `processDataSendSignals` to a recursion depth. A recursive call has less data than its caller, so
that `data.length` levels suffice. -/
def processToDepth :
    Nat → List Byte → ConditionalBufferedStream → Outcome Unit × ConditionalBufferedStream
  | 0, _, s => (.returned (), s)
  | depth + 1, data, s =>
      if data = [] then (.returned (), s)
      else dispatchHandlers S (processToDepth depth) data S.handlers s

def processDataSendSignals (s : ConditionalBufferedStream) (data : List Byte) :
    Outcome Unit × ConditionalBufferedStream :=
  processToDepth S data.length data s

/-! ## The worker -/

/-- The body of the worker's loop. -/
def workerBody (s : ConditionalBufferedStream) : Outcome Unit × ConditionalBufferedStream :=
  Outcome.andThen (s.onStream (s.stream.readAvailableDataIntoBuffer (-1))) fun _ s =>
  s.processDataSendSignals S s.stream.contents

/-- Post the failure to the handlers left. -/
def notifyHandlers :
    List BufferEventHandler → ConditionalBufferedStream → Outcome Unit × ConditionalBufferedStream
  | [], s => (.returned (), s)
  | h :: rest, s =>
      Outcome.andThen (s.post S h.fd) fun _ s =>
      notifyHandlers rest
        { s with failureTokens := Function.update s.failureTokens h.fd (s.failureTokens h.fd + 1) }

/-- The `catch` block of the worker. -/
def catchException (s : ConditionalBufferedStream) (ex : SocketException) :
    Outcome Unit × ConditionalBufferedStream :=
  if ex.exceptionType = .SOCKET_TERMINATION_REQUEST then (.returned (), s)
  else notifyHandlers S S.handlers { s with lastEx := ex.exceptionType }

/-- Where the worker thread is between two rounds of its loop. -/
inductive WorkerStatus
  | running
  /-- The thread function has returned after a `SocketException` of this type. -/
  | ended (t : SocketExceptionType)
  /-- An exception has left the thread function: `std::terminate`. -/
  | terminated (e : Exception)
  deriving DecidableEq

/-- What becomes of the worker after its loop body came to the given outcome. -/
def afterBody : Outcome Unit × ConditionalBufferedStream → WorkerStatus × ConditionalBufferedStream
  | (.returned _, s) => (.running, s)
  | (.waiting, s) => (.running, s)
  | (.threw (.socket ex), s) =>
      match s.catchException S ex with
      | (.threw e, s) => (.terminated e, s)
      | (_, s) => (.ended ex.exceptionType, s)
  | (.threw e, s) => (.terminated e, s)

/-- One round of the worker's loop. -/
def workerRound : WorkerStatus × ConditionalBufferedStream → WorkerStatus × ConditionalBufferedStream
  | (.running, s) => afterBody S (s.workerBody S)
  | w => w

/-- `ConditionalBufferWorker` from its start, for a number of rounds. -/
def conditionalBufferWorker (s : ConditionalBufferedStream) (rounds : Nat) :
    WorkerStatus × ConditionalBufferedStream :=
  (workerRound S)^[rounds] (.running, s)

/-! ## The calls of the consumers -/

/-- `read(condition_fd)`. -/
def read (s : ConditionalBufferedStream) (conditionFd : Fd) :
    Outcome (List Byte) × ConditionalBufferedStream :=
  match s.receivedDataPerCondition conditionFd with
  | none => (.threw (.socket (.ofType .SOCKET_INVALID_CONDITION)), s)
  | some (data :: queue) => (.returned data, { s with
      receivedDataPerCondition := Function.update s.receivedDataPerCondition conditionFd (some queue) })
  | some [] =>
      if s.lastEx ≠ .SOCKET_OK then (.threw (.socket (.ofType s.lastEx)), s)
      else (.threw (.outOfRange ("A read on condition " ++ toString conditionFd ++
        " was performed, but there is no data present yet")), s)

/-- `::read` of one token from the eventfd. -/
def takeToken (s : ConditionalBufferedStream) (fd : Fd) : ConditionalBufferedStream :=
  { s with eventFds := s.eventFds.take fd }

/-- What `readBlocking` throws when its `poll` comes back with 0. -/
def pollExpired (s : ConditionalBufferedStream) (errno : Nat) : Exception :=
  if s.terminationRequested then .socket (.ofType .SOCKET_TERMINATION_REQUEST)
  else .socket (.withErrno .SOCKET_POLL errno)

/-- `readBlocking(condition_fd, timeout_ms)`, called while nothing else happens. `pollFails` is whether
its `poll` fails, `errno` what `errno` is when it throws. -/
def readBlocking (s : ConditionalBufferedStream) (conditionFd : Fd) (timeoutMs : Int)
    (pollFails : Bool) (errno : Nat) : Outcome (List Byte) × ConditionalBufferedStream :=
  if pollFails then (.socketError .SOCKET_READ_TIMEOUT errno, s)
  else if 0 < s.eventFds.counter conditionFd then (s.takeToken conditionFd).read conditionFd
  else if timeoutMs < 0 then (.waiting, s)
  else (.threw (s.pollExpired errno), s)

/-- The condition of `getDelimiterCondition(delimiter)`: a `ptrdiff_t` converted to `int`. -/
def getDelimiterCondition (delimiter : Byte) (data : List Byte) : Int32 :=
  match data.findIdx? (· == delimiter) with
  | some pos => Int32.ofInt (pos + 1)
  | none => 0

end ConditionalBufferedStream

end SocketWrapper
