import SocketWrapper.Concurrent.Machine
import SocketWrapper.Conditional.Lemmas.Closed

/-!
# The steps of the machine, case by case

Every later proof about a step goes through these relations and never unfolds the step functions.
-/

namespace SocketWrapper

open ConditionalBufferedStream

variable {S : Setup} {s s' : ConditionalBufferedStream} {w w' : WorkerAt} {m m' : Machine}

/-! ## The worker -/

/-- A step of the worker, with what it does to the stream. -/
inductive WorkerMove (S : Setup) : WorkerAt → ConditionalBufferedStream →
    WorkerAt → ConditionalBufferedStream → Prop
  | filled {s : ConditionalBufferedStream} {b : BufferedStream} {n : Nat} :
      s.stream.readAvailableDataIntoBuffer (-1) = (.returned n, b) →
      WorkerMove S .reading s (.dispatching [.enter S b.contents]) { s with stream := b }
  | readFailed {s : ConditionalBufferedStream} {b : BufferedStream} {e : Exception} :
      s.stream.readAvailableDataIntoBuffer (-1) = (.threw e, b) →
      WorkerMove S .reading s (.raised e) { s with stream := b }
  | drained {s : ConditionalBufferedStream} : WorkerMove S (.dispatching []) s .reading s
  | returned {s : ConditionalBufferedStream} {data : List Byte} {frames : List Frame} :
      WorkerMove S (.dispatching (⟨data, []⟩ :: frames)) s (.dispatching frames) s
  | refused {s : ConditionalBufferedStream} {data : List Byte} {h : BufferEventHandler}
      {rest : List BufferEventHandler} {frames : List Frame} :
      data.length < absSize (s.evaluate h data).1 →
      WorkerMove S (.dispatching (⟨data, h :: rest⟩ :: frames)) s (.raised tooMuchData)
        (s.evaluate h data).2
  | skipped {s : ConditionalBufferedStream} {data : List Byte} {h : BufferEventHandler}
      {rest : List BufferEventHandler} {frames : List Frame} :
      (s.evaluate h data).1 = 0 →
      WorkerMove S (.dispatching (⟨data, h :: rest⟩ :: frames)) s
        (.dispatching (⟨data, rest⟩ :: frames)) (s.evaluate h data).2
  | matched {s : ConditionalBufferedStream} {data : List Byte} {h : BufferEventHandler}
      {rest : List BufferEventHandler} {frames : List Frame} :
      (s.evaluate h data).1 ≠ 0 → absSize (s.evaluate h data).1 ≤ data.length →
      WorkerMove S (.dispatching (⟨data, h :: rest⟩ :: frames)) s
        (.popping h.fd (s.evaluate h data).1 ⟨data, rest⟩ frames) (s.evaluate h data).2
  | popped {s s' : ConditionalBufferedStream} {fd : Fd} {v : Int32} {frame : Frame}
      {frames : List Frame} :
      s.popAndQueue fd v = (.returned (), s') → 0 < v →
      WorkerMove S (.popping fd v frame frames) s (.posting fd v frame frames) s'
  | discarded {s s' : ConditionalBufferedStream} {fd : Fd} {v : Int32} {frame : Frame}
      {frames : List Frame} :
      s.popAndQueue fd v = (.returned (), s') → ¬ 0 < v →
      WorkerMove S (.popping fd v frame frames) s (.recurse S v frame frames) s'
  | popFailed {s s' : ConditionalBufferedStream} {fd : Fd} {v : Int32} {frame : Frame}
      {frames : List Frame} {e : Exception} :
      s.popAndQueue fd v = (.threw e, s') →
      WorkerMove S (.popping fd v frame frames) s (.raised e) s'
  | posted {s s' : ConditionalBufferedStream} {fd : Fd} {v : Int32} {frame : Frame}
      {frames : List Frame} :
      s.post S fd = (.returned (), s') →
      WorkerMove S (.posting fd v frame frames) s (.recurse S v frame frames) s'
  | postFailed {s s' : ConditionalBufferedStream} {fd : Fd} {v : Int32} {frame : Frame}
      {frames : List Frame} {e : Exception} :
      s.post S fd = (.threw e, s') →
      WorkerMove S (.posting fd v frame frames) s (.raised e) s'
  | terminates {s : ConditionalBufferedStream} {ex : SocketException} :
      ex.exceptionType = .SOCKET_TERMINATION_REQUEST →
      WorkerMove S (.caught ex) s (.ended ex.exceptionType) s
  | records {s : ConditionalBufferedStream} {ex : SocketException} :
      ex.exceptionType ≠ .SOCKET_TERMINATION_REQUEST →
      WorkerMove S (.caught ex) s (.notifying ex.exceptionType S.handlers)
        { s with lastEx := ex.exceptionType }
  | notified {s s' : ConditionalBufferedStream} {t : SocketExceptionType} {h : BufferEventHandler}
      {rest : List BufferEventHandler} :
      s.post S h.fd = (.returned (), s') →
      WorkerMove S (.notifying t (h :: rest)) s (.notifying t rest) { s' with
        failureTokens := Function.update s'.failureTokens h.fd (s'.failureTokens h.fd + 1) }
  | notifyFailed {s s' : ConditionalBufferedStream} {t : SocketExceptionType} {h : BufferEventHandler}
      {rest : List BufferEventHandler} {e : Exception} :
      s.post S h.fd = (.threw e, s') → WorkerMove S (.notifying t (h :: rest)) s (.terminated e) s'
  | ends {s : ConditionalBufferedStream} {t : SocketExceptionType} :
      WorkerMove S (.notifying t []) s (.ended t) s

theorem workerMove_of_dispatching {frames : List Frame}
    (h : workerStep S (.dispatching frames) s = some (w', s')) :
    WorkerMove S (.dispatching frames) s w' s' := by
  cases frames with
  | nil =>
      cases h
      exact .drained
  | cons frame frames =>
      obtain ⟨data, rest⟩ := frame
      cases rest with
      | nil =>
          cases h
          exact .returned
      | cons handler rest =>
          simp only [workerStep] at h
          split at h
          · rename_i hlt
            cases h
            exact .refused hlt
          · rename_i hle
            split at h
            · rename_i hzero
              cases h
              exact .skipped hzero
            · rename_i hne
              cases h
              exact .matched hne (Nat.not_lt.mp hle)

theorem workerMove_of_popping {fd : Fd} {v : Int32} {frame : Frame} {frames : List Frame}
    (h : workerStep S (.popping fd v frame frames) s = some (w', s')) :
    WorkerMove S (.popping fd v frame frames) s w' s' := by
  simp only [workerStep] at h
  split at h
  · rename_i hpop
    split at h
    · rename_i hpos
      cases h
      exact .popped hpop hpos
    · rename_i hpos
      cases h
      exact .discarded hpop hpos
  · rename_i hpop
    cases h
    exact .popFailed hpop
  · cases h

theorem workerMove_of_step (h : workerStep S w s = some (w', s')) : WorkerMove S w s w' s' := by
  cases w with
  | notStarted => cases h
  | reading =>
      simp only [workerStep] at h
      split at h
      · rename_i hread
        cases h
        exact .filled hread
      · rename_i hread
        cases h
        exact .readFailed hread
      · cases h
  | dispatching frames => exact workerMove_of_dispatching h
  | popping fd v frame frames => exact workerMove_of_popping h
  | posting fd v frame frames =>
      simp only [workerStep] at h
      split at h
      · rename_i hpost
        cases h
        exact .posted hpost
      · rename_i hpost
        cases h
        exact .postFailed hpost
      · cases h
  | caught ex =>
      simp only [workerStep] at h
      split at h
      · rename_i hterm
        cases h
        exact .terminates hterm
      · rename_i hterm
        cases h
        exact .records hterm
  | notifying t rest =>
      cases rest with
      | nil =>
          cases h
          exact .ends
      | cons handler rest =>
          simp only [workerStep] at h
          split at h
          · rename_i hpost
            cases h
            exact .notified hpost
          · rename_i hpost
            cases h
            exact .notifyFailed hpost
          · cases h
  | ended t => cases h
  | terminated e => cases h

/-! ## The consumers -/

/-- A step of consumer `c`. -/
inductive ConsumerMove (m : Machine) (c : Nat) : ConsumerAction → Machine → Prop
  | calls {fd : Fd} {timeoutMs : Int} :
      m.consumers[c]? = some .idle →
      ConsumerMove m c (.readBlocking fd timeoutMs) (m.moveTo c (.polling fd timeoutMs))
  | callsRead {fd : Fd} :
      m.consumers[c]? = some .idle → ConsumerMove m c (.read fd) (m.moveTo c (.popping fd false))
  | ready {fd : Fd} {timeoutMs : Int} :
      m.consumers[c]? = some (.polling fd timeoutMs) → 0 < m.stream.eventFds.counter fd →
      ConsumerMove m c .pollReady (m.moveTo c (.taking fd))
  | expires {fd : Fd} {timeoutMs : Int} :
      m.consumers[c]? = some (.polling fd timeoutMs) → m.stream.eventFds.counter fd = 0 →
      0 ≤ timeoutMs → ConsumerMove m c .pollExpires (m.moveTo c (.expired fd))
  | fails {fd : Fd} {timeoutMs : Int} {errno : Nat} :
      m.consumers[c]? = some (.polling fd timeoutMs) →
      ConsumerMove m c (.pollFails errno)
        (m.complete c fd false (.socketError .SOCKET_READ_TIMEOUT errno))
  | throws {fd : Fd} {errno : Nat} :
      m.consumers[c]? = some (.expired fd) →
      ConsumerMove m c (.throwExpired errno)
        (m.complete c fd false (.threw (m.stream.pollExpired errno)))
  | takesNothing {fd : Fd} :
      m.consumers[c]? = some (.taking fd) → fd ∈ m.stream.eventFds.closed →
      ConsumerMove m c .takeToken (m.moveTo c (.popping fd false))
  | takes {fd : Fd} :
      m.consumers[c]? = some (.taking fd) → 0 < m.stream.eventFds.counter fd →
      ConsumerMove m c .takeToken
        ({ m with stream := m.stream.takeToken fd }.moveTo c (.popping fd true))
  | pops {fd : Fd} {token : Bool} :
      m.consumers[c]? = some (.popping fd token) →
      ConsumerMove m c .pop
        ({ m with stream := (m.stream.read fd).2 }.complete c fd token (m.stream.read fd).1)

theorem consumerMove_of_step {c : Nat} {a : ConsumerAction} (h : consumerStep m c a = some m') :
    ConsumerMove m c a m' := by
  unfold consumerStep at h
  split at h
  · rename_i hc
    cases h
    exact .calls hc
  · rename_i hc
    cases h
    exact .callsRead hc
  · rename_i hc
    split at h
    · rename_i hready
      cases h
      exact .ready hc hready.1
    · cases h
  · rename_i hc
    split at h
    · rename_i hexpired
      cases h
      exact .expires hc hexpired.1 hexpired.2.2
    · cases h
  · rename_i hc
    cases h
    exact .fails hc
  · rename_i hc
    cases h
    exact .throws hc
  · rename_i hc
    split at h
    · rename_i hclosed
      cases h
      exact .takesNothing hc hclosed
    · split at h
      · rename_i hpos
        cases h
        exact .takes hc hpos
      · cases h
  · rename_i hc
    cases h
    exact .pops hc
  · cases h

/-! ## The machine -/

/-- A step of the machine. -/
inductive Move (S : Setup) (m : Machine) : Action → Machine → Prop
  | start : m.worker = .notStarted → Move S m .start { m with worker := .reading }
  | worker {w : WorkerAt} {s : ConditionalBufferedStream} :
      WorkerMove S m.worker m.stream w s → Move S m .worker { m with worker := w, stream := s }
  | consumer {c : Nat} {a : ConsumerAction} {m' : Machine} :
      ConsumerMove m c a m' → Move S m (.consumer c a) m'
  | stopReads :
      Move S m .stopReads
        { m with stopping := true, stream := { m.stream with terminationRequested := true } }
  | stopStream :
      m.stopping = true →
      Move S m .stopStream { m with
        stopping := false
        stopped := true
        stream := { m.stream with
          stream := { m.stream.stream with stream := m.stream.stream.stream.stopReads } } }
  | destructs :
      m.destructor = .alive → Move S m .destructor { m with destructor := .closing S.handlers }
  | closes {h : BufferEventHandler} {rest : List BufferEventHandler} :
      m.destructor = .closing (h :: rest) →
      Move S m .destructor { m with
        destructor := .closing rest
        stream := { m.stream with eventFds :=
          { m.stream.eventFds with closed := m.stream.eventFds.closed ++ [h.fd] } } }
  | stops :
      m.destructor = .closing [] →
      Move S m .destructor { m with
        destructor := .joining
        stream := { m.stream with
          stream := { m.stream.stream with stream := m.stream.stream.stream.stopReads } } }
  | joinFails :
      m.destructor = .joining → m.worker = .notStarted →
      Move S m .destructor { m with destructor := .terminated .systemError }
  | joins {t : SocketExceptionType} :
      m.destructor = .joining → m.worker = .ended t →
      Move S m .destructor { m with destructor := .destroyed }

theorem move_of_destructorStep (h : destructorStep S m = some m') : Move S m .destructor m' := by
  unfold destructorStep at h
  split at h
  · rename_i hd
    cases h
    exact .destructs hd
  · rename_i hd
    cases h
    exact .closes hd
  · rename_i hd
    cases h
    exact .stops hd
  · rename_i hd
    split at h
    · rename_i hw
      cases h
      exact .joinFails hd hw
    · rename_i hw
      cases h
      exact .joins hd hw
    · cases h
  · cases h
  · cases h

/-- Every step of the machine is one of the moves, and nothing moves after the end. -/
theorem move_of_step {a : Action} (h : m.step S a = some m') : m.halted = false ∧ Move S m a m' := by
  unfold Machine.step at h
  split at h
  · cases h
  · rename_i hhalted
    refine ⟨by simpa using hhalted, ?_⟩
    cases a with
    | start =>
        simp only [Machine.act] at h
        split at h
        · rename_i hw _
          cases h
          exact .start hw
        · cases h
    | worker =>
        obtain ⟨⟨w, s⟩, hstep, rfl⟩ := Option.map_eq_some_iff.mp h
        exact .worker (workerMove_of_step hstep)
    | consumer c a => exact .consumer (consumerMove_of_step h)
    | stopReads =>
        simp only [Machine.act] at h
        split at h
        · cases h
        · cases h
          exact .stopReads
    | stopStream =>
        simp only [Machine.act] at h
        split at h
        · rename_i hstopping
          cases h
          exact .stopStream hstopping
        · cases h
    | destructor => exact move_of_destructorStep h

end SocketWrapper
