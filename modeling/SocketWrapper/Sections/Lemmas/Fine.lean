import SocketWrapper.Sections.Machine
import SocketWrapper.Lib.Simulation

/-!
# A section is a step

What a thread has seen in its section stays so, as the others need the mutex to change it. All that a section
changes it changes with its last access, but for the worker, which takes its data off the buffer before. No
other thread looks at the buffer.
-/

namespace SocketWrapper

open ConditionalBufferedStream Transition

variable {S : Setup} {m m' : Machine} {f f' : FineMachine} {fd : Fd} {token : Bool} {c n : Nat}
  {a : Action} {place : ReadAt} {allowed : Machine → Action → Prop} {size consumers offset : Nat}
  {bytes buffer : List Byte} {answers : List Answer}

/-! ## What the others leave alone -/

/-- The machine with another fill of the buffer. -/
def Machine.withBuffer (m : Machine) (offset : Nat) (buffer : List Byte) : Machine :=
  { m with stream := { m.stream with stream :=
      { m.stream.stream with bufferWriteOffset := offset, streamBuffer := buffer } } }

@[simp] theorem halted_withBuffer : (m.withBuffer offset buffer).halted = m.halted := rfl

theorem read_withBuffer (fd : Fd) :
    (m.withBuffer offset buffer).stream.read fd =
      ((m.stream.read fd).1, ({ m with stream := (m.stream.read fd).2 }.withBuffer offset buffer).stream) := by
  have hqueues : (m.withBuffer offset buffer).stream.receivedDataPerCondition =
      m.stream.receivedDataPerCondition := rfl
  have hlast : (m.withBuffer offset buffer).stream.lastEx = m.stream.lastEx := rfl
  simp only [ConditionalBufferedStream.read, hqueues, hlast]
  split
  · rfl
  · rfl
  · split <;> rfl

theorem consumerStep_withBuffer (m : Machine) (c : Nat) (a : ConsumerAction) :
    consumerStep (m.withBuffer offset buffer) c a =
      (consumerStep m c a).map fun m' => m'.withBuffer offset buffer := by
  simp only [consumerStep, read_withBuffer]
  have hconsumers : (m.withBuffer offset buffer).consumers = m.consumers := rfl
  have heventFds : (m.withBuffer offset buffer).stream.eventFds = m.stream.eventFds := rfl
  rw [hconsumers, heventFds]
  rcases m.consumers[c]? with _ | place
  · rfl
  · cases place <;> cases a <;> first
      | rfl
      | (simp only [apply_ite (Option.map _), Option.map_some, Option.map_none]; rfl)

/-- The threads other than the worker do not look at the buffer. -/
theorem act_withBuffer (ha : a ≠ .worker) :
    (m.withBuffer offset buffer).act S a = (m.act S a).map fun m' => m'.withBuffer offset buffer := by
  cases a with
  | worker => exact absurd rfl ha
  | start =>
      rcases m with ⟨s, w, cs, stopping, stopped, d, done⟩
      cases w <;> cases d <;> rfl
  | consumer c a => exact consumerStep_withBuffer m c a
  | stopReads =>
      rcases m with ⟨s, w, cs, stopping, stopped, d, done⟩
      cases stopping <;> rfl
  | stopStream =>
      rcases m with ⟨s, w, cs, stopping, stopped, d, done⟩
      cases stopping <;> rfl
  | destructor =>
      rcases m with ⟨s, w, cs, stopping, stopped, d, done⟩
      cases d with
      | closing rest => cases rest <;> rfl
      | joining => cases w <;> rfl
      | _ => rfl

/-- They leave the worker where it is, and the buffer as it is. -/
theorem Move.keeps (h : Move S m a m') (ha : a ≠ .worker) (hw : m.worker ≠ .notStarted) :
    m'.worker = m.worker ∧ ∃ stream, m'.stream.stream = { m.stream.stream with stream := stream } := by
  cases h with
  | start hstart => exact absurd hstart hw
  | worker _ => exact absurd rfl ha
  | consumer hmove =>
      obtain ⟨q, k, cs, done, rfl⟩ := hmove.frame
      exact ⟨rfl, m.stream.stream.stream, rfl⟩
  | stopStream _ => exact ⟨rfl, m.stream.stream.stream.stopReads, rfl⟩
  | stops _ => exact ⟨rfl, m.stream.stream.stream.stopReads, rfl⟩
  | _ => exact ⟨rfl, m.stream.stream.stream, rfl⟩

theorem snd_post (s : ConditionalBufferedStream) (fd : Fd) :
    ∃ k, (s.post S fd).2 = { s with eventFds := k } := by
  simp only [post]
  split
  · exact ⟨_, rfl⟩
  · exact ⟨_, rfl⟩

theorem receivedDataPerCondition_of_post {s s' : ConditionalBufferedStream} {o : Outcome Unit}
    (h : s.post S fd = (o, s')) :
    s'.receivedDataPerCondition = s.receivedDataPerCondition ∧ s'.lastEx = s.lastEx := by
  obtain ⟨k, hk⟩ := snd_post (S := S) s fd
  rw [h] at hk
  subst hk
  exact ⟨rfl, rfl⟩

/-- Outside of its section the worker does not change the queues, and it changes `last_ex` only where it has
caught an exception. -/
theorem WorkerMove.queues {w w' : WorkerAt} {s s' : ConditionalBufferedStream} (h : WorkerMove S w s w' s')
    (hw : FineMachine.isPopping w = false) :
    s'.receivedDataPerCondition = s.receivedDataPerCondition ∧
      (s'.lastEx = s.lastEx ∨ ∃ ex, w = .caught ex) := by
  cases h with
  | popped _ _ => cases hw
  | discarded _ _ => cases hw
  | popFailed _ => cases hw
  | posted hpost => exact (receivedDataPerCondition_of_post hpost).imp_right .inl
  | postFailed hpost => exact (receivedDataPerCondition_of_post hpost).imp_right .inl
  | notified hpost => exact (receivedDataPerCondition_of_post hpost).imp_right .inl
  | notifyFailed hpost => exact (receivedDataPerCondition_of_post hpost).imp_right .inl
  | records _ => exact ⟨rfl, .inr ⟨_, rfl⟩⟩
  | _ => exact ⟨rfl, .inl rfl⟩

theorem ConsumerMove.queues {a : ConsumerAction} (h : ConsumerMove m c a m') (ha : a ≠ .pop) :
    m'.stream.receivedDataPerCondition = m.stream.receivedDataPerCondition ∧
      m'.stream.lastEx = m.stream.lastEx := by
  cases h with
  | pops _ => exact absurd rfl ha
  | _ => exact ⟨rfl, rfl⟩

/-- Without the mutex nobody changes a queue, and `last_ex` is not set twice. -/
theorem Move.queues (h : Move S m a m') (hrecorded : Recorded S m.stream m.worker)
    (hlocks : FineMachine.entersSection m a = false) :
    m'.stream.receivedDataPerCondition = m.stream.receivedDataPerCondition ∧
      (m.stream.lastEx ≠ .SOCKET_OK → m'.stream.lastEx ≠ .SOCKET_OK) := by
  cases h with
  | worker hmove =>
      obtain ⟨hqueues, hlast⟩ := hmove.queues hlocks
      refine ⟨hqueues, fun hne => ?_⟩
      rcases hlast with hlast | ⟨ex, hw⟩
      · rwa [hlast]
      · rw [hw] at hrecorded
        exact absurd hrecorded.1.lastEx hne
  | @consumer c a m' hmove =>
      have ha : a ≠ .pop := by
        rintro rfl
        cases hlocks
      obtain ⟨hqueues, hlast⟩ := hmove.queues ha
      exact ⟨hqueues, fun hne => by rwa [hlast]⟩
  | _ => exact ⟨rfl, id⟩

/-- A consumer is moved by its own steps only. -/
theorem Move.consumer_of_ne (h : Move S m a m') (ha : FineMachine.thread? a ≠ some (.consumer c)) :
    m'.consumers[c]? = m.consumers[c]? := by
  cases h with
  | @consumer c' a m' hmove =>
      have hne : c' ≠ c := by
        rintro rfl
        exact ha rfl
      cases hmove with
      | _ => exact List.getElem?_set_ne hne
  | _ => rfl

/-! ## What a section has seen -/

/-- What a consumer has found out in `read`. -/
def Seen (s : ConditionalBufferedStream) (fd : Fd) : ReadAt → Prop
  | .find => True
  | .empty => ∃ queue, s.receivedDataPerCondition fd = some queue
  | .front => ∃ data queue, s.receivedDataPerCondition fd = some (data :: queue)
  | .popFront data => ∃ queue, s.receivedDataPerCondition fd = some (data :: queue)
  | .lastEx => s.receivedDataPerCondition fd = some []
  | .throwLastEx => s.receivedDataPerCondition fd = some [] ∧ s.lastEx ≠ .SOCKET_OK

theorem Seen.congr {s s' : ConditionalBufferedStream} (h : Seen s fd place)
    (hqueues : s'.receivedDataPerCondition = s.receivedDataPerCondition)
    (hlast : s.lastEx ≠ .SOCKET_OK → s'.lastEx ≠ .SOCKET_OK) : Seen s' fd place := by
  cases place with
  | find => trivial
  | throwLastEx =>
      refine ⟨?_, hlast h.2⟩
      rw [hqueues]
      exact h.1
  | _ =>
      simp only [Seen, hqueues]
      exact h

/-- The machine with sections as steps is where the other one is, up to what the section that is under way has
done. -/
def Agrees (f : FineMachine) (m : Machine) : Prop :=
  match f.inside with
  | .reading c place =>
      f.machine = m ∧ ∃ fd token, m.consumers[c]? = some (.popping fd token) ∧ Seen m.stream fd place
  | .popping (.push readData) => ∃ fd v frame frames offset buffer,
      m.worker = .popping fd v frame frames ∧ f.machine = m.withBuffer offset buffer ∧
        m.stream.stream.popFromBuffer (absSize v) = (.returned readData,
          { m.stream.stream with bufferWriteOffset := offset, streamBuffer := buffer })
  | _ => f.machine = m

/-! ## A section from its last access -/

theorem exists_pop (hopen : m.halted = false) (hat : m.consumers[c]? = some (.popping fd token)) :
    m.step S (.consumer c .pop) =
      some ({ m with stream := (m.stream.read fd).2 }.complete c fd token (m.stream.read fd).1) := by
  simp only [Machine.step, hopen, Bool.false_eq_true, ↓reduceIte, Machine.act, consumerStep, hat]

theorem read_of_none (h : m.stream.receivedDataPerCondition fd = none) :
    m.stream.read fd = (.threw (.socket (.ofType .SOCKET_INVALID_CONDITION)), m.stream) := by
  simp only [ConditionalBufferedStream.read, h]

theorem read_of_cons {data : List Byte} {queue : List (List Byte)}
    (h : m.stream.receivedDataPerCondition fd = some (data :: queue)) :
    m.stream.read fd = (.returned data, FineMachine.popFront m.stream fd) := by
  simp only [ConditionalBufferedStream.read, h, FineMachine.popFront, ConditionalBufferedStream.queue,
    Option.getD_some, List.tail_cons]

theorem read_of_failed (h : m.stream.receivedDataPerCondition fd = some [])
    (hlast : m.stream.lastEx ≠ .SOCKET_OK) :
    m.stream.read fd = (.threw (.socket (.ofType m.stream.lastEx)), m.stream) := by
  simp only [ConditionalBufferedStream.read, h, if_pos hlast]

theorem read_of_nil (h : m.stream.receivedDataPerCondition fd = some [])
    (hlast : ¬ m.stream.lastEx ≠ .SOCKET_OK) :
    m.stream.read fd = (.threw (.outOfRange ("A read on condition " ++ toString fd ++
      " was performed, but there is no data present yet")), m.stream) := by
  simp only [ConditionalBufferedStream.read, h, if_neg hlast]

/-- An access of `read` sees a little more, or is the whole of it. -/
theorem accessRead_agrees (hopen : m.halted = false) (hat : m.consumers[c]? = some (.popping fd token))
    (hseen : Seen m.stream fd place) :
    ∃ m', Reach (Machine.step S) (fun _ _ => True) m m' ∧
      Agrees (FineMachine.accessRead m c fd token place) m' := by
  have hcommit : Reach (Machine.step S) (fun _ _ => True) m
      ({ m with stream := (m.stream.read fd).2 }.complete c fd token (m.stream.read fd).1) :=
    .single trivial (exists_pop hopen hat)
  cases place with
  | find =>
      cases hqueue : m.stream.receivedDataPerCondition fd with
      | none =>
          rw [read_of_none hqueue] at hcommit
          exact ⟨_, hcommit, by simp [FineMachine.accessRead, hqueue, Agrees]⟩
      | some queue =>
          refine ⟨m, .refl, ?_⟩
          simp only [FineMachine.accessRead, hqueue]
          exact ⟨rfl, fd, token, hat, queue, hqueue⟩
  | empty =>
      obtain ⟨queue, hqueue⟩ := hseen
      refine ⟨m, .refl, ?_⟩
      cases queue with
      | nil =>
          simp only [FineMachine.accessRead, ConditionalBufferedStream.queue, hqueue, Option.getD_some, ↓reduceIte]
          exact ⟨rfl, fd, token, hat, hqueue⟩
      | cons data queue =>
          simp only [FineMachine.accessRead, ConditionalBufferedStream.queue, hqueue, Option.getD_some,
            reduceCtorEq, ↓reduceIte]
          exact ⟨rfl, fd, token, hat, data, queue, hqueue⟩
  | front =>
      obtain ⟨data, queue, hqueue⟩ := hseen
      refine ⟨m, .refl, ?_⟩
      simp only [FineMachine.accessRead, ConditionalBufferedStream.queue, hqueue, Option.getD_some,
        List.headD_cons]
      exact ⟨rfl, fd, token, hat, queue, hqueue⟩
  | popFront data =>
      obtain ⟨queue, hqueue⟩ := hseen
      rw [read_of_cons hqueue] at hcommit
      exact ⟨_, hcommit, rfl⟩
  | lastEx =>
      by_cases hlast : m.stream.lastEx ≠ .SOCKET_OK
      · refine ⟨m, .refl, ?_⟩
        simp only [FineMachine.accessRead, if_pos hlast]
        exact ⟨rfl, fd, token, hat, hseen, hlast⟩
      · rw [read_of_nil hseen hlast] at hcommit
        refine ⟨_, hcommit, ?_⟩
        simp only [FineMachine.accessRead, if_neg hlast]
        rfl
  | throwLastEx =>
      rw [read_of_failed hseen.1 hseen.2] at hcommit
      exact ⟨_, hcommit, rfl⟩

theorem exists_worker {w : WorkerAt} {s : ConditionalBufferedStream} (hopen : m.halted = false)
    (h : workerStep S m.worker m.stream = some (w, s)) :
    m.step S .worker = some { m with worker := w, stream := s } := by
  simp only [Machine.step, hopen, Bool.false_eq_true, ↓reduceIte, Machine.act, h, Option.map_some]

/-- A pop that returns changes the fill of the buffer, and does not depend on the socket. -/
theorem popFromBuffer_returned {b b' : BufferedStream} {data : List Byte}
    (h : b.popFromBuffer n = (.returned data, b')) :
    ∃ offset buffer, b' = { b with bufferWriteOffset := offset, streamBuffer := buffer } ∧
      ∀ stream, { b with stream := stream }.popFromBuffer n = (.returned data,
        { b with stream := stream, bufferWriteOffset := offset, streamBuffer := buffer }) := by
  simp only [BufferedStream.popFromBuffer] at h
  split at h
  · cases h
  · rename_i hle
    cases h
    refine ⟨_, _, rfl, fun stream => ?_⟩
    rw [BufferedStream.popFromBuffer, if_neg hle]

/-- An access of the worker takes the data off the buffer, or is the rest of the section. -/
theorem accessPop_agrees {v : Int32} {frame : Frame} {frames : List Frame} (hopen : m.halted = false)
    (hw : m.worker = .popping fd v frame frames)
    (h : FineMachine.accessPop S m fd v frame frames .pop = some f') :
    ∃ m', Reach (Machine.step S) (fun _ _ => True) m m' ∧ Agrees f' m' := by
  simp only [FineMachine.accessPop] at h
  split at h
  · rename_i hpop
    cases h
    obtain ⟨offset, buffer, rfl, -⟩ := popFromBuffer_returned hpop
    exact ⟨m, .refl, fd, v, frame, frames, offset, buffer, hw, rfl, hpop⟩
  · rename_i e b hpop
    cases h
    have hthrew : m.stream.popAndQueue fd v = (.threw e, { m.stream with stream := b }) := by
      simp only [popAndQueue, onStream, hpop, Outcome.andThen_threw]
    have hstep : workerStep S m.worker m.stream = some (.raised e, { m.stream with stream := b }) := by
      simp only [hw, workerStep, hthrew]
    exact ⟨_, .single trivial (exists_worker hopen hstep), rfl⟩
  · cases h

theorem accessPush_agrees {v : Int32} {frame : Frame} {frames : List Frame} {readData : List Byte}
    (hopen : m.halted = false) (hw : m.worker = .popping fd v frame frames)
    (hpop : m.stream.stream.popFromBuffer (absSize v) = (.returned readData,
      { m.stream.stream with bufferWriteOffset := offset, streamBuffer := buffer }))
    (h : FineMachine.accessPop S (m.withBuffer offset buffer) fd v frame frames (.push readData) = some f') :
    ∃ m', Reach (Machine.step S) (fun _ _ => True) m m' ∧ Agrees f' m' := by
  cases h
  have hqueued : m.stream.popAndQueue fd v =
      (.returned (), (m.withBuffer offset buffer).stream.queueUnlessDiscarded fd v readData) := by
    simp only [popAndQueue, onStream, hpop, Outcome.andThen_returned]
    rfl
  have hstep : workerStep S m.worker m.stream =
      some (if 0 < v then .posting fd v frame frames else .recurse S v frame frames,
        (m.withBuffer offset buffer).stream.queueUnlessDiscarded fd v readData) := by
    simp only [hw, workerStep, hqueued]
    split <;> rfl
  exact ⟨_, .single trivial (exists_worker hopen hstep), rfl⟩

/-! ## The steps -/

theorem step_of_act (hopen : m.halted = false) (h : m.act S a = some m') : m.step S a = some m' := by
  rw [Machine.step, hopen, if_neg Bool.false_ne_true, h]

/-- A step of a thread that neither is in a section nor enters one. -/
theorem agrees_other (h : Agrees f m) (hrecorded : Recorded S m.stream m.worker)
    (hopen : f.machine.halted = false) (hlocks : FineMachine.entersSection f.machine a = false)
    (hthread : (FineMachine.thread? a).isSome → FineMachine.thread? a ≠ f.inside.thread?)
    (hact : f.machine.act S a = some m') :
    ∃ m'', Reach (Machine.step S) (fun _ _ => True) m m'' ∧ Agrees { f with machine := m' } m'' := by
  rcases f with ⟨machine, inside⟩
  have hsame : machine = m → Reach (Machine.step S) (fun _ _ => True) m m' := by
    rintro rfl
    exact .single trivial (step_of_act hopen hact)
  cases inside with
  | free => exact ⟨m', hsame h, rfl⟩
  | leaving thread => exact ⟨m', hsame h, rfl⟩
  | reading c place =>
      obtain ⟨hm, fd, token, hat, hseen⟩ := h
      obtain rfl : machine = m := hm
      have hmove := (move_of_step (step_of_act hopen hact)).2
      have hne : FineMachine.thread? a ≠ some (.consumer c) := by
        intro heq
        exact hthread (by rw [heq]; rfl) heq
      obtain ⟨hqueues, hlast⟩ := hmove.queues hrecorded hlocks
      refine ⟨m', hsame rfl, rfl, fd, token, ?_, hseen.congr hqueues hlast⟩
      rw [hmove.consumer_of_ne hne]
      exact hat
  | popping place =>
      cases place with
      | pop => exact ⟨m', hsame h, rfl⟩
      | push readData =>
          obtain ⟨fd, v, frame, frames, offset, buffer, hw, hm, hpop⟩ := h
          obtain rfl : machine = m.withBuffer offset buffer := hm
          have ha : a ≠ .worker := by
            rintro rfl
            exact hthread rfl rfl
          rw [act_withBuffer ha] at hact
          obtain ⟨m'', hact', rfl⟩ := Option.map_eq_some_iff.mp hact
          have hstep := step_of_act (m := m) hopen hact'
          obtain ⟨hworker, stream, hstream⟩ := (move_of_step hstep).2.keeps ha (by rw [hw]; simp)
          refine ⟨m'', .single trivial hstep, fd, v, frame, frames, offset, buffer, hworker.trans hw, rfl, ?_⟩
          obtain ⟨offset', buffer', heq, hpop'⟩ := popFromBuffer_returned hpop
          cases heq
          rw [hstream]
          exact hpop' stream

theorem agrees_access (h : Agrees f m) (hopen : f.machine.halted = false) (haccess : f.access S = some f') :
    ∃ m', Reach (Machine.step S) (fun _ _ => True) m m' ∧ Agrees f' m' := by
  rcases f with ⟨machine, inside⟩
  cases inside with
  | free => cases haccess
  | leaving thread => cases haccess
  | reading c place =>
      obtain ⟨hm, fd, token, hat, hseen⟩ := h
      obtain rfl : machine = m := hm
      simp only [FineMachine.access, hat, Option.some.injEq] at haccess
      rw [← haccess]
      exact accessRead_agrees hopen hat hseen
  | popping place =>
      cases place with
      | pop =>
          obtain rfl : machine = m := h
          simp only [FineMachine.access] at haccess
          split at haccess
          · rename_i hw
            exact accessPop_agrees hopen hw haccess
          · cases haccess
      | push readData =>
          obtain ⟨fd, v, frame, frames, offset, buffer, hw, hm, hpop⟩ := h
          obtain rfl : machine = m.withBuffer offset buffer := hm
          have hw' : (m.withBuffer offset buffer).worker = .popping fd v frame frames := hw
          simp only [FineMachine.access, hw'] at haccess
          exact accessPush_agrees hopen hw hpop haccess

theorem agrees_lock {thread : SectionThread} (h : Agrees f m) (hact : f.act S (.lock thread) = some f') :
    Agrees f' m := by
  rcases f with ⟨machine, inside⟩
  cases thread with
  | worker =>
      simp only [FineMachine.act] at hact
      split at hact
      · cases hact
        exact h
      · cases hact
  | consumer c =>
      simp only [FineMachine.act] at hact
      split at hact
      · rename_i hat
        cases hact
        obtain rfl : machine = m := h
        exact ⟨rfl, _, _, hat, trivial⟩
      · cases hact

/-- Each step of the fine machine is some steps of the other, or none. -/
theorem agrees_step {a : FineMachine.Action} (h : Agrees f m) (hrecorded : Recorded S m.stream m.worker)
    (hstep : f.step S a = some f') :
    ∃ m', Reach (Machine.step S) (fun _ _ => True) m m' ∧ Agrees f' m' := by
  simp only [FineMachine.step] at hstep
  split at hstep
  · cases hstep
  · rename_i hnot
    have hopen : f.machine.halted = false := by simpa using hnot
    cases a with
    | other a =>
        simp only [FineMachine.act] at hstep
        split at hstep
        · cases hstep
        · rename_i hfree
          obtain ⟨m', hact, rfl⟩ := Option.map_eq_some_iff.mp hstep
          rw [not_or, not_and] at hfree
          exact agrees_other h hrecorded hopen (by simpa using hfree.1) hfree.2 hact
    | lock thread => exact ⟨m, .refl, agrees_lock h hstep⟩
    | access => exact agrees_access h hopen hstep
    | unlock =>
        rcases f with ⟨machine, inside⟩
        simp only [FineMachine.act] at hstep
        split at hstep
        · cases hstep
          exact ⟨m, .refl, h⟩
        · cases hstep

/-- Wherever the fine machine gets, the other does. -/
theorem exists_agrees
    (h : Reach (FineMachine.step S) (fun _ _ => True) (.start (.connected S size bytes answers consumers)) f) :
    ∃ m, Reach (Machine.step S) (fun _ _ => True) (.connected S size bytes answers consumers) m ∧
      Agrees f m :=
  h.simulate (R := Agrees) rfl fun _ _ _ _ hreach hagrees _ hstep =>
    agrees_step hagrees (.of_reach hreach) hstep

end SocketWrapper
