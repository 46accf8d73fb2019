import SocketWrapper.Concurrent.Lemmas.Moves

/-!
# One thread at a time

The steps that the worker takes undisturbed are those of its loop as a function, and the steps of a
call of `readBlocking` come to what the function does.
-/

namespace SocketWrapper

open ConditionalBufferedStream Machine Transition

variable {S : Setup} {s s' : ConditionalBufferedStream} {w w' : WorkerAt} {m m' : Machine} {fd : Fd}

/-! ## The worker's steps -/

/-- The worker takes steps and nobody else does. -/
def Alone (S : Setup) : WorkerAt × ConditionalBufferedStream → WorkerAt × ConditionalBufferedStream → Prop :=
  Reach (fun p (_ : Unit) => workerStep S p.1 p.2) (fun _ _ => True)

theorem Alone.refl : Alone S (w, s) (w, s) := Reach.refl

theorem Alone.head {p : WorkerAt × ConditionalBufferedStream} (h : workerStep S w s = some (w', s'))
    (hrest : Alone S (w', s') p) : Alone S (w, s) p :=
  Reach.head (a := ()) trivial h hrest

/-- Where the worker is after a call of `processDataSendSignals` that `frames` have made. -/
inductive CallEnd (frames : List Frame) : Outcome Unit → WorkerAt → Prop
  | returned : CallEnd frames (.returned ()) (.dispatching frames)
  | threw (e : Exception) : CallEnd frames (.threw e) (.raised e)

/-- From `w` the worker comes to the end of a call with the result `r`. -/
def Simulates (S : Setup) (w : WorkerAt) (s : ConditionalBufferedStream) (frames : List Frame)
    (r : Outcome Unit × ConditionalBufferedStream) : Prop :=
  ∃ w', CallEnd frames r.1 w' ∧ Alone S (w, s) (w', r.2)

theorem Simulates.head {frames : List Frame} {r : Outcome Unit × ConditionalBufferedStream}
    (hstep : workerStep S w s = some (w', s')) (h : Simulates S w' s' frames r) :
    Simulates S w s frames r := by
  obtain ⟨w'', hend, halone⟩ := h
  exact ⟨w'', hend, .head hstep halone⟩

/-- A call, and then the rest of the loop that made it. -/
theorem Simulates.andThen {frames : List Frame} {frame : Frame}
    {r : Outcome Unit × ConditionalBufferedStream}
    {k : Unit → ConditionalBufferedStream → Outcome Unit × ConditionalBufferedStream}
    (h : Simulates S w s (frame :: frames) r)
    (hk : ∀ s, Simulates S (.dispatching (frame :: frames)) s frames (k () s)) :
    Simulates S w s frames (Outcome.andThen r k) := by
  obtain ⟨o, s₁⟩ := r
  obtain ⟨w₁, hend, halone⟩ := h
  cases hend with
  | returned =>
      obtain ⟨w₂, hend₂, halone₂⟩ := hk s₁
      exact ⟨w₂, hend₂, halone.trans halone₂⟩
  | threw e => exact ⟨_, .threw e, halone⟩

section

variable {recur : List Byte → ConditionalBufferedStream → Outcome Unit × ConditionalBufferedStream}
  {data : List Byte} {frames : List Frame}

theorem serve_simulates (fd : Fd) (v : Int32) (frame : Frame) (s : ConditionalBufferedStream)
    (hrec : ∀ s, Simulates S (.recurse S v frame frames) s (frame :: frames)
      (recur (frame.data.drop (absSize v)) s)) :
    Simulates S (.popping fd v frame frames) s (frame :: frames) (serve S recur frame.data s fd v) := by
  rw [serve]
  rcases hpop : s.popAndQueue fd v with ⟨o, s₁⟩
  cases o with
  | waiting => exact absurd (congrArg Prod.fst hpop) (not_waiting_popAndQueue s fd v)
  | threw e => exact ⟨_, .threw e, .head (by simp [workerStep, hpop]) .refl⟩
  | returned _ =>
      rw [Outcome.andThen_returned, postIfQueued]
      by_cases hpos : 0 < v
      · have hstep : workerStep S (.popping fd v frame frames) s =
            some (.posting fd v frame frames, s₁) := by simp [workerStep, hpop, hpos]
        refine .head hstep ?_
        rw [if_pos hpos]
        rcases hpost : s₁.post S fd with ⟨o, s₂⟩
        cases o with
        | waiting => exact absurd (congrArg Prod.fst hpost) (not_waiting_post s₁ fd)
        | threw e => exact ⟨_, .threw e, .head (by simp [workerStep, hpost]) .refl⟩
        | returned _ =>
            have hstep : workerStep S (.posting fd v frame frames) s₁ =
                some (.recurse S v frame frames, s₂) := by simp [workerStep, hpost]
            exact .head hstep (hrec s₂)
      · have hstep : workerStep S (.popping fd v frame frames) s =
            some (.recurse S v frame frames, s₁) := by simp [workerStep, hpop, hpos]
        rw [if_neg hpos]
        exact .head hstep (hrec s₁)

theorem dispatchHandlers_simulates (hdata : data ≠ [])
    (hrec : ∀ d, d.length < data.length → ∀ s frames,
      Simulates S (.dispatching (.enter S d :: frames)) s frames (recur d s))
    (rest : List BufferEventHandler) (s : ConditionalBufferedStream) :
    Simulates S (.dispatching (⟨data, rest⟩ :: frames)) s frames
      (dispatchHandlers S recur data rest s) := by
  induction rest generalizing s with
  | nil => exact ⟨_, .returned, .head rfl .refl⟩
  | cons h rest ih =>
      rw [dispatchHandlers_cons]
      split
      · rename_i hlt
        exact ⟨_, .threw tooMuchData, .head (by simp [workerStep, hlt]) .refl⟩
      · rename_i hle
        split
        · rename_i hzero
          have hstep : workerStep S (.dispatching (⟨data, h :: rest⟩ :: frames)) s =
              some (.dispatching (⟨data, rest⟩ :: frames), (s.evaluate h data).2) := by
            simp only [workerStep, if_neg hle, if_pos hzero]
          exact .head hstep (ih _)
        · rename_i hne
          have hstep : workerStep S (.dispatching (⟨data, h :: rest⟩ :: frames)) s =
              some (.popping h.fd (s.evaluate h data).1 ⟨data, rest⟩ frames, (s.evaluate h data).2) := by
            simp only [workerStep, if_neg hle, if_neg hne]
          have hshort : (data.drop (absSize (s.evaluate h data).1)).length < data.length := by
            have hpos := absSize_pos hne
            have hlen := List.length_pos_iff.mpr hdata
            simp only [List.length_drop]
            omega
          have hserve := serve_simulates h.fd (s.evaluate h data).1 ⟨data, rest⟩ (s.evaluate h data).2
            fun s => hrec _ hshort s (⟨data, rest⟩ :: frames)
          exact .head hstep (hserve.andThen fun s => ih s)

end

theorem processDataSendSignals_simulates (data : List Byte) (s : ConditionalBufferedStream)
    (frames : List Frame) :
    Simulates S (.dispatching (.enter S data :: frames)) s frames (s.processDataSendSignals S data) := by
  generalize hn : data.length = n
  induction n using Nat.strongRecOn generalizing data s frames with
  | ind n ih =>
      rw [processDataSendSignals_eq]
      by_cases hdata : data = []
      · rw [if_pos hdata, Frame.enter, if_pos hdata]
        exact ⟨_, .returned, .head rfl .refl⟩
      · rw [if_neg hdata, Frame.enter, if_neg hdata]
        exact dispatchHandlers_simulates hdata
          (fun d hd s frames => ih d.length (hn ▸ hd) d s frames rfl) _ s

/-! ## Rounds -/

/-- Where the worker is between two rounds. -/
def WorkerStatus.place : WorkerStatus → WorkerAt
  | .running => .reading
  | .ended t => .ended t
  | .terminated e => .terminated e

theorem notifyHandlers_alone (t : SocketExceptionType) (hs : List BufferEventHandler)
    (s : ConditionalBufferedStream) :
    ((notifyHandlers S hs s).1 = .returned () ∧
      Alone S (.notifying t hs, s) (.ended t, (notifyHandlers S hs s).2)) ∨
    ∃ e, (notifyHandlers S hs s).1 = .threw e ∧
      Alone S (.notifying t hs, s) (.terminated e, (notifyHandlers S hs s).2) := by
  induction hs generalizing s with
  | nil => exact .inl ⟨rfl, .head rfl .refl⟩
  | cons h hs ih =>
      rw [notifyHandlers]
      rcases hpost : s.post S h.fd with ⟨o, s₁⟩
      cases o with
      | waiting => exact absurd (congrArg Prod.fst hpost) (not_waiting_post s h.fd)
      | threw e => exact .inr ⟨e, rfl, .head (by simp [workerStep, hpost]) .refl⟩
      | returned _ =>
          rw [Outcome.andThen_returned]
          have hstep : ∀ {p}, Alone S (.notifying t hs, { s₁ with
              failureTokens := Function.update s₁.failureTokens h.fd (s₁.failureTokens h.fd + 1) }) p →
              Alone S (.notifying t (h :: hs), s) p :=
            fun halone => .head (by simp [workerStep, hpost]) halone
          rcases ih _ with ⟨hreturned, halone⟩ | ⟨e, hthrew, halone⟩
          · exact .inl ⟨hreturned, hstep halone⟩
          · exact .inr ⟨e, hthrew, hstep halone⟩

theorem afterBody_alone (e : Exception) (s : ConditionalBufferedStream) :
    Alone S (.raised e, s)
      (WorkerStatus.place (afterBody S (.threw e, s)).1, (afterBody S (.threw e, s)).2) := by
  cases e with
  | socket ex =>
      rw [afterBody, catchException]
      by_cases hterm : ex.exceptionType = .SOCKET_TERMINATION_REQUEST
      · simp only [hterm, ↓reduceIte]
        exact .head (by simp [workerStep, WorkerAt.raised, WorkerStatus.place, hterm]) .refl
      · simp only [hterm, ↓reduceIte]
        have hstep : workerStep S (.caught ex) s = some (.notifying ex.exceptionType S.handlers,
            { s with lastEx := ex.exceptionType }) := by simp [workerStep, hterm]
        refine .head hstep ?_
        rcases notifyHandlers_alone ex.exceptionType S.handlers { s with lastEx := ex.exceptionType } with
          ⟨hreturned, halone⟩ | ⟨e, hthrew, halone⟩
        · generalize notifyHandlers S S.handlers { s with lastEx := ex.exceptionType } = r at *
          obtain ⟨o, s₁⟩ := r
          obtain rfl : o = _ := hreturned
          exact halone
        · generalize notifyHandlers S S.handlers { s with lastEx := ex.exceptionType } = r at *
          obtain ⟨o, s₁⟩ := r
          obtain rfl : o = _ := hthrew
          exact halone
  | logicError what => exact .refl
  | outOfRange what => exact .refl
  | runtimeError what => exact .refl
  | systemError => exact .refl

theorem workerRound_alone (s : ConditionalBufferedStream)
    (hread : (s.stream.readAvailableDataIntoBuffer (-1)).1 ≠ .waiting) :
    Alone S (.reading, s) (WorkerStatus.place (workerRound S (.running, s)).1,
      (workerRound S (.running, s)).2) := by
  rw [workerRound]
  rcases h : s.stream.readAvailableDataIntoBuffer (-1) with ⟨o, b⟩
  cases o with
  | waiting => exact absurd (congrArg Prod.fst h) hread
  | threw e =>
      rw [workerBody_of_threw h]
      exact .head (by simp [workerStep, h]) (afterBody_alone e _)
  | returned n =>
      rw [workerBody_of_returned h]
      have hstep : workerStep S .reading s =
          some (.dispatching [.enter S b.contents], { s with stream := b }) := by simp [workerStep, h]
      refine .head hstep ?_
      obtain ⟨w, hend, halone⟩ := processDataSendSignals_simulates (S := S) b.contents
        { s with stream := b } []
      refine Reach.trans halone ?_
      generalize processDataSendSignals S { s with stream := b } b.contents = r at hend
      obtain ⟨o, s₁⟩ := r
      cases hend with
      | returned => exact Alone.head rfl .refl
      | threw e => exact afterBody_alone e s₁

/-- The rounds of the loop are runs of the worker's steps, up to a read that waits. -/
theorem conditionalBufferWorker_alone (s : ConditionalBufferedStream) (rounds : Nat) :
    ∃ k ≤ rounds, Alone S (.reading, s)
        (WorkerStatus.place (conditionalBufferWorker S s k).1, (conditionalBufferWorker S s k).2) ∧
      (k = rounds ∨ (conditionalBufferWorker S s k).1 = .running ∧
        ((conditionalBufferWorker S s k).2.stream.readAvailableDataIntoBuffer (-1)).1 = .waiting) := by
  induction rounds with
  | zero => exact ⟨0, Nat.le_refl 0, .refl, .inl rfl⟩
  | succ rounds ih =>
      obtain ⟨k, hk, halone, rfl | hwaits⟩ := ih
      · generalize hr : conditionalBufferWorker S s k = r at halone
        obtain ⟨status, s₁⟩ := r
        by_cases hwaits : status = .running ∧
            (s₁.stream.readAvailableDataIntoBuffer (-1)).1 = .waiting
        · refine ⟨k, Nat.le_succ k, ?_, .inr ?_⟩
          · rw [hr]
            exact halone
          · rw [hr]
            exact hwaits
        · refine ⟨k + 1, Nat.le_refl _, ?_, .inl rfl⟩
          rw [conditionalBufferWorker_succ, hr]
          cases status with
          | running => exact Reach.trans halone (workerRound_alone s₁ (by simpa using hwaits))
          | ended t => exact halone
          | terminated e => exact halone
      · exact ⟨k, Nat.le_succ_of_le hk, halone, .inr hwaits⟩

/-! ## In the machine -/

/-- The object has not been destroyed, and the destructor has not thrown. -/
def DestructorAt.Open (d : DestructorAt) : Prop := d ≠ .destroyed ∧ ∀ e, d ≠ .terminated e

theorem not_halted (hw : ∀ e, m.worker ≠ .terminated e) (hd : m.destructor.Open) :
    m.halted = false := by
  obtain ⟨hdestroyed, hterminated⟩ := hd
  rw [Machine.halted]
  split <;> simp_all

theorem Alone.reach (h : Alone S (m.worker, m.stream) (w, s)) (hd : m.destructor.Open) :
    Reach (Machine.step S) (fun _ a => a = .worker) m { m with worker := w, stream := s } := by
  suffices hall : ∀ p, Alone S (m.worker, m.stream) p → Reach (Machine.step S) (fun _ a => a = .worker) m
      { m with worker := p.1, stream := p.2 } from hall _ h
  intro p hp
  induction hp with
  | refl => exact .refl
  | @tail p q _ _ _ hstep ih =>
      refine .tail ih (a := .worker) rfl ?_
      have hhalted : Machine.halted { m with worker := p.1, stream := p.2 } = false :=
        not_halted (fun e he => by simp [show p.1 = _ from he, workerStep] at hstep) hd
      rw [Machine.step, hhalted, if_neg Bool.false_ne_true, Machine.act, hstep, Option.map_some]

/-- The rounds of a worker that nobody disturbs are a run of the machine, up to a read that waits. -/
theorem conditionalBufferWorker_reach (hw : m.worker = .reading) (hd : m.destructor.Open) (rounds : Nat) :
    ∃ k ≤ rounds, Reach (Machine.step S) (fun _ a => a = .worker) m { m with
        worker := WorkerStatus.place (conditionalBufferWorker S m.stream k).1
        stream := (conditionalBufferWorker S m.stream k).2 } ∧
      (k = rounds ∨ (conditionalBufferWorker S m.stream k).1 = .running ∧
        ((conditionalBufferWorker S m.stream k).2.stream.readAvailableDataIntoBuffer (-1)).1 =
          .waiting) := by
  obtain ⟨k, hk, halone, hend⟩ := conditionalBufferWorker_alone (S := S) m.stream rounds
  rw [← hw] at halone
  exact ⟨k, hk, halone.reach hd, hend⟩

/-- The consumer takes steps and nobody else does. -/
def StepsOf (c : Nat) : Machine → Action → Prop := fun _ a => ∃ ca, a = .consumer c ca

theorem consumers_moveTo_self {c : Nat} (hc : c < m.consumers.length) (place : ConsumerAt) :
    (m.moveTo c place).consumers[c]? = some place := by
  simp [hc]

theorem moveTo_moveTo (m : Machine) (c : Nat) (place place' : ConsumerAt) :
    (m.moveTo c place).moveTo c place' = m.moveTo c place' := by
  simp [Machine.moveTo]

theorem complete_moveTo (m : Machine) (c : Nat) (place : ConsumerAt) (fd : Fd) (token : Bool)
    (o : Outcome (List Byte)) : (m.moveTo c place).complete c fd token o = m.complete c fd token o := by
  simp [Machine.complete, Machine.moveTo]

theorem reach_consumer {c : Nat} {m₀ : Machine} (h : Reach (Machine.step S) (StepsOf c) m₀ m)
    (hhalted : m.halted = false) (a : ConsumerAction) (hstep : consumerStep m c a = some m') :
    Reach (Machine.step S) (StepsOf c) m₀ m' := by
  refine .tail h ⟨a, rfl⟩ ?_
  rw [Machine.step, hhalted, if_neg Bool.false_ne_true]
  exact hstep

/-- A call of `readBlocking` that nobody disturbs comes back with what the function gives. -/
theorem readBlocking_reach {c : Nat} (hhalted : m.halted = false) (hc : m.consumers[c]? = some .idle)
    (hopen : fd ∉ m.stream.eventFds.closed) (timeoutMs : Int) (pollFails : Bool) (errno : Nat)
    (hcomes : (m.stream.readBlocking fd timeoutMs pollFails errno).1 ≠ .waiting) :
    ∃ token, Reach (Machine.step S) (StepsOf c) m
      ({ m with stream := (m.stream.readBlocking fd timeoutMs pollFails errno).2 }.complete c fd token
        (m.stream.readBlocking fd timeoutMs pollFails errno).1) := by
  obtain ⟨hlt, -⟩ := List.getElem?_eq_some_iff.mp hc
  have hpolling : Reach (Machine.step S) (StepsOf c) m (m.moveTo c (.polling fd timeoutMs)) :=
    reach_consumer .refl hhalted (.readBlocking fd timeoutMs) (by simp [consumerStep, hc])
  have hat := consumers_moveTo_self hlt (.polling fd timeoutMs)
  by_cases hfails : pollFails = true
  · refine ⟨false, reach_consumer hpolling hhalted (.pollFails errno) ?_⟩
    simp only [consumerStep, hat, complete_moveTo, readBlocking, hfails, ↓reduceIte]
  · by_cases hpos : 0 < m.stream.eventFds.counter fd
    · have htaking : Reach (Machine.step S) (StepsOf c) m (m.moveTo c (.taking fd)) :=
        reach_consumer hpolling hhalted .pollReady
          (by simp only [consumerStep, hat, stream_moveTo, hpos, hopen, not_false_eq_true, and_self,
            ↓reduceIte, moveTo_moveTo])
      have hpopping : Reach (Machine.step S) (StepsOf c) m
          ({ m with stream := m.stream.takeToken fd }.moveTo c (.popping fd true)) := by
        refine reach_consumer htaking hhalted .takeToken ?_
        simp only [consumerStep, consumers_moveTo_self hlt, stream_moveTo, hpos, hopen, ↓reduceIte]
        exact congrArg some (moveTo_moveTo { m with stream := m.stream.takeToken fd } c _ _)
      refine ⟨true, reach_consumer hpopping hhalted .pop ?_⟩
      have hat' := consumers_moveTo_self (m := { m with stream := m.stream.takeToken fd }) hlt
        (.popping fd true)
      simp only [consumerStep, hat', stream_moveTo, readBlocking, hfails, hpos, ↓reduceIte]
      exact congrArg some (complete_moveTo { m with stream := ((m.stream.takeToken fd).read fd).2 }
        c _ _ _ _)
    · have hzero : m.stream.eventFds.counter fd = 0 := Nat.eq_zero_of_not_pos hpos
      have htimeout : 0 ≤ timeoutMs := by
        by_contra hneg
        simp [readBlocking, hfails, hpos, Int.not_le.mp hneg] at hcomes
      have hexpired : Reach (Machine.step S) (StepsOf c) m (m.moveTo c (.expired fd)) :=
        reach_consumer hpolling hhalted .pollExpires
          (by simp only [consumerStep, hat, stream_moveTo, hzero, hopen, htimeout, not_false_eq_true,
            and_self, ↓reduceIte, moveTo_moveTo])
      refine ⟨false, reach_consumer hexpired hhalted (.throwExpired errno) ?_⟩
      simp only [consumerStep, consumers_moveTo_self hlt, complete_moveTo, stream_moveTo, readBlocking,
        hfails, hpos, Int.not_lt.mpr htimeout, Bool.false_eq_true, ↓reduceIte]

end SocketWrapper
