import SocketWrapper.Conditional.Lemmas.Dispatch

/-!
# Rounds of the worker's loop

The `catch` block touches nothing but `last_ex` and the eventfds, so that the buffer, the queues and the
removals of a round are those of its body.
-/

namespace SocketWrapper

namespace ConditionalBufferedStream

variable {S : Setup} {s s' : ConditionalBufferedStream} {fd : Fd}

/-! ## Posting -/

theorem write_closed (k : EventFds) (outcome : Nat → Option Nat) (fd : Fd) :
    (k.write outcome fd).2.closed = k.closed := by
  simp only [EventFds.write]
  split
  · rfl
  · split <;> rfl

theorem post_snd (s : ConditionalBufferedStream) (fd : Fd) :
    (s.post S fd).2 = { s with eventFds := (s.eventFds.write S.eventfdWrite fd).2 } := by
  simp only [post]
  split <;> rename_i h <;> simp [h]

theorem eq_of_post {o : Outcome Unit} (h : s.post S fd = (o, s')) :
    s' = { s with eventFds := (s.eventFds.write S.eventfdWrite fd).2 } := by
  rw [← post_snd s fd, h]

theorem of_post_returned {u : Unit} (h : s.post S fd = (.returned u, s')) :
    fd ∉ s.eventFds.closed ∧ S.eventfdWrite s.eventFds.writes = none ∧ s' = s.posted fd := by
  simp only [post, EventFds.write] at h
  split at h
  · rename_i k hk
    split at hk
    · cases hk
    · rename_i hopen
      split at hk
      · cases hk
      · rename_i haccepted
        cases hk
        cases h
        exact ⟨hopen, haccepted, rfl⟩
  · cases h

theorem of_post_threw {e : Exception} (h : s.post S fd = (.threw e, s')) :
    (∃ errno, e = .socket (.withErrno .SOCKET_WRITE errno)) ∧
      ∃ k, s' = { s with eventFds := k } ∧ k.counter = s.eventFds.counter := by
  simp only [post, EventFds.write] at h
  split at h
  · cases h
  · rename_i errno k hk
    cases h
    refine ⟨⟨errno, rfl⟩, k, rfl, ?_⟩
    split at hk
    · cases hk
      rfl
    · split at hk
      · cases hk
        rfl
      · cases hk

theorem post_of_refused (fd : Fd) {errno : Nat} (hopened : s.eventFds.closed = [])
    (h : S.eventfdWrite s.eventFds.writes = some errno) :
    (s.post S fd).1 = .socketError .SOCKET_WRITE errno := by
  simp [post, EventFds.write, hopened, h]

theorem post_of_accepted (hopened : fd ∉ s.eventFds.closed)
    (h : S.eventfdWrite s.eventFds.writes = none) : s.post S fd = (.returned (), s.posted fd) := by
  simp [post, EventFds.write, hopened, h, posted]

theorem not_waiting_popAndQueue (s : ConditionalBufferedStream) (fd : Fd) (v : Int32) :
    (s.popAndQueue fd v).1 ≠ .waiting := by
  simp only [popAndQueue, onStream, BufferedStream.popFromBuffer]
  split <;> simp

theorem not_waiting_post (s : ConditionalBufferedStream) (fd : Fd) : (s.post S fd).1 ≠ .waiting := by
  simp only [post]
  split <;> simp

/-! ## The `catch` block -/

theorem notifyHandlers_snd (hs : List BufferEventHandler) (s : ConditionalBufferedStream) :
    ∃ k f, (notifyHandlers S hs s).2 = { s with eventFds := k, failureTokens := f } ∧
      k.closed = s.eventFds.closed := by
  induction hs generalizing s with
  | nil => exact ⟨_, _, rfl, rfl⟩
  | cons h hs ih =>
      rw [notifyHandlers]
      have hclosed := write_closed s.eventFds S.eventfdWrite h.fd
      rcases hpost : s.post S h.fd with ⟨o, s₁⟩
      obtain rfl := eq_of_post hpost
      cases o with
      | returned _ =>
          obtain ⟨k, f, heq, hk⟩ := ih { s with
            eventFds := (s.eventFds.write S.eventfdWrite h.fd).2
            failureTokens := Function.update s.failureTokens h.fd (s.failureTokens h.fd + 1) }
          exact ⟨k, f, by rw [Outcome.andThen_returned, heq], hk.trans hclosed⟩
      | threw e => exact ⟨_, _, rfl, hclosed⟩
      | waiting => exact ⟨_, _, rfl, hclosed⟩

theorem notifyHandlers_of_succeeds (hs : List BufferEventHandler) (hp : s.PostsSucceed S) :
    (notifyHandlers S hs s).1 = .returned () := by
  induction hs generalizing s with
  | nil => rfl
  | cons h hs ih =>
      rw [notifyHandlers, post_of_succeeds hp]
      exact ih ⟨hp.kernel, hp.opened⟩

/-- What `last_ex` is after the `catch` block has seen a body with outcome `o`. -/
def recorded (o : Outcome Unit) (lastEx : SocketExceptionType) : SocketExceptionType :=
  match o with
  | .threw (.socket ex) =>
      if ex.exceptionType = .SOCKET_TERMINATION_REQUEST then lastEx else ex.exceptionType
  | _ => lastEx

theorem catchException_snd (s : ConditionalBufferedStream) (ex : SocketException) :
    ∃ k f, (s.catchException S ex).2 = { s with
        lastEx := recorded (.threw (.socket ex)) s.lastEx, eventFds := k, failureTokens := f } ∧
      k.closed = s.eventFds.closed := by
  rw [catchException, recorded]
  split
  · exact ⟨_, _, rfl, rfl⟩
  · obtain ⟨k, f, heq, hk⟩ := notifyHandlers_snd (S := S) S.handlers
      { s with lastEx := ex.exceptionType }
    exact ⟨k, f, heq, hk⟩

theorem catchException_of_succeeds (hp : s.PostsSucceed S) (ex : SocketException) :
    (s.catchException S ex).1 = .returned () := by
  rw [catchException]
  split
  · rfl
  · exact notifyHandlers_of_succeeds _ ⟨hp.kernel, hp.opened⟩

/-! ## A round -/

section

variable {b' : BufferedStream}

theorem workerBody_of_returned {n : Nat}
    (h : s.stream.readAvailableDataIntoBuffer (-1) = (.returned n, b')) :
    s.workerBody S =
      ({ s with stream := b' } : ConditionalBufferedStream).processDataSendSignals S b'.contents := by
  rw [workerBody, onStream, h, Outcome.andThen_returned]

theorem workerBody_of_threw {e : Exception}
    (h : s.stream.readAvailableDataIntoBuffer (-1) = (.threw e, b')) :
    s.workerBody S = (.threw e, { s with stream := b' }) := by
  rw [workerBody, onStream, h, Outcome.andThen_threw]

theorem workerBody_of_waiting
    (h : s.stream.readAvailableDataIntoBuffer (-1) = (.waiting, b')) :
    s.workerBody S = (.waiting, { s with stream := b' }) := by
  rw [workerBody, onStream, h, Outcome.andThen_waiting]

end

theorem afterBody_snd (r : Outcome Unit × ConditionalBufferedStream) :
    ∃ k f, (afterBody S r).2 = { r.2 with
        lastEx := recorded r.1 r.2.lastEx, eventFds := k, failureTokens := f } ∧
      k.closed = r.2.eventFds.closed := by
  obtain ⟨o, s⟩ := r
  cases o with
  | returned _ => exact ⟨_, _, rfl, rfl⟩
  | waiting => exact ⟨_, _, rfl, rfl⟩
  | threw e =>
      cases e with
      | socket ex =>
          obtain ⟨k, f, heq, hk⟩ := catchException_snd (S := S) s ex
          refine ⟨k, f, ?_, hk⟩
          rw [← heq, afterBody]
          split <;> rename_i h <;> rw [h]
      | _ => exact ⟨_, _, rfl, rfl⟩

@[simp] theorem stream_afterBody (r : Outcome Unit × ConditionalBufferedStream) :
    (afterBody S r).2.stream = r.2.stream := by
  obtain ⟨k, f, heq, -⟩ := afterBody_snd (S := S) r
  rw [heq]

@[simp] theorem lastEx_afterBody (r : Outcome Unit × ConditionalBufferedStream) :
    (afterBody S r).2.lastEx = recorded r.1 r.2.lastEx := by
  obtain ⟨k, f, heq, -⟩ := afterBody_snd (S := S) r
  rw [heq]

theorem afterBody_of_threw (e : Exception) (s : ConditionalBufferedStream) :
    (afterBody S (.threw e, s)).1 ≠ .running := by
  cases e with
  | socket ex =>
      rw [afterBody]
      split <;> simp
  | _ => simp [afterBody]

theorem afterBody_of_running {r : Outcome Unit × ConditionalBufferedStream}
    (h : (afterBody S r).1 = .running) :
    (r.1 = .returned () ∨ r.1 = .waiting) ∧ (afterBody S r).2 = r.2 := by
  obtain ⟨o, s⟩ := r
  cases o with
  | returned _ => exact ⟨.inl rfl, rfl⟩
  | waiting => exact ⟨.inr rfl, rfl⟩
  | threw e => exact absurd h (afterBody_of_threw e s)

theorem afterBody_of_succeeds (ex : SocketException) (hp : s.PostsSucceed S) :
    (afterBody S (.threw (.socket ex), s)).1 = .ended ex.exceptionType := by
  have hreturned := catchException_of_succeeds hp ex
  rw [afterBody]
  split
  · rename_i h
    rw [h] at hreturned
    cases hreturned
  · rfl

theorem conditionalBufferWorker_succ (s : ConditionalBufferedStream) (rounds : Nat) :
    conditionalBufferWorker S s (rounds + 1) = workerRound S (conditionalBufferWorker S s rounds) :=
  Function.iterate_succ_apply' _ _ _

/-- What holds at the start and is preserved by each round holds after any number of rounds. -/
theorem conditionalBufferWorker_invariant {P : WorkerStatus × ConditionalBufferedStream → Prop}
    (h₀ : P (.running, s)) (hround : ∀ s, P (.running, s) → P (afterBody S (s.workerBody S)))
    (rounds : Nat) : P (conditionalBufferWorker S s rounds) := by
  induction rounds with
  | zero => exact h₀
  | succ rounds ih =>
      rw [conditionalBufferWorker_succ]
      generalize conditionalBufferWorker S s rounds = r at ih ⊢
      obtain ⟨w, s'⟩ := r
      cases w with
      | running => exact hround s' ih
      | ended t => exact ih
      | terminated e => exact ih

end ConditionalBufferedStream

end SocketWrapper
