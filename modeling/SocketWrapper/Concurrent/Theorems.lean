import SocketWrapper.Concurrent.Lemmas.Reports
import SocketWrapper.Concurrent.Lemmas.Abort
import SocketWrapper.Concurrent.Lemmas.Mixed
import SocketWrapper.Concurrent.Lemmas.Destruction
import SocketWrapper.Concurrent.Lemmas.Results
import SocketWrapper.Conditional.Theorems

/-!
# The threads together

What holds in every state that the threads reach, in whatever order they take their steps.
-/

namespace SocketWrapper

open ConditionalBufferedStream Transition

variable {S : Setup} {size : Nat} {bytes : List Byte} {answers : List Answer} {consumers : Nat}
  {m : Machine}

/-! ## Runs of a stream with a handler for lines -/

/-- The state after a list of actions, each of them allowed. -/
def lineAfter (allowed : Machine → Action → Bool) (bytes : List Byte) (answers : List Answer)
    (as : List Action) : Machine :=
  after (Machine.step (lineSetup [3] (by decide))) (fun m a => allowed m a)
    (.connected (lineSetup [3] (by decide)) 8 bytes answers 1) as

theorem reach_lineAfter (allowed : Machine → Action → Bool) (bytes : List Byte) (answers : List Answer)
    (as : List Action) :
    Reach (Machine.step (lineSetup [3] (by decide))) (fun m a => allowed m a)
      (.connected (lineSetup [3] (by decide)) 8 bytes answers 1) (lineAfter allowed bytes answers as) :=
  .after _ as

/-- A consumer has read a line, and the beginning of the next is in the buffer. -/
def oneLine : Machine :=
  lineAfter (fun _ a => a.onlyBlocking (lineSetup [3] (by decide))) [97, 10, 98] [.readable 5]
    [.start, .worker, .worker, .worker, .worker, .consumer 0 (.readBlocking 3 (-1)),
      .consumer 0 .pollReady, .consumer 0 .takeToken, .consumer 0 .pop]

/-- The peer has closed, and the worker has told the handler. -/
def peerClosed : Machine :=
  lineAfter (fun _ a => a.onlyBlocking (lineSetup [3] (by decide))) [] [.readable 0]
    [.start, .worker, .worker, .worker, .worker]

/-- `stopReads` has been called while a consumer waits without a timeout. -/
def stoppedWhileWaiting : Machine :=
  lineAfter (fun _ a => a.onlyBlocking (lineSetup [3] (by decide))) [] []
    [.start, .consumer 0 (.readBlocking 3 (-1)), .stopReads, .stopStream, .worker, .worker]

/-! ## Bytes -/

/-- The bytes received are the segments removed and what is in the buffer, in order. The segments that
a handler's condition has asked for are those returned and those in its queue, in order. -/
theorem no_byte_lost
    (hreach : Reach (Machine.step S) (fun _ _ => True) (.connected S size bytes answers consumers) m) :
    (m.stream.removals.map Removal.segment).flatten ++ m.stream.contents = m.stream.stream.received ∧
      ∀ fd, returnedIn m.completions fd ++ m.stream.queue fd = delivered fd m.stream.removals :=
  have hconserved := Conserved.of_reach hreach
  ⟨hconserved.bytes, hconserved.queue⟩

theorem no_byte_lost_oneLine :
    oneLine.stream.stream.received = [97, 10, 98] ∧
      (oneLine.stream.removals.map Removal.segment).flatten ++ oneLine.stream.contents =
        oneLine.stream.stream.received :=
  ⟨by decide +kernel, (no_byte_lost ((reach_lineAfter _ _ _ _).mono fun _ _ _ => trivial)).1⟩

/-! ## Tokens -/

/-- Every token is backed by a segment or by the failure, and the calls of `readBlocking` return the
segments in order and report the failure after the last of them. -/
theorem tokens_backed (hwrite : ∀ n, S.eventfdWrite n = none)
    (hreach : Reach (Machine.step S) (fun _ a => a.onlyBlocking S)
      (.connected S size bytes answers consumers) m) :
    (∀ fd, m.stream.eventFds.counter fd + m.pending fd + m.worker.unposted fd =
      (m.stream.queue fd).length + m.unreported fd) ∧
    (∀ c ∈ m.completions, ∀ what, c.outcome ≠ .threw (.outOfRange what)) ∧
    (∀ fd, returnedIn m.completions fd ++ m.stream.queue fd = delivered fd m.stream.removals) ∧
    ∀ pre c post, m.completions = pre ++ c :: post →
      c.outcome = .threw (.socket (.ofType m.stream.lastEx)) →
      returnedIn pre c.fd = delivered c.fd m.stream.removals := by
  have htokens := Tokens.of_reach (fun _ _ h => h) hreach
  have hrec := Recorded.of_reach hreach
  have haccounting := Accounting.of_reach (fun _ _ h => h) hreach
  refine ⟨fun fd => ?_, fun c hc => haccounting.not_outOfRange hc, (Conserved.of_reach hreach).queue,
    fun pre c post heq hthrew => haccounting.of_failure hrec heq hthrew⟩
  obtain ⟨lost, hall, hnone⟩ := htokens.balance fd
  have hunreported := htokens.unreported_add hrec fd
  have hlost := hnone hwrite
  omega

theorem tokens_backed_oneLine :
    oneLine.completions = [⟨0, 3, true, .returned [97, 10]⟩] ∧
      oneLine.stream.eventFds.counter 3 + oneLine.pending 3 + oneLine.worker.unposted 3 =
        (oneLine.stream.queue 3).length + oneLine.unreported 3 :=
  ⟨by decide +kernel, (tokens_backed (fun _ => rfl) (reach_lineAfter _ _ _ _)).1 3⟩

/-! ## Both calls together -/

/-- If no call of `read` takes a segment before a failure is recorded, every call of `readBlocking`
returns a segment or throws a `SocketException`: one that has taken a token, and one that comes back
before it calls `read`. After a call of `read` that is not so, one of `readBlocking` may throw
`out_of_range`. -/
theorem readBlocking_proper :
    (∀ m, Reach (Machine.step S) (fun m a => m.leavesNoToken S a)
        (.connected S size bytes answers consumers) m →
      (∀ c ∈ m.completions, c.token = true → c.Proper) ∧
      ∀ c a m', a ≠ .pop → m.step S (.consumer c a) = some m' →
        ∀ d ∈ m'.completions, d ∈ m.completions ∨ d.Proper) ∧
    ((∀ n, S.eventfdWrite n = none) → ∀ m a m',
      Reach (Machine.step S) (fun _ a => a.onlyReads S) (.connected S size bytes answers consumers) m →
      m.step S a = some m' → a.onlyReads S → ¬ m.leavesNoToken S a →
      ∃ m'', Reach (Machine.step S) (fun _ a => a.onlyReads S) m' m'' ∧ ∃ c ∈ m''.completions, c.Misled) := by
  constructor
  · intro m hreach
    refine ⟨(Trusted.of_reach hreach).proper, fun c a m' ha hstep => ?_⟩
    cases (move_of_step hstep).2 with
    | consumer hc => exact proper_of_poll hc ha
  · intro hwrite m a m' hreach hstep hreads ha
    exact mayMislead_of_token_left hwrite hreach hstep hreads ha

/-- A consumer has read a line with its token, and `read` has then found nothing. -/
def readInTurn : Machine :=
  lineAfter (fun m a => m.leavesNoToken (lineSetup [3] (by decide)) a) [97, 10] [.readable 5]
    [.start, .worker, .worker, .worker, .worker, .consumer 0 (.readBlocking 3 (-1)),
      .consumer 0 .pollReady, .consumer 0 .takeToken, .consumer 0 .pop, .consumer 0 (.read 3),
      .consumer 0 .pop]

theorem readBlocking_proper_readInTurn :
    readInTurn.completions.length = 2 ∧ ∀ c ∈ readInTurn.completions, c.token = true → c.Proper :=
  ⟨by decide +kernel, (readBlocking_proper.1 readInTurn (reach_lineAfter _ _ _ _)).1⟩

/-- `read` takes the line, and `readBlocking` its token. -/
theorem readBlocking_outOfRange :
    ∃ m, Reach (Machine.step (lineSetup [3] (by decide)))
        (fun _ a => a.onlyReads (lineSetup [3] (by decide)))
        (.connected (lineSetup [3] (by decide)) 8 [97, 10] [.readable 5] 1) m ∧
      m.completions = [⟨0, 3, false, .returned [97, 10]⟩, ⟨0, 3, true, .threw (.outOfRange
        "A read on condition 3 was performed, but there is no data present yet")⟩] :=
  ⟨_, .after _ [.start, .worker, .worker, .worker, .worker, .consumer 0 (.read 3), .consumer 0 .pop,
    .consumer 0 (.readBlocking 3 (-1)), .consumer 0 .pollReady, .consumer 0 .takeToken, .consumer 0 .pop],
    by decide +kernel⟩

/-! ## Failures -/

/-- After `stopReads` and the end of the worker: if calls are only made where there is a token to spare,
none is ever left waiting without a token exactly if now there is one for each call that waits; and a
call on an empty queue comes back with the request exactly if it has a timeout. -/
theorem stopReads_aborts_iff
    (hreach : Reach (Machine.step S) (fun _ a => a.onlyBlocking S)
      (.connected S size bytes answers consumers) m)
    (hstopped : m.stopped = true) (hended : m.worker = .ended .SOCKET_TERMINATION_REQUEST) :
    ((∀ m', Reach (Machine.step S) Machine.Spares m m' → ∀ fd, 0 < m'.waiting fd →
        0 < m'.stream.eventFds.counter fd) ↔
      ∀ fd, m.waiting fd ≤ m.stream.eventFds.counter fd) ∧
    ∀ fd, m.stream.queue fd = [] → ∀ timeoutMs pollFails errno,
      ((m.stream.readBlocking fd timeoutMs pollFails errno).1 =
          .threw (.socket (.ofType .SOCKET_TERMINATION_REQUEST)) ↔
        pollFails = false ∧ 0 ≤ timeoutMs) := by
  have htokens := Tokens.of_reach (fun _ _ h => h) hreach
  refine ⟨enoughTokens_iff hended (alive_of_reach (fun _ _ h => living_of_onlyBlocking h) hreach) htokens.opened,
    fun fd hempty => ?_⟩
  have hzero := htokens.counter_of_terminated (Recorded.of_reach hreach) hended hempty
  exact readBlocking_terminated_iff (terminationRequested_of_reach hreach (.inr hstopped)) hzero

theorem stopReads_aborts_iff_stoppedWhileWaiting :
    ((stoppedWhileWaiting.stream.readBlocking 3 1000 false 0).1 =
        .threw (.socket (.ofType .SOCKET_TERMINATION_REQUEST)) ↔
      false = false ∧ (0 : Int) ≤ 1000) :=
  (stopReads_aborts_iff (reach_lineAfter _ _ _ _) (by decide +kernel) (by decide +kernel)).2 3
    (by decide +kernel) 1000 false 0

/-- A call without a timeout is left at its `::poll`, and another one would wait as well. -/
theorem stopReads_leaves_waiting :
    Reach (Machine.step (lineSetup [3] (by decide))) (fun _ a => a.onlyBlocking (lineSetup [3] (by decide)))
      (.connected (lineSetup [3] (by decide)) 8 [] [] 1) stoppedWhileWaiting ∧
    stoppedWhileWaiting.stopped = true ∧
    stoppedWhileWaiting.worker = .ended .SOCKET_TERMINATION_REQUEST ∧
    stoppedWhileWaiting.consumers = [.polling 3 (-1)] ∧
    stoppedWhileWaiting.stream.eventFds.counter 3 = 0 ∧
    stoppedWhileWaiting.stream.queue 3 = [] ∧
    (stoppedWhileWaiting.stream.readBlocking 3 (-1) false 0).1 = .waiting :=
  ⟨reach_lineAfter _ _ _ _, by decide +kernel, by decide +kernel, by decide +kernel, by decide +kernel,
    by decide +kernel, by decide +kernel⟩

/-- Once the stop event is posted, a read of the worker throws the request and takes nothing from the
socket exactly if its `poll` has not failed and finds the socket unmarked. In a run of such reads nothing
is read any more, and the worker is never held up and takes a bounded number of steps. -/
theorem stop_ends_worker
    (hreach : Reach (Machine.step S) (fun _ _ => True) (.connected S size bytes answers consumers) m)
    (hposted : m.StopPosted) :
    (∀ m', m.worker = .reading → m.step S .worker = some m' →
      (m'.worker = .caught (.withErrno .SOCKET_TERMINATION_REQUEST 0) ∧
          m'.stream.stream.stream.socket = m.stream.stream.stream.socket ↔
        m.stream.stream.stream.unmarked = true)) ∧
    ∀ as m', run (Machine.step S) (fun m a => m.readsUnmarked a = true) m as = some m' →
      m'.stream.stream.stream.socket = m.stream.stream.stream.socket ∧
      as.count .worker ≤ m.worker.cost S ∧ m'.WorkerGoes S := by
  have hstop := stopEvent_pos_of_reach hreach hposted
  constructor
  · intro m' hreading hstep
    cases (move_of_step hstep).2 with
    | worker hw =>
        rw [hreading] at hw
        exact hw.terminated_iff hstop
  · intro as m' hrun
    have hstopping : Stopping m.stream.stream.stream.socket m := ⟨hstop, .of_reach hreach, rfl⟩
    obtain ⟨h, hcount⟩ := hstopping.run hrun
    exact ⟨h.socket, hcount, h.goes⟩

theorem stop_ends_worker_readsNothing :
    (lineAfter (fun _ _ => true) [97] [] [.start, .stopReads, .stopStream, .worker, .worker]).worker =
        .ended .SOCKET_TERMINATION_REQUEST ∧
      (lineAfter (fun _ _ => true) [97] [] [.start, .stopReads, .stopStream, .worker, .worker]).WorkerGoes
        (lineSetup [3] (by decide)) :=
  ⟨by decide +kernel, ((stop_ends_worker
    (m := lineAfter (fun _ _ => true) [97] [] [.start, .stopReads, .stopStream])
    ((reach_lineAfter _ _ _ _).mono fun _ _ _ => trivial) (.inl rfl)).2 [.worker, .worker] _ rfl).2.2⟩

/-- The peer goes on sending, and the worker goes on reading. -/
theorem stop_leaves_worker_reading :
    ∃ m m', Reach (Machine.step (lineSetup [3] (by decide))) (fun _ _ => True)
        (.connected (lineSetup [3] (by decide)) 8 [97, 98] [.readable 0, .readable 0] 0) m ∧
      m.stopped = true ∧ m.stream.stream.received = [] ∧
      Reach (Machine.step (lineSetup [3] (by decide))) (fun _ a => a = .worker) m m' ∧
      m'.stream.stream.received = [97, 98] :=
  ⟨_, _, .after _ [.start, .stopReads, .stopStream], rfl, by decide +kernel,
    .after _ [.worker, .worker, .worker, .worker, .worker], by decide +kernel⟩

/-! ## The end of the worker -/

/-- An exception leaves the thread function exactly if a condition has asked for more than was in the
buffer. A worker that has ended otherwise than by termination has recorded why and told every handler
once. -/
theorem worker_contained_iff (hwrite : ∀ n, S.eventfdWrite n = none)
    (hreach : Reach (Machine.step S) (fun _ a => a ≠ .destructor)
      (.connected S size bytes answers consumers) m) :
    (m.Escapes S ↔ ∃ e ∈ m.stream.evaluations, e.buffer.length < absSize e.value) ∧
    ∀ t, m.worker = .ended t → t ≠ .SOCKET_TERMINATION_REQUEST →
      m.stream.lastEx = t ∧ t ≠ .SOCKET_OK ∧ ∀ fd, S.Registered fd → m.stream.failureTokens fd = 1 := by
  refine ⟨(Asked.of_reach (fun _ _ h => h) hwrite hreach).escapes_iff (Covered.of_reach hreach)
    (Conserved.of_reach hreach).valid ⟨hwrite, closed_of_reach (fun _ _ h => h) hreach⟩,
    fun t hended ht => ?_⟩
  have hrec := Recorded.of_reach hreach
  rw [hended] at hrec
  have hfailed := hrec.of_ended ht
  exact ⟨hfailed.lastEx, hfailed.ne_ok, fun fd hfd => hfailed.token_of_registered hfd⟩

theorem worker_contained_iff_peerClosed :
    peerClosed.stream.lastEx = .SOCKET_CLOSED ∧ SocketExceptionType.SOCKET_CLOSED ≠ .SOCKET_OK ∧
      ∀ fd, (lineSetup [3] (by decide)).Registered fd → peerClosed.stream.failureTokens fd = 1 :=
  (worker_contained_iff (fun _ => rfl)
    ((reach_lineAfter _ _ _ _).mono fun _ _ h => living_of_onlyBlocking h)).2 .SOCKET_CLOSED
    (by decide +kernel) (by decide)

/-- A condition that asks for five bytes whatever there is. -/
def fiveBytes : Setup :=
  ⟨[⟨fun _ _ => 5, 3⟩], List.nodup_singleton _, fun _ => none⟩

/-- With one byte in the buffer, a `logic_error` leaves the thread function. -/
theorem worker_terminated_fiveBytes :
    ∃ m, Reach (Machine.step fiveBytes) (fun _ a => a ≠ .destructor)
        (.connected fiveBytes 8 [97] [.readable 0] 0) m ∧
      m.worker = .terminated tooMuchData :=
  ⟨_, .after _ [.start, .worker, .worker], by decide +kernel⟩

/-! ## Termination of the dispatch -/

/-- Whatever the conditions answer and whichever posts fail, a call of `processDataSendSignals` returns or
throws. Up to then it has popped no more segments, and no more bytes, than there were bytes in the buffer
when it was called. -/
theorem dispatch_terminates (data : List Byte) (frames : List Frame) {s : ConditionalBufferedStream}
    (hv : s.stream.Valid) :
    let start : WorkerAt × ConditionalBufferedStream := (.dispatching (.enter S data :: frames), s)
    ∃ n o w' s', workerSteps S n start = some (w', s') ∧ CallEnd frames o w' ∧
      ∀ k ≤ n, ∃ p rs, workerSteps S k start = some p ∧ p.2.removals = s.removals ++ rs ∧
        rs.length ≤ s.contents.length ∧
        (rs.map fun r => r.segment.length).sum ≤ s.contents.length := by
  intro start
  have hwithin := within_cons (.enter S data) (List.suffix_refl frames)
  obtain ⟨n, o, w', s', hsteps, hend, hprefix⟩ := exists_callEnd (S := S) hwithin hv
  refine ⟨n, o, w', s', hsteps, hend, fun k hk => ?_⟩
  obtain ⟨p, rs, hp, htakes⟩ := hprefix k hk
  exact ⟨p, rs, hp, htakes.ext.removals, htakes.length_le, htakes.sum_le⟩

/-- A condition that discards one byte, whatever there is. -/
def discardOne : Setup :=
  ⟨[⟨fun _ _ => -1, 3⟩], List.nodup_singleton _, fun _ => none⟩

theorem dispatch_terminates_discardOne :
    (holding discardOne [97, 98]).contents = [97, 98] ∧
      ∃ n o w' s', workerSteps discardOne n
          (.dispatching [.enter discardOne [97, 98]], holding discardOne [97, 98]) = some (w', s') ∧
        CallEnd [] o w' ∧
        ∀ k ≤ n, ∃ p rs, workerSteps discardOne k
            (.dispatching [.enter discardOne [97, 98]], holding discardOne [97, 98]) = some p ∧
          p.2.removals = [] ++ rs ∧ rs.length ≤ 2 ∧ (rs.map fun r => r.segment.length).sum ≤ 2 :=
  ⟨by decide, dispatch_terminates [97, 98] [] ⟨rfl, Nat.le_refl _⟩⟩

/-! ## Results of conditions -/

/-- The delimiter condition gives the place of the delimiter exactly as long as an `int` can hold it. A
result is refused or honoured as it should be exactly if it is not the minimum `int` for 2³¹ bytes of data
or more, and the buffer still has as many bytes as a result asks for that the data has. -/
theorem condition_results_iff (d : Byte) (x data : List Byte) (h : BufferEventHandler)
    (rest : List BufferEventHandler) (frames : List Frame) {s : ConditionalBufferedStream}
    (hv : s.stream.Valid) :
    (ReportsDelimiter d x ↔ (d ∈ x → x.idxOf d + 1 < 2 ^ 31)) ∧
    (HonoursResult S s h rest data frames ↔
      ((s.evaluate h data).1 = Int32.minValue → data.length < 2 ^ 31) ∧
      ((s.evaluate h data).1.toInt.natAbs ≤ data.length →
        (s.evaluate h data).1.toInt.natAbs ≤ s.contents.length)) :=
  ⟨reportsDelimiter_iff, honoursResult_iff hv⟩

theorem condition_results_iff_line :
    ReportsDelimiter 10 [97, 10] ∧
      HonoursResult (lineSetup [3] (by decide)) (holding (lineSetup [3] (by decide)) [97, 10])
        (delimiterHandler 10 3).toHandler [] [97, 10] [] := by
  have hiff := condition_results_iff (S := lineSetup [3] (by decide)) 10 [97, 10] [97, 10]
    (delimiterHandler 10 3).toHandler [] [] (s := holding (lineSetup [3] (by decide)) [97, 10])
    ⟨rfl, Nat.le_refl _⟩
  exact ⟨hiff.1.mpr (by decide), hiff.2.mpr (by decide)⟩

/-- A line of `n` letters. -/
def longLine (n : Nat) : List Byte := List.replicate n 97 ++ [10]

theorem notMem_letters (n : Nat) : (10 : Byte) ∉ List.replicate n 97 :=
  fun h => absurd (List.eq_of_mem_replicate h) (by decide)

theorem length_longLine (n : Nat) : (longLine n).length = n + 1 := by
  rw [longLine, List.length_append, List.length_replicate, List.length_singleton]

theorem getDelimiterCondition_longLine (n : Nat) :
    getDelimiterCondition 10 (longLine n) = Int32.ofInt (n + 1 : Nat) := by
  rw [longLine, getDelimiterCondition_append (notMem_letters n), List.length_replicate]
  rfl

theorem reportsDelimiter_longLine_iff (n : Nat) : ReportsDelimiter 10 (longLine n) ↔ n + 1 < 2 ^ 31 := by
  have hidx : (longLine n).idxOf 10 = n := by
    rw [longLine, List.idxOf_append_of_notMem (notMem_letters n), List.idxOf_cons_self,
      List.length_replicate, Nat.add_zero]
  rw [reportsDelimiter_iff, hidx]
  exact ⟨fun h => h (List.mem_append_right _ (List.mem_singleton_self _)), fun h _ => h⟩

/-- A line of 2³¹ bytes, the whole buffer: the condition gives the minimum `int`, which is refused. A line
of 2³² bytes: the condition gives 0. -/
theorem condition_results_narrowed :
    (longLine (2 ^ 31 - 1)).length = 2 ^ 31 ∧
      getDelimiterCondition 10 (longLine (2 ^ 31 - 1)) = Int32.minValue ∧
      ¬ ReportsDelimiter 10 (longLine (2 ^ 31 - 1)) ∧
      ¬ HonoursResult (lineSetup [3] (by decide))
        (holding (lineSetup [3] (by decide)) (longLine (2 ^ 31 - 1)))
        (delimiterHandler 10 3).toHandler [] (longLine (2 ^ 31 - 1)) [] ∧
      getDelimiterCondition 10 (longLine (2 ^ 32 - 1)) = 0 := by
  have hmin : ∀ n, n = 2 ^ 31 - 1 → getDelimiterCondition 10 (longLine n) = Int32.minValue := by
    rintro n rfl
    rw [getDelimiterCondition_longLine]
    decide
  have hrefused : ∀ n, n = 2 ^ 31 - 1 → ¬ HonoursResult (lineSetup [3] (by decide))
      (holding (lineSetup [3] (by decide)) (longLine n)) (delimiterHandler 10 3).toHandler []
      (longLine n) [] := by
    intro n hn hhonours
    have hlength := length_longLine n
    have hlt := (honoursResult_iff ⟨rfl, Nat.le_refl _⟩).mp hhonours |>.1 (hmin n hn)
    omega
  refine ⟨length_longLine _, hmin _ rfl, ?_, hrefused _ rfl, ?_⟩
  · rw [reportsDelimiter_longLine_iff]
    decide
  · rw [getDelimiterCondition_longLine]
    decide

/-! ## Destruction -/

/-- In an orderly run nothing is written to a closed descriptor, and no exception leaves the worker or
the destructor. -/
theorem destruction_safe
    (hreach : Reach (Machine.step S) (fun m a => m.orderly S a)
      (.connected S size bytes answers consumers) m) :
    m.stream.eventFds.staleWrites = [] ∧ (∀ e, m.worker ≠ .terminated e) ∧
      ∀ e, m.destructor ≠ .terminated e :=
  have h := Destructible.of_reach hreach
  ⟨h.safe.stale, h.safe.contained, h.contained⟩

/-- The stream is destroyed while a line that a consumer has not read is in the queue. -/
def destroyedInOrder : Machine :=
  lineAfter (fun m a => m.orderly (lineSetup [3] (by decide)) a) [97, 10] [.readable 5]
    [.start, .worker, .worker, .worker, .worker, .worker, .worker, .worker, .destructor, .destructor,
      .destructor, .worker, .worker, .destructor]

theorem destruction_safe_destroyedInOrder :
    destroyedInOrder.destructor = .destroyed ∧ destroyedInOrder.stream.eventFds.staleWrites = [] :=
  ⟨by decide +kernel, (destruction_safe (S := lineSetup [3] (by decide)) (m := destroyedInOrder)
    (reach_lineAfter _ _ _ _)).1⟩

/-- The destructor of a stream that was never started throws; and if it closes a descriptor between the
queueing of a segment and its post, the post goes to the closed descriptor. -/
theorem destruction_unsafe :
    (∃ m, Reach (Machine.step (lineSetup [3] (by decide))) (fun _ _ => True)
        (.connected (lineSetup [3] (by decide)) 8 [] [] 0) m ∧
      m.destructor = .terminated .systemError) ∧
    ∃ m, Reach (Machine.step (lineSetup [3] (by decide))) (fun _ _ => True)
        (.connected (lineSetup [3] (by decide)) 8 [97, 10] [.readable 5] 0) m ∧
      m.stream.eventFds.staleWrites = [3] :=
  ⟨⟨_, .after _ [.destructor, .destructor, .destructor, .destructor],
      by decide +kernel⟩,
    ⟨_, .after _ [.start, .worker, .worker, .worker, .destructor, .destructor, .worker],
      by decide +kernel⟩⟩

end SocketWrapper
