import SocketWrapper.Connection.Lemmas.Progress
import SocketWrapper.Conditional.Theorems
import SocketWrapper.Conditional.Lemmas.Discard

/-!
# From one end of a connection to the other

Any number of threads write at each end, the kernel cuts and delays what they write as it likes, and any
number of consumers read.
-/

namespace SocketWrapper

open ConditionalBufferedStream Connection Transition

variable {S : Side → Setup} {c : Connection} {x : Side} {d : Byte} {fd : Fd}
  {allowed : Connection → Connection.Action → Prop} {size writers consumers : Side → Nat}

/-! ## A connection that is used -/

/-- Both ends have a handler for lines and eight bytes of buffer, a thread that writes and a consumer. -/
def lineEnds : Side → Setup := fun _ => lineSetup [3] nodup_three

/-- The state after a list of actions, if each of them is allowed and enabled where it is taken. -/
def connectionAfter (as : List Connection.Action) : Connection :=
  after (step lineEnds) (OrderlyFrom 10 8 .left) (start lineEnds (fun _ => 8) (fun _ => 1) (fun _ => 1)) as

theorem reach_connectionAfter (as : List Connection.Action) :
    Reach (step lineEnds) (OrderlyFrom 10 8 .left)
      (start lineEnds (fun _ => 8) (fun _ => 1) (fun _ => 1)) (connectionAfter as) := .after _ as

/-- The left end has written a line in two pieces, and the right end has read it and one of the consumers has
it. -/
def lineCrossed : List Connection.Action :=
  [.write .left 0 [97, 10], .other .right .start, .attempt .left 0 (.accepts 1), .poll .right (.readable 0),
    .other .right .worker, .other .right .worker, .other .right .worker, .attempt .left 0 (.accepts 1),
    .poll .right (.readable 0), .other .right .worker, .other .right .worker, .other .right .worker,
    .other .right .worker, .other .right .worker, .other .right .worker,
    .other .right (.consumer 0 (.readBlocking 3 (-1))), .other .right (.consumer 0 .pollReady),
    .other .right (.consumer 0 .takeToken), .other .right (.consumer 0 .pop)]

/-- The left end is destroyed, and the worker of the right end finds the end of the stream. -/
def leftGoes : List Connection.Action :=
  [.other .left .start, .other .left .destructor, .other .left .destructor, .other .left .destructor,
    .poll .left .quiet, .other .left .worker, .other .left .destructor, .poll .right (.readable 0),
    .other .right .worker, .other .right .worker, .other .right .worker]

def lineCrossedAndClosed : List Connection.Action := lineCrossed ++ leftGoes

/-- Both ends have a handler that captures what is between the markers. -/
def fancyEnds : Side → Setup := fun _ =>
  { handlers := [pureHandler fancyCondition 3], fdsNodup := nodup_three, eventfdWrite := fun _ => none }

/-- What the test `DiscardData` writes arrives in two parts, and then the left end goes. -/
def discardData : List Connection.Action :=
  [.write .left 0 [97, 98, 99, 10, 65, 121, 122, 120, 90, 98, 100, 102, 65, 65, 90, 10], .other .right .start,
    .attempt .left 0 (.accepts 16), .poll .right (.readable 5)] ++ List.replicate 3 (.other .right .worker) ++
    [.poll .right (.readable 9)] ++ List.replicate 19 (.other .right .worker) ++ leftGoes

def dataDiscarded : Connection :=
  after (step fancyEnds) (fun _ _ => True) (start fancyEnds (fun _ => 16) (fun _ => 1) (fun _ => 1)) discardData

/-! ## One end -/

/-- An end is where its own threads lead on a connection whose peer sends what the other end has written, in
whatever order the threads of the two ends take their steps. What holds of every run of the threads of one
stream therefore holds of an end. -/
theorem end_refines_machine {P : SocketWrapper.Action → Prop} (hworker : P .worker)
    (hP : ∀ c b, allowed c (.other x b) → P b)
    (h : Reach (step S) allowed (start S size writers consumers) c) :
    ∃ answers, Reach (Machine.step (S x)) (fun _ b => P b)
      (.connected (S x) (size x) (c.sent x.other) answers (consumers x)) (c.ends x).machine :=
  end_reach hworker hP h

theorem end_refines_machine_lineCrossed :
    ∃ answers, Reach (Machine.step (lineEnds .right)) (fun _ _ => True)
      (.connected (lineEnds .right) 8 ((connectionAfter lineCrossed).sent .left) answers 1)
      ((connectionAfter lineCrossed).ends .right).machine :=
  end_refines_machine (x := .right) (P := fun _ => True) trivial (fun _ _ _ => trivial)
    (reach_connectionAfter lineCrossed)

/-! ## Both ends -/

/-- What one end has written is, in order, the segments that the worker of the other has taken off its buffer,
what is in the buffer and what has not been read. What each handler has asked for has been returned or
waits for its consumers. -/
theorem no_byte_lost_between (h : Reach (step S) allowed (start S size writers consumers) c) (x : Side) :
    c.sent x.other = (c.removed x).flatten ++ (c.ends x).machine.stream.contents ++ c.unread x ∧
      ∀ fd, c.handed x fd = delivered fd (c.ends x).machine.stream.removals :=
  sent_eq h x

theorem no_byte_lost_between_lineCrossed :
    (connectionAfter lineCrossed).sent .left = [97, 10] ∧
      (connectionAfter lineCrossed).sent .left = ((connectionAfter lineCrossed).removed .right).flatten ++
        ((connectionAfter lineCrossed).ends .right).machine.stream.contents ++
        (connectionAfter lineCrossed).unread .right :=
  ⟨by decide +kernel, (no_byte_lost_between (reach_connectionAfter lineCrossed) .right).1⟩

/-- If the buffer of an end is not empty and shorter than 2^31 bytes, and the threads of the other end write
lines that fit into it, each in one piece, then the consumers of the end are given these lines, each once and in
the order in which the calls of `write` have returned. If the worker there has found the end of the stream, they
are given all of them, and the end that wrote them is gone. -/
theorem lines_cross_in_order (hS : (S x).handlers = [pureHandler (getDelimiterCondition d) fd])
    (hpos : 0 < size x) (hN : size x < 2 ^ 31)
    (h : Reach (step S) (OrderlyFrom d (size x) x.other) (start S size writers consumers) c) :
    c.handed x fd <+: c.accepted x.other ∧
      ((c.ends x).machine.worker.failure? = some .SOCKET_CLOSED →
        c.handed x fd = c.accepted x.other ∧ c.closed x.other = true) := by
  have hcuts := cutsOff_delimiter d hN
  rw [← lines_sent h]
  exact ⟨handed_first hS hcuts h, handed_of_found hS hcuts h (roomy_sent hpos hN h)⟩

theorem lines_cross_in_order_closed :
    (connectionAfter lineCrossedAndClosed).accepted .left = [[97, 10]] ∧
      (connectionAfter lineCrossedAndClosed).handed .right 3 =
        (connectionAfter lineCrossedAndClosed).accepted .left ∧
      (connectionAfter lineCrossedAndClosed).closed .left = true :=
  ⟨by decide +kernel, (@lines_cross_in_order lineEnds _ .right 10 3 (fun _ => 8) _ _ rfl (by decide)
    (by decide) (reach_connectionAfter lineCrossedAndClosed)).2 (by decide +kernel)⟩

/-- Whatever the other end writes, and however it arrives in a buffer shorter than 2^31 bytes, the consumers are
given the segments between the markers of `fancyCondition`, each once and in order. They are given all of them
if the buffer is not empty, the worker has found the end of the stream and each part of the input that fills
the buffer has an end marker. -/
theorem captured_in_order (hS : (S x).handlers = [pureHandler fancyCondition fd])
    (hN : size x < 2 ^ 31) (h : Reach (step S) allowed (start S size writers consumers) c) :
    c.handed x fd <+: captured (c.sent x.other) ∧
      (0 < size x → (∀ y, y <:+: c.sent x.other → y.length = size x → 90 ∈ y) →
        (c.ends x).machine.worker.failure? = some .SOCKET_CLOSED →
          c.handed x fd = captured (c.sent x.other) ∧ c.closed x.other = true) := by
  have hcuts := cutsOff_fancy hN
  refine ⟨handed_first hS hcuts h, fun hpos hmarked hfound => ?_⟩
  exact handed_of_found hS hcuts h (roomy_fancy hpos hN hmarked) hfound

theorem sent_dataDiscarded : dataDiscarded.sent .left =
    [97, 98, 99, 10, 65, 121, 122, 120, 90, 98, 100, 102, 65, 65, 90, 10] := by
  decide +kernel

theorem captured_in_order_dataDiscarded :
    captured (dataDiscarded.sent .left) = [[65, 121, 122, 120], [65, 65]] ∧
      dataDiscarded.handed .right 3 = captured (dataDiscarded.sent .left) ∧
      dataDiscarded.closed .left = true := by
  have h : Reach (step fancyEnds) (fun _ _ => True) (start fancyEnds (fun _ => 16) (fun _ => 1) (fun _ => 1))
      dataDiscarded := .after _ discardData
  refine ⟨by decide +kernel, (@captured_in_order fancyEnds _ .right 3 _ (fun _ => 16) _ _ rfl (by decide) h).2
    (by decide) (fun y hy hfull => ?_) (by decide +kernel)⟩
  have hsent : dataDiscarded.sent (Side.other .right) = _ := sent_dataDiscarded
  rw [hsent] at hy
  have hall := hy.eq_of_length hfull
  rw [hall]
  decide

/-! ## How far the workers get -/

/-- In every run, whatever the conditions of its handlers do, the worker of an end takes a bounded number of
steps for each byte that the other end has sent, and a few to report that the stream has ended. -/
theorem worker_steps_bounded {as : List Connection.Action}
    (h : run (step S) (fun _ _ => True) (start S size writers consumers) as = some c) (x : Side) :
    as.countP (Action.works x) ≤
      stepsPerByte (S x) (size x) * (c.sent x.other).length + ((S x).handlers.length + 4) :=
  Nat.le_of_add_left_le (work_le_of_run h x)

theorem run_lineCrossed :
    run (step lineEnds) (fun _ _ => True) (start lineEnds (fun _ => 8) (fun _ => 1) (fun _ => 1)) lineCrossed =
      some (after (step lineEnds) (fun _ _ => True)
        (start lineEnds (fun _ => 8) (fun _ => 1) (fun _ => 1)) lineCrossed) :=
  run_eq_some_after (by decide +kernel)

/-- The worker of the right end has taken 11 steps, and two bytes have been sent to it. -/
theorem worker_steps_bounded_lineCrossed :
    lineCrossed.countP (Action.works .right) = 11 ∧
      lineCrossed.countP (Action.works .right) ≤ stepsPerByte (lineEnds .right) 8 * 2 + 5 := by
  have hsent : (after (step lineEnds) (fun _ _ => True)
      (start lineEnds (fun _ => 8) (fun _ => 1) (fun _ => 1)) lineCrossed).sent (Side.other .right) =
      [97, 10] := by
    decide +kernel
  have h := worker_steps_bounded run_lineCrossed .right
  rw [hsent] at h
  exact ⟨by decide, h⟩

/-- An end whose worker can go no further has handed over every line that the other end has written, unless it
was not started, has failed or is gone. Its buffer is not empty and shorter than 2^31 bytes, and the threads of
the other end write lines that fit into it, each in one piece. -/
theorem all_handed_at_rest (hS : (S x).handlers = [pureHandler (getDelimiterCondition d) fd])
    (hpos : 0 < size x) (hN : size x < 2 ^ 31)
    (h : Reach (step S) (OrderlyFrom d (size x) x.other) (start S size writers consumers) c)
    (hopen : c.closed x = false) (hstarted : (c.ends x).machine.worker ≠ .notStarted)
    (hwell : ∀ t, (c.ends x).machine.worker.failure? = some t → t = .SOCKET_CLOSED)
    (hrest : c.Resting S x) : c.handed x fd = c.accepted x.other := by
  rw [← lines_sent h]
  exact handed_of_resting hS (cutsOff_delimiter d hN) h (roomy_sent hpos hN h) hopen hstarted hwell hrest

theorem worker_lineCrossed : ((connectionAfter lineCrossed).ends .right).machine.worker = .reading :=
  eq_reading (by decide +kernel)

theorem all_handed_at_rest_lineCrossed :
    (connectionAfter lineCrossed).handed .right 3 = (connectionAfter lineCrossed).accepted .left :=
  @all_handed_at_rest lineEnds _ .right 10 3 (fun _ => 8) _ _ rfl (by decide) (by decide)
    (reach_connectionAfter lineCrossed) (by decide +kernel) (by rw [worker_lineCrossed]; simp)
    (fun t ht => by rw [worker_lineCrossed] at ht; cases ht)
    (resting_of_reading worker_lineCrossed (by decide +kernel) (by decide +kernel))

end SocketWrapper
