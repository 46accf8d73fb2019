import SocketWrapper.Stopping.Lemmas.Permanent

/-!
# A stop request is permanent

It is, unless an object is assigned to while a move constructor that moves from it is running.
-/

namespace SocketWrapper

open Transition Streams

/-- Once a call of `stopReads` for a stream has come back, whatever reads, stops and moves follow and
whichever object the stream is in, as long as no object is assigned to while a move constructor moves from
it: a `poll` on the stream comes back even if nothing happens on the socket, and however it comes back, the
read has got bytes, throws that the stream is closed or a socket error, or throws the request. -/
theorem stop_permanent {threads stream : Nat} {m m' : Streams}
    (hreach : Reach Streams.step KeepsApart (.init threads) m) (hstop : stream ∈ m.stopped)
    (hlater : Reach Streams.step KeepsApart m m') {thread number i : Nat} {o : StreamObject}
    {call : StreamRead} (hpoll : m'.calls.At thread number (.polling i o call)) (ho : o.number = stream) :
    (∃ m'', m'.step (.answer thread .quiet) = some m'') ∧
      ∀ a m'', m'.step (.answer thread a) = some m'' → BroughtOrThrew m' m'' thread number i call := by
  subst ho
  have hsound := Sound.of_reach (hreach.trans hlater)
  have hpos := hsound.counter_pos hpoll (stopped_of_reach hstop hlater)
  refine ⟨⟨_, (step_answer hpoll).trans (if_pos (.inl hpos))⟩, fun a m'' hstep => ?_⟩
  rw [step_answer hpoll] at hstep
  split at hstep
  · cases hstep
    exact broughtOrThrew_answered hpoll hpos a
  · cases hstep

/-- A read waits while the stream is stopped, and throws the request. -/
def stoppedOnce : Streams :=
  after Streams.step KeepsApart (.init 2)
    [.construct 3 4 [97], .read 0 0 2 1 (-1), .poll 0, .stopReads 1 0, .post 1, .answer 0 .quiet]

/-- The stream is then moved to another object, and read from there with a timeout. -/
def stoppedThenMoved : Streams :=
  after Streams.step KeepsApart stoppedOnce
    [.moveConstruct 1 0, .moveConstructed 1, .read 0 1 2 1 50, .poll 0]

theorem stop_permanent_moved :
    stoppedOnce.completions = [⟨0, [], .socketError .SOCKET_TERMINATION_REQUEST 0⟩] ∧
      (∃ m, stoppedThenMoved.step (.answer 0 .quiet) = some m) ∧
      ∀ a m, stoppedThenMoved.step (.answer 0 a) = some m →
        BroughtOrThrew stoppedThenMoved m 0 3 1 ⟨2, 1, 50, []⟩ :=
  have hstopped : 0 ∈ stoppedOnce.stopped := by decide
  have hpoll : stoppedThenMoved.calls.At 0 3 (.polling 1 ⟨⟨3, 4⟩, 0⟩ ⟨2, 1, 50, []⟩) := by decide
  ⟨by decide, stop_permanent (.after _ _) hstopped (.after _ _) hpoll rfl⟩

/-- Two streams, of which the first is stopped. -/
def stoppedOfTwo : Streams :=
  after Streams.step (fun _ _ => True) (.init 2)
    [.construct 3 4 [], .construct 5 6 [], .stopReads 0 0, .post 0]

/-- A move constructor has taken the socket of the first when the second is assigned to it. The new object
has the socket of the stopped stream, and the eventfd of the other. -/
def stoppedThenCrossed : Streams :=
  after Streams.step (fun _ _ => True) stoppedOfTwo
    [.moveConstruct 0 0, .moveAssign 1 0 1, .moveAssigned 1, .moveConstructed 0, .read 0 2 2 1 7, .poll 0]

/-- The read of the new object times out, although its stream has been stopped. -/
theorem stop_lost :
    Reach Streams.step (fun _ _ => True) (.init 2) stoppedOfTwo ∧ 0 ∈ stoppedOfTwo.stopped ∧
      Reach Streams.step (fun _ _ => True) stoppedOfTwo stoppedThenCrossed ∧
      stoppedThenCrossed.calls.At 0 3 (.polling 2 ⟨⟨3, 6⟩, 0⟩ ⟨2, 1, 7, []⟩) ∧
      ∃ m, stoppedThenCrossed.step (.answer 0 .quiet) = some m ∧
        m.completions = [⟨3, [], .socketError .SOCKET_READ_TIMEOUT 0⟩] ∧
        ¬ BroughtOrThrew stoppedThenCrossed m 0 3 2 ⟨2, 1, 7, []⟩ := by
  have hpoll : stoppedThenCrossed.calls.At 0 3 (.polling 2 ⟨⟨3, 6⟩, 0⟩ ⟨2, 1, 7, []⟩) := by decide
  have hdone : stoppedThenCrossed.completions = [] := by decide
  refine ⟨.after _ _, by decide, .after _ _, hpoll, _, (step_answer hpoll).trans (if_pos (by decide)),
    by decide, ?_⟩
  rintro (⟨bytes, -, hreading⟩ | ⟨outcome, hread, hcompletions⟩)
  · exact (Calls.of_leave hreading).1 rfl
  · rw [hdone] at hcompletions
    cases hread <;> cases hcompletions

end SocketWrapper
