import SocketWrapper.Accepting.Lemmas.Stopping
import SocketWrapper.Accepting.Lemmas.Twice

/-!
# The accept loop

What becomes of the connections, and what a stop does to the loop, in every order of the steps.
-/

namespace SocketWrapper

open ListenerBase Transition

variable {n : Nat} {m : ListenerBase}

/-- The state after a list of actions, with one thread that calls `stopAccepting`. -/
def acceptAfter (as : List ListenerBase.Action) : ListenerBase :=
  after ListenerBase.step (fun _ _ => True) (started 1) as

theorem reach_acceptAfter (as : List ListenerBase.Action) :
    Reach ListenerBase.step (fun _ _ => True) (started 1) (acceptAfter as) :=
  .after _ as

/-! ## Connections -/

/-- What `::accept` has returned went to the construction of a `Stream`, and what was built to a call of
`onIncomingStream`, each once and in order. After the one `stopAccepting` has returned, no call runs or
starts. The listening socket is not used after its `::close`. -/
theorem connections_passed_once
    (hreach : Reach ListenerBase.step (fun _ _ => True) (started 1) m) :
    (m.accepted = m.builds.map Prod.fst ++ m.handler.toBuild ∧ m.built = m.passed ++ m.handler.toPass) ∧
    (m.stoppers = [.returned] → ∀ m', Reach ListenerBase.step (fun _ _ => True) m m' →
      m'.handler = .ended ∧ m'.passed = m.passed) ∧
    m.staleUses = 0 := by
  have hhanded := Handed.of_reach hreach
  obtain ⟨place, hordered⟩ := Ordered.of_reach hreach
  refine ⟨⟨hhanded.accepted, hhanded.built⟩, fun hreturned m' hreach' => ?_, hordered.fresh⟩
  have hplace : place = .returned := by
    rw [hordered.only] at hreturned
    exact List.singleton_inj.mp hreturned
  exact passed_of_ended hreach' (hordered.after (by rw [hplace]; rfl))

/-- Of two clients the second gets no `Stream`, and the stop comes with the first in the callback. -/
def stoppedInCallback : ListenerBase :=
  acceptAfter [.arrive 1, .arrive 2, .handler (.pollMarks true), .handler (.accept 5), .handler .build,
    .handler .callOnIncomingStream, .stopper 0, .stopper 0, .stopper 0, .handler .leave,
    .handler (.pollMarks true), .handler (.accept 6), .handler .buildFails, .handler (.pollMarks false),
    .stopper 0, .stopper 0, .stopper 0, .stopper 0]

theorem connections_passed_once_stoppedInCallback :
    stoppedInCallback.stoppers = [.returned] ∧ stoppedInCallback.accepted = [5, 6] ∧
      stoppedInCallback.passed = [5] ∧ stoppedInCallback.handler = .ended :=
  ⟨by decide +kernel, by decide +kernel, by decide +kernel,
    ((connections_passed_once (reach_acceptAfter _)).2.1 (by decide +kernel) _ .refl).1⟩

/-! ## The stop -/

/-- After the signal, an iteration whose `::poll` succeeds leaves the loop exactly if it finds the
listening socket unmarked, which it can unless a client waits. In a run in which no `::poll` finds it
marked, the handler makes at most the call that its iteration has begun, and takes a bounded number of
steps. -/
theorem stop_ends_loop
    (hreach : Reach ListenerBase.step (fun _ _ => True) (started n) m) (hposted : m.StopPosted) :
    (m.handler = .polling →
      (∀ socket m', m.step (.handler (.pollMarks socket)) = some m' →
        (m'.handler = .ended ↔ socket = false)) ∧
      ((∃ m', m.step (.handler (.pollMarks false)) = some m') ↔
        m.socketOpen = false ∨ m.clients = [])) ∧
    ∀ as m', run ListenerBase.step (fun _ a => a.findsUnmarked = true) m as = some m' →
      m'.passed.length ≤ m.passed.length + m.handler.callsLeft ∧
      as.countP Action.advances ≤ m.handler.cost := by
  have hevent := endEvent_pos_of_reach hreach hposted
  refine ⟨fun hat => ⟨fun socket m' hstep => ?_, exists_poll_iff hevent hat⟩, fun as m' => cost_run⟩
  cases handlerMove_of_step (act_of_step hstep) with
  | marked => simp
  | ends => simp

/-- The termination event is posted while nothing else happens. -/
def signalled : ListenerBase := acceptAfter [.stopper 0, .stopper 0, .stopper 0]

theorem stop_ends_loop_signalled :
    signalled.handler = .polling ∧
      ((∃ m', signalled.step (.handler (.pollMarks false)) = some m') ↔
        signalled.socketOpen = false ∨ signalled.clients = []) :=
  ⟨by decide +kernel, ((stop_ends_loop (reach_acceptAfter [.stopper 0, .stopper 0, .stopper 0])
    (by decide +kernel)).1 (by decide +kernel)).2⟩

/-- A client that connects after the signal is accepted and passed on, one that cannot be accepted keeps
the handler in the loop, and so it goes on without a bound. -/
theorem stop_leaves_loop_running :
    Reach ListenerBase.step (fun _ _ => True) (started 1) signalled ∧ signalled.StopPosted ∧
    signalled.handler = .polling ∧ signalled.passed = [] ∧
    (after ListenerBase.step (fun _ _ => True) signalled [.arrive 1, .handler (.pollMarks true),
      .handler (.accept 5), .handler .build, .handler .callOnIncomingStream]).passed = [5] ∧
    (after ListenerBase.step (fun _ _ => True) signalled [.arrive 1, .handler (.pollMarks true),
      .handler .acceptFails]).handler = .polling ∧
    ∀ k, ∃ m', Reach ListenerBase.step (fun _ _ => True) signalled m' ∧ m'.handler = .polling ∧
      m'.passed.length = k := by
  refine ⟨reach_acceptAfter _, by decide +kernel, by decide +kernel, by decide +kernel, by decide +kernel,
    by decide +kernel, fun k => ?_⟩
  obtain ⟨m', hreach, hat, hpassed⟩ := exists_calls (m := signalled) (by decide +kernel) k
  exact ⟨m', hreach, hat, hpassed.trans (Nat.zero_add k)⟩

/-! ## Several threads that stop -/

/-- Until the destructor has ended the listening socket is closed at most once, and then it has been; the
handler thread is joined at most once. This is so if a thread only finds the flag unset while no other has
found it unset and not set it yet. The first step that is not so leads to a second close. -/
theorem socket_closed_once (object : Stoppable) (threads : Nat) :
    (∀ m, Reach Stops.step (fun m a => m.Alone a) (.start object threads) m → m.ClosedOnce) ∧
    ∀ m a m', Reach Stops.step (fun m a => m.Alone a) (.start object threads) m → m.step a = some m' →
      ¬ m.Alone a → ∃ last, Reach Stops.step (fun _ _ => True) m' last ∧ ¬ last.ClosedOnce := by
  constructor
  · intro m hreach
    exact (Stops.Phase.of_reach hreach).closedOnce (.of_reach hreach)
  · intro m a m' hreach hstep ha
    exact (Stops.Phase.of_reach hreach).disturbed (.of_reach hreach) ha hstep

/-- Two threads stop a `ListenerBase`, whose handler is thread 2, one after the other, and then the
destructor runs. -/
def stoppedInTurn : Stops :=
  after Stops.step (fun m a => m.Alone a) (.start (.listenerBase (some 2)) 3)
    [.call 0, .call 1, .advance 0, .advance 0, .advance 0, .advance 0, .handlerEnds, .advance 0, .advance 0,
      .advance 0, .advance 1, .destroy 0, .advance 0]

theorem socket_closed_once_inTurn :
    stoppedInTurn.destroyed = true ∧ stoppedInTurn.joins = 1 ∧ stoppedInTurn.ClosedOnce :=
  ⟨by decide, by decide, (socket_closed_once (.listenerBase (some 2)) 3).1 _ (.after _ _)⟩

/-- Two threads stop a `Listener`, and both load the flag before one of them stores it. -/
theorem socket_closed_twice :
    ∃ m, Reach Stops.step (fun _ _ => True) (.start .listener 2) m ∧ m.destroyed = true ∧ m.closes = 2 ∧
      ¬ m.ClosedOnce := by
  refine ⟨_, .after _ [.call 0, .call 1, .advance 0, .advance 1, .advance 0, .advance 0, .advance 0,
    .advance 1, .advance 1, .advance 1, .destroy 0, .advance 0], by decide, by decide, fun h => ?_⟩
  exact absurd h.closes (by decide)

end SocketWrapper
