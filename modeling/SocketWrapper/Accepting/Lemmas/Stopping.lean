import SocketWrapper.Accepting.Lemmas.Handing

/-!
# `stopAccepting` and the handler

The join lies between the signal and the `::close`. What the signal does depends on the mark of the
listening socket, at which the handler looks first.
-/

namespace SocketWrapper

open Transition

variable {m m' : ListenerBase} {allowed : ListenerBase → ListenerBase.Action → Prop} {n : Nat}
  {place : StopperAt}

/-! ## One stop -/

/-- The join of `stopAccepting` is ahead. -/
def StopperAt.beforeJoin : StopperAt → Bool
  | .closing => false
  | .storing => false
  | .returned => false
  | _ => true

namespace ListenerBase

/-- One thread calls `stopAccepting`, and the socket is open until the handler has ended. -/
structure Ordered (m : ListenerBase) (place : StopperAt) : Prop where
  only : m.stoppers = [place]
  before : place.beforeJoin = true →
    m.socketOpen = true ∧ m.joinable = true ∧ m.stoppedAccepting = false
  after : place.beforeJoin = false → m.handler = .ended
  fresh : m.staleUses = 0

theorem Ordered.started : Ordered (started 1) .notCalled :=
  ⟨rfl, fun _ => ⟨rfl, rfl, rfl⟩, nofun, rfl⟩

theorem Ordered.stopper {c : Nat} (h : Ordered m place) (hstep : stopperStep m c = some m') :
    ∃ place', Ordered m' place' := by
  simp only [stopperStep, h.only] at hstep
  cases c with
  | succ c => cases hstep
  | zero =>
      cases place with
      | notCalled =>
          cases hstep
          exact ⟨.checking, by simp [moveTo, h.only], h.before, nofun, h.fresh⟩
      | checking =>
          cases hstep
          obtain ⟨-, -, hflag⟩ := h.before rfl
          exact ⟨.posting, by simp [moveTo, h.only, hflag], h.before, nofun, h.fresh⟩
      | posting =>
          cases hstep
          exact ⟨.asking, by simp [moveTo], h.before, nofun, h.fresh⟩
      | asking =>
          cases hstep
          obtain ⟨-, hjoinable, -⟩ := h.before rfl
          exact ⟨.joining, by simp [moveTo, h.only, hjoinable], h.before, nofun, h.fresh⟩
      | joining =>
          simp only [List.getElem?_cons_zero] at hstep
          split at hstep
          · rename_i hended
            cases hstep
            exact ⟨.closing, by simp [moveTo], nofun, fun _ => hended, h.fresh⟩
          · cases hstep
      | closing =>
          cases hstep
          exact ⟨.storing, by simp [moveTo], nofun, h.after, h.fresh⟩
      | storing =>
          cases hstep
          exact ⟨.returned, by simp [moveTo], nofun, h.after, h.fresh⟩
      | returned => cases hstep

/-- What a step of the handler leaves alone, and that its uses of an open socket are not stale. -/
theorem HandlerMove.frame {a : HandlerAction} (h : HandlerMove m a m') :
    m.handler ≠ .ended ∧ m'.stoppers = m.stoppers ∧ m'.socketOpen = m.socketOpen ∧
      m'.joinable = m.joinable ∧ m'.stoppedAccepting = m.stoppedAccepting ∧ m'.endEvent = m.endEvent ∧
      (m.socketOpen = true → m'.staleUses = m.staleUses) := by
  have huse : m.socketOpen = true → m.useSocket.staleUses = m.staleUses := fun hopen => if_pos hopen
  cases h with
  | pollFails hat => exact ⟨by simp [hat], rfl, rfl, rfl, rfl, rfl, huse⟩
  | marked hat => exact ⟨by simp [hat], rfl, rfl, rfl, rfl, rfl, huse⟩
  | ends hat => exact ⟨by simp [hat], rfl, rfl, rfl, rfl, rfl, huse⟩
  | accepts hat => exact ⟨by simp [hat], rfl, rfl, rfl, rfl, rfl, huse⟩
  | acceptFails hat => exact ⟨by simp [hat], rfl, rfl, rfl, rfl, rfl, huse⟩
  | builds hat => exact ⟨by simp [hat], rfl, rfl, rfl, rfl, rfl, fun _ => rfl⟩
  | buildFails hat => exact ⟨by simp [hat], rfl, rfl, rfl, rfl, rfl, fun _ => rfl⟩
  | calls hat => exact ⟨by simp [hat], rfl, rfl, rfl, rfl, rfl, fun _ => rfl⟩
  | leaves hat => exact ⟨by simp [hat], rfl, rfl, rfl, rfl, rfl, fun _ => rfl⟩
  | throws hat => exact ⟨by simp [hat], rfl, rfl, rfl, rfl, rfl, fun _ => rfl⟩

/-- The handler moves only while the join is ahead, and so with an open socket. -/
theorem Ordered.handler {a : HandlerAction} (h : Ordered m place) (hmove : HandlerMove m a m') :
    Ordered m' place := by
  obtain ⟨hnotEnded, hstoppers, hsocket, hjoinable, hflag, -, hstale⟩ := hmove.frame
  cases hplace : place.beforeJoin with
  | false => exact absurd (h.after hplace) hnotEnded
  | true =>
      have hbefore := h.before hplace
      refine ⟨hstoppers.trans h.only, fun _ => ?_, by simp [hplace], (hstale hbefore.1).trans h.fresh⟩
      rw [hsocket, hjoinable, hflag]
      exact hbefore

theorem Ordered.of_reach (h : Reach ListenerBase.step allowed (ListenerBase.started 1) m) :
    ∃ place, Ordered m place := by
  refine h.invariant (P := fun m => ∃ place, Ordered m place) ⟨_, .started⟩ fun m a m' hm _ hstep => ?_
  obtain ⟨place, hordered⟩ := hm
  have hact := act_of_step hstep
  cases a with
  | arrive client =>
      cases hact
      exact ⟨place, hordered.only, hordered.before, hordered.after, hordered.fresh⟩
  | depart client =>
      cases hact
      exact ⟨place, hordered.only, hordered.before, hordered.after, hordered.fresh⟩
  | handler a => exact ⟨place, hordered.handler (handlerMove_of_step hact)⟩
  | stopper c => exact hordered.stopper hact

theorem passed_of_ended (h : Reach ListenerBase.step allowed m m') (hended : m.handler = .ended) :
    m'.handler = .ended ∧ m'.passed = m.passed := by
  refine h.invariant (P := fun m' => m'.handler = .ended ∧ m'.passed = m.passed) ⟨hended, rfl⟩
    fun m₁ a m₂ hm _ hstep => ?_
  have hact := act_of_step hstep
  cases a with
  | arrive client =>
      cases hact
      exact hm
  | depart client =>
      cases hact
      exact hm
  | handler a => exact absurd hm.1 (handlerMove_of_step hact).frame.1
  | stopper c =>
      obtain ⟨hhandler, -, -, hpassed, -⟩ := stopperStep_frame hact
      exact ⟨hhandler.trans hm.1, hpassed.trans hm.2⟩

end ListenerBase

/-! ## The signal -/

/-- The write to the end descriptor is done. -/
def StopperAt.posted : StopperAt → Bool
  | .notCalled => false
  | .checking => false
  | .posting => false
  | _ => true

namespace ListenerBase

/-- A call of `stopAccepting` has posted the termination event. -/
def StopPosted (m : ListenerBase) : Prop := ∃ place ∈ m.stoppers, place.posted = true

instance : Decidable m.StopPosted :=
  inferInstanceAs (Decidable (∃ place ∈ m.stoppers, place.posted = true))

/-- A call is past the write, or finds the flag set, only if the event has been posted. -/
structure Signalled (m : ListenerBase) : Prop where
  places : ∀ place ∈ m.stoppers, place.posted = true → 0 < m.endEvent
  flag : m.stoppedAccepting = true → 0 < m.endEvent

theorem Signalled.started : Signalled (started n) := by
  refine ⟨fun place hplace hposted => ?_, nofun⟩
  rw [List.eq_of_mem_replicate hplace] at hposted
  cases hposted

theorem Signalled.of_frame (h : Signalled m) (hstoppers : m'.stoppers = m.stoppers)
    (hflag : m'.stoppedAccepting = m.stoppedAccepting) (hevent : m.endEvent ≤ m'.endEvent) :
    Signalled m' := by
  refine ⟨fun place hplace hposted => ?_, fun hset => ?_⟩
  · rw [hstoppers] at hplace
    exact Nat.lt_of_lt_of_le (h.places place hplace hposted) hevent
  · rw [hflag] at hset
    exact Nat.lt_of_lt_of_le (h.flag hset) hevent

theorem Signalled.moveTo {c : Nat} (h : Signalled m) (hplace : place.posted = true → 0 < m.endEvent) :
    Signalled (m.moveTo c place) := by
  refine ⟨fun other hother hposted => ?_, h.flag⟩
  rcases List.mem_or_eq_of_mem_set hother with hmem | rfl
  · exact h.places other hmem hposted
  · exact hplace hposted

theorem Signalled.stopper {c : Nat} (h : Signalled m) (hstep : stopperStep m c = some m') :
    Signalled m' := by
  unfold stopperStep at hstep
  split at hstep
  · cases hstep
  · cases hstep
    exact h.moveTo nofun
  · cases hstep
    refine h.moveTo fun hposted => h.flag ?_
    cases hflag : m.stoppedAccepting with
    | true => rfl
    | false => simp [hflag, StopperAt.posted] at hposted
  · cases hstep
    have hmore : Signalled { m with endEvent := m.endEvent + 65535 } :=
      h.of_frame rfl rfl (Nat.le_add_right _ _)
    exact hmore.moveTo fun _ => Nat.add_pos_right _ (by decide)
  · rename_i hat
    cases hstep
    exact h.moveTo fun _ => h.places _ (List.mem_of_getElem? hat) rfl
  · rename_i hat
    split at hstep
    · cases hstep
      have hjoined : Signalled { m with joinable := false } := h.of_frame rfl rfl (Nat.le_refl _)
      exact hjoined.moveTo fun _ => h.places _ (List.mem_of_getElem? hat) rfl
    · cases hstep
  · rename_i hat
    cases hstep
    have hclosed : Signalled { m with socketOpen := false } := h.of_frame rfl rfl (Nat.le_refl _)
    exact hclosed.moveTo fun _ => h.places _ (List.mem_of_getElem? hat) rfl
  · rename_i hat
    cases hstep
    have hevent := h.places _ (List.mem_of_getElem? hat) rfl
    have hset : Signalled { m with stoppedAccepting := true } := ⟨h.places, fun _ => hevent⟩
    exact hset.moveTo fun _ => hevent
  · cases hstep

theorem endEvent_pos_of_reach (h : Reach ListenerBase.step allowed (ListenerBase.started n) m)
    (hposted : m.StopPosted) : 0 < m.endEvent := by
  have hsignalled : Signalled m := by
    refine h.invariant .started fun m a m' hm _ hstep => ?_
    have hact := act_of_step hstep
    cases a with
    | arrive client =>
        cases hact
        exact hm.of_frame rfl rfl (Nat.le_refl _)
    | depart client =>
        cases hact
        exact hm.of_frame rfl rfl (Nat.le_refl _)
    | handler a =>
        obtain ⟨-, hstoppers, -, -, hflag, hevent, -⟩ := (handlerMove_of_step hact).frame
        exact hm.of_frame hstoppers hflag (Nat.le_of_eq hevent.symm)
    | stopper c => exact hm.stopper hact
  obtain ⟨place, hplace, hpast⟩ := hposted
  exact hsignalled.places place hplace hpast

end ListenerBase

/-! ## The loop after the signal -/

/-- A bound for the steps until the handler polls again and leaves the loop. -/
def HandlerAt.cost : HandlerAt → Nat
  | .polling => 1
  | .accepting => 5
  | .building _ => 4
  | .calling _ => 3
  | .incoming _ => 2
  | .ended => 0
  | .terminated => 0

/-- The calls of `onIncomingStream` that the iteration may still make. -/
def HandlerAt.callsLeft : HandlerAt → Nat
  | .accepting => 1
  | .building _ => 1
  | .calling _ => 1
  | _ => 0

namespace ListenerBase

/-- A step other than a `::poll` that finds the listening socket marked. -/
def Action.findsUnmarked : Action → Bool
  | .handler (.pollMarks socket) => !socket
  | _ => true

/-- A step of the handler other than a `::poll` that fails. -/
def Action.advances : Action → Bool
  | .handler .pollFails => false
  | .handler _ => true
  | _ => false

/-- Every step but a `::poll` that fails or finds the socket marked leaves less to do. -/
theorem HandlerMove.cost_le {a : HandlerAction} (h : HandlerMove m a m')
    (ha : Action.findsUnmarked (.handler a) = true) :
    m'.handler.cost + (if Action.advances (.handler a) then 1 else 0) ≤ m.handler.cost ∧
      m'.passed.length + m'.handler.callsLeft ≤ m.passed.length + m.handler.callsLeft := by
  cases h with
  | pollFails hat => exact ⟨Nat.le_refl _, Nat.le_refl _⟩
  | marked hat => cases ha
  | ends hat =>
      rw [hat]
      exact ⟨Nat.le_refl _, Nat.le_refl _⟩
  | accepts hat =>
      rw [hat]
      exact ⟨Nat.le_refl _, Nat.le_refl _⟩
  | acceptFails hat =>
      rw [hat]
      exact ⟨by simp [HandlerAt.cost, Action.advances], Nat.le_succ _⟩
  | builds hat =>
      rw [hat]
      exact ⟨Nat.le_refl _, Nat.le_refl _⟩
  | buildFails hat =>
      rw [hat]
      exact ⟨by simp [HandlerAt.cost, Action.advances], Nat.le_succ _⟩
  | calls hat =>
      rw [hat]
      exact ⟨Nat.le_refl _, by simp [HandlerAt.callsLeft]⟩
  | leaves hat =>
      rw [hat]
      exact ⟨Nat.le_refl _, Nat.le_refl _⟩
  | throws hat =>
      rw [hat]
      exact ⟨by simp [HandlerAt.cost, Action.advances], Nat.le_refl _⟩

theorem cost_le_of_step {a : Action} (ha : a.findsUnmarked = true) (hstep : m.step a = some m') :
    m'.handler.cost + (if a.advances then 1 else 0) ≤ m.handler.cost ∧
      m'.passed.length + m'.handler.callsLeft ≤ m.passed.length + m.handler.callsLeft := by
  have hact := act_of_step hstep
  cases a with
  | arrive client =>
      cases hact
      exact ⟨Nat.le_refl _, Nat.le_refl _⟩
  | depart client =>
      cases hact
      exact ⟨Nat.le_refl _, Nat.le_refl _⟩
  | handler a => exact (handlerMove_of_step hact).cost_le ha
  | stopper c =>
      obtain ⟨hhandler, -, -, hpassed, -⟩ := stopperStep_frame hact
      rw [hhandler, hpassed]
      exact ⟨Nat.le_refl _, Nat.le_refl _⟩

/-- In a run in which no `::poll` finds the socket marked, the handler makes at most the call that its
iteration has begun, and takes a bounded number of steps. -/
theorem cost_run {as : List Action}
    (hrun : run ListenerBase.step (fun _ a => a.findsUnmarked = true) m as = some m') :
    m'.passed.length ≤ m.passed.length + m.handler.callsLeft ∧
      as.countP Action.advances ≤ m.handler.cost := by
  obtain ⟨hle, hcount⟩ := countP_add_le_of_run
    (fun m' => m'.passed.length + m'.handler.callsLeft ≤ m.passed.length + m.handler.callsLeft)
    (fun m => m.handler.cost) Action.advances hrun (Nat.le_refl _) fun m₁ a m₂ hm ha hstep =>
      ⟨Nat.le_trans (cost_le_of_step ha hstep).2 hm, (cost_le_of_step ha hstep).1⟩
  exact ⟨Nat.le_of_add_right_le hle, Nat.le_of_add_left_le hcount⟩

/-- After the signal a `::poll` can find the socket unmarked unless a client waits. -/
theorem exists_poll_iff (hevent : 0 < m.endEvent) (hat : m.handler = .polling) :
    (∃ m', m.step (.handler (.pollMarks false)) = some m') ↔ m.socketOpen = false ∨ m.clients = [] := by
  simp [step, act, handlerStep, hat, mayMark, hevent]

/-- What the handler finds to do, over and over, while clients come. -/
theorem exists_call (hat : m.handler = .polling) :
    ∃ m', Reach ListenerBase.step (fun _ _ => True) m m' ∧ m'.handler = .polling ∧
      m'.passed.length = m.passed.length + 1 := by
  obtain ⟨client, clients, hclients⟩ : ∃ client clients, m.clients ++ [0] = client :: clients :=
    List.exists_cons_of_ne_nil (List.append_ne_nil_of_right_ne_nil _ (by simp))
  have hrun : ∃ m', run ListenerBase.step (fun _ _ => True) m [.arrive 0, .handler (.pollMarks true),
      .handler (.accept 5), .handler .build, .handler .callOnIncomingStream, .handler .leave] = some m' ∧
      m'.handler = .polling ∧ m'.passed.length = m.passed.length + 1 := by
    simp [run, step, act, handlerStep, hat, mayMark, hclients, useSocket]
  obtain ⟨m', hrun, hpolling, hpassed⟩ := hrun
  exact ⟨m', .of_run hrun, hpolling, hpassed⟩

theorem exists_calls (hat : m.handler = .polling) (k : Nat) :
    ∃ m', Reach ListenerBase.step (fun _ _ => True) m m' ∧ m'.handler = .polling ∧
      m'.passed.length = m.passed.length + k := by
  induction k with
  | zero => exact ⟨m, .refl, hat, rfl⟩
  | succ k ih =>
      obtain ⟨m₁, hreach₁, hat₁, hpassed₁⟩ := ih
      obtain ⟨m₂, hreach₂, hat₂, hpassed₂⟩ := exists_call hat₁
      exact ⟨m₂, hreach₁.trans hreach₂, hat₂, by omega⟩

end ListenerBase

end SocketWrapper
