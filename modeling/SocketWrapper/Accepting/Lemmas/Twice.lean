import SocketWrapper.Accepting.Lemmas.Closing

/-!
# Two threads past the load of the flag

The one that was there first can go on until it has closed the socket, and then the other closes it again.
For that the handler has to end, and a call that it makes itself has to come back before.
-/

namespace SocketWrapper

open Transition

namespace Stops

variable {m m' : Stops} {t u n handler : Nat} {call : StopCall} {p q : StopAt}

theorem step_advance (hat : m.calls.At t n call) (hrunning : m.terminated = false) :
    m.step (.advance t) = m.advance t n call := by
  simp [step, hrunning, act, Calls.call?_eq_some.mpr hat]

theorem advance_posting (m : Stops) (t n : Nat) (d : Bool) :
    m.advance t n ⟨.posting, d⟩ = some ({ m with endEvent := m.endEvent + 65535 }.moveTo t n ⟨.posting, d⟩
      m.object.afterPosting) := by
  cases hobject : m.object <;> simp [advance, hobject, Stoppable.afterPosting]

/-! ## The end of the handler -/

/-- Nothing that matters to the other threads has changed. -/
structure Untouched (m m' : Stops) (handler : Nat) : Prop where
  object : m'.object = m.object
  joinable : m'.joinable = m.joinable
  flag : m'.stoppedAccepting = m.stoppedAccepting
  terminated : m'.terminated = m.terminated
  closes : m'.closes = m.closes
  joins : m'.joins = m.joins
  threads : ∀ v ≠ handler, m'.calls.threads[v]? = m.calls.threads[v]?
  posted : m.endEvent ≤ m'.endEvent

theorem Untouched.refl (m : Stops) (handler : Nat) : Untouched m m handler :=
  ⟨rfl, rfl, rfl, rfl, rfl, rfl, fun _ _ => rfl, Nat.le_refl _⟩

theorem Untouched.trans {m'' : Stops} (h : Untouched m m' handler) (h' : Untouched m' m'' handler) :
    Untouched m m'' handler where
  object := h'.object.trans h.object
  joinable := h'.joinable.trans h.joinable
  flag := h'.flag.trans h.flag
  terminated := h'.terminated.trans h.terminated
  closes := h'.closes.trans h.closes
  joins := h'.joins.trans h.joins
  threads v hv := (h'.threads v hv).trans (h.threads v hv)
  posted := Nat.le_trans h.posted h'.posted

/-- A state in which the handler is in no call any more. -/
def CanLeave (m : Stops) (handler : Nat) : Prop :=
  ∃ m', Reach step (fun _ _ => True) m m' ∧ Untouched m m' handler ∧ m'.calls.call? handler = none

theorem CanLeave.head {a : Action} (hstep : m.step a = some m') (h : Untouched m m' handler)
    (h' : CanLeave m' handler) : CanLeave m handler := by
  obtain ⟨last, hreach, hlast, hnone⟩ := h'
  exact ⟨last, .head trivial hstep hreach, h.trans hlast, hnone⟩

theorem untouched_moveTo : Untouched m (m.moveTo t n call p) t :=
  ⟨rfl, rfl, rfl, rfl, rfl, rfl, fun _ hv => List.getElem?_set_ne (Ne.symm hv), Nat.le_refl _⟩

theorem untouched_posted : Untouched m { m with endEvent := m.endEvent + 65535 } t :=
  ⟨rfl, rfl, rfl, rfl, rfl, rfl, fun _ _ => rfl, Nat.le_add_right ..⟩

theorem call?_leave : (m.calls.leave t).call? t = none := by
  cases hcall : (m.calls.leave t).call? t with
  | none => rfl
  | some c => exact absurd rfl (Calls.of_leave (Calls.call?_eq_some.mp hcall)).1

/-- In the handler `join()` throws. -/
theorem canLeave_of_entering (hhandler : m.handler? = some handler) (hrunning : m.terminated = false)
    (hat : m.calls.At handler n ⟨.entering, false⟩) : CanLeave m handler := by
  have hstep : m.step (.advance handler) = some (m.fail handler ⟨.entering, false⟩) := by
    rw [step_advance hat hrunning]
    simp [advance, hhandler]
  refine ⟨_, .single trivial hstep, ?_, call?_leave⟩
  exact ⟨rfl, rfl, rfl, by simp [fail], rfl, rfl, fun _ hv => List.getElem?_set_ne (Ne.symm hv),
    Nat.le_refl _⟩

theorem canLeave_of_asking (hhandler : m.handler? = some handler) (hrunning : m.terminated = false)
    (hjoinable : m.joinable = true) (hat : m.calls.At handler n ⟨.asking, false⟩) :
    CanLeave m handler := by
  have hstep : m.step (.advance handler) = some (m.moveTo handler n ⟨.asking, false⟩ .entering) := by
    rw [step_advance hat hrunning]
    simp [advance, hjoinable]
  exact .head hstep untouched_moveTo (canLeave_of_entering hhandler hrunning (hat.goOn_same n _))

theorem canLeave_of_posting (hhandler : m.handler? = some handler) (hrunning : m.terminated = false)
    (hjoinable : m.joinable = true) (hat : m.calls.At handler n ⟨.posting, false⟩) :
    CanLeave m handler := by
  have hstep : m.step (.advance handler) =
      some ({ m with endEvent := m.endEvent + 65535 }.moveTo handler n ⟨.posting, false⟩ .asking) := by
    rw [step_advance hat hrunning, advance_posting]
    cases hobject : m.object with
    | listener => simp [handler?, hobject] at hhandler
    | listenerBase => rfl
  refine .head hstep (untouched_posted.trans untouched_moveTo) ?_
  have hthere := hat.goOn_same n (⟨.asking, false⟩ : StopCall)
  exact canLeave_of_asking
    (m := { m with endEvent := m.endEvent + 65535 }.moveTo handler n ⟨.posting, false⟩ .asking)
    hhandler hrunning hjoinable hthere

theorem canLeave_of_loading (hhandler : m.handler? = some handler) (hrunning : m.terminated = false)
    (hjoinable : m.joinable = true) (hflag : m.stoppedAccepting = false)
    (hat : m.calls.At handler n ⟨.loading, false⟩) : CanLeave m handler := by
  have hstep : m.step (.advance handler) = some (m.moveTo handler n ⟨.loading, false⟩ .posting) := by
    rw [step_advance hat hrunning]
    simp [advance, hflag]
  exact .head hstep untouched_moveTo
    (canLeave_of_posting hhandler hrunning hjoinable (hat.goOn_same n _))

/-- Whatever call the handler is in, it can come back. -/
theorem Sound.canLeave (h : Sound m) (hhandler : m.handler? = some handler)
    (hrunning : m.terminated = false) (hflag : m.stoppedAccepting = false) : CanLeave m handler := by
  cases hcall : m.calls.call? handler with
  | none => exact ⟨m, .refl, .refl m handler, hcall⟩
  | some c =>
      obtain ⟨n, place, destructor⟩ := c
      have hat := Calls.call?_eq_some.mp hcall
      obtain ⟨hended, hbefore, hdestructor⟩ := h.handler hhandler hat
      have hjoinable := h.running hhandler hended
      simp only at hdestructor hbefore
      subst hdestructor
      cases place with
      | loading => exact canLeave_of_loading hhandler hrunning hjoinable hflag hat
      | posting => exact canLeave_of_posting hhandler hrunning hjoinable hat
      | asking => exact canLeave_of_asking hhandler hrunning hjoinable hat
      | entering => exact canLeave_of_entering hhandler hrunning hat
      | joining | closing | storing => exact hbefore.elim

/-- After a `::write` the handler can end, if there is one. -/
theorem Sound.reach_handlerEnded (h : Sound m) (hrunning : m.terminated = false)
    (hflag : m.stoppedAccepting = false) (hposted : 0 < m.endEvent) (hother : m.handler? = some handler) :
    ∃ m', Reach step (fun _ _ => True) m m' ∧ Untouched m m' handler ∧ m'.handlerEnded = true := by
  obtain ⟨m', hreach, hsame, hnone⟩ := h.canLeave hother hrunning hflag
  cases hended : m'.handlerEnded with
  | true => exact ⟨m', hreach, hsame, hended⟩
  | false =>
      have hhandler : m'.handler? = some handler := by
        simpa [handler?, hsame.object] using hother
      have hstep : m'.step .handlerEnds = some { m' with handlerEnded := true } := by
        simp [step, hsame.terminated, hrunning, act, hhandler, hnone, hended,
          Nat.lt_of_lt_of_le hposted hsame.posted]
      refine ⟨_, hreach.tail trivial hstep, ?_, rfl⟩
      exact hsame.trans ⟨rfl, rfl, rfl, rfl, rfl, rfl, fun _ _ => rfl, Nat.le_refl _⟩

/-! ## Two closes -/

/-- The thread `t` has posted, `u` is at `q`, and the handler has ended. -/
structure Ready (m : Stops) (t u : Nat) (q : StopAt) : Prop where
  posted : ∃ n d, m.calls.At t n ⟨m.object.afterPosting, d⟩
  inside : ∃ n d, m.calls.At u n ⟨q, d⟩
  different : u ≠ t
  other : m.handler? ≠ some u
  ended : ∀ handler, m.handler? = some handler → m.handlerEnded = true
  running : m.terminated = false
  sound : Sound m
  progress : m.Progress q

def CanCloseTwice (m : Stops) : Prop :=
  ∃ last, Reach step (fun _ _ => True) m last ∧ ¬ last.ClosedOnce

theorem CanCloseTwice.head {a : Action} (hstep : m.step a = some m') (h : CanCloseTwice m') :
    CanCloseTwice m := by
  obtain ⟨last, hreach, hlast⟩ := h
  exact ⟨last, .head trivial hstep hreach, hlast⟩

theorem Ready.goesOn (h : Ready m t u q) (m₁ : Stops)
    (hstep : ∀ n d, m.advance u n ⟨q, d⟩ = some (m₁.moveTo u n ⟨q, d⟩ p)) (hcalls : m₁.calls = m.calls)
    (hobject : m₁.object = m.object) (hended : m₁.handlerEnded = m.handlerEnded)
    (hterminated : m₁.terminated = m.terminated) (hprogress : m₁.Progress p)
    (hnext : ∀ m', Ready m' t u p → CanCloseTwice m') : CanCloseTwice m := by
  obtain ⟨n, d, hat⟩ := h.inside
  obtain ⟨n', d', hposted⟩ := h.posted
  have hadvance : m.step (.advance u) = some (m₁.moveTo u n ⟨q, d⟩ p) := by
    rw [step_advance hat h.running, hstep]
  have hhandler : (m₁.moveTo u n ⟨q, d⟩ p).handler? = m.handler? := by simp [handler?, moveTo, hobject]
  have hsound : Sound (m₁.moveTo u n ⟨q, d⟩ p) := h.sound.move (moves_of_step hadvance)
  refine .head hadvance (hnext _ ⟨⟨n', d', ?_⟩, ⟨n, d, ?_⟩, h.different, ?_, ?_, ?_, hsound, ?_⟩)
  · rw [moveTo, hcalls, hobject]
    exact hposted.goOn_other (Ne.symm h.different)
  · rw [moveTo, hcalls]
    exact hat.goOn_same n ⟨p, d⟩
  · rw [hhandler]
    exact h.other
  · intro handler heq
    exact hended.trans (h.ended handler (hhandler ▸ heq))
  · exact hterminated.trans h.running
  · exact ⟨hprogress.closes, hprogress.joins, hprogress.joinable, hprogress.joined⟩

theorem canCloseTwice_of_closing {d : Bool} (hat : m.calls.At t n ⟨.closing, d⟩)
    (hrunning : m.terminated = false) (hcloses : m.closes = 1) : CanCloseTwice m := by
  have hstep : m.step (.advance t) =
      some ({ m with closes := m.closes + 1 }.moveTo t n ⟨.closing, d⟩ .storing) :=
    step_advance hat hrunning
  refine ⟨_, .single trivial hstep, fun honce => ?_⟩
  have hle : m.closes + 1 ≤ 1 := honce.closes
  omega

theorem Ready.storing (h : Ready m t u .storing) : CanCloseTwice m := by
  obtain ⟨n, d, hat⟩ := h.posted
  have hcloses : m.closes = 1 := by simpa using h.progress.closes
  have hjoinable := h.progress.joined (.inr rfl)
  cases hobject : m.object with
  | listener =>
      rw [hobject] at hat
      exact canCloseTwice_of_closing hat h.running hcloses
  | listenerBase handler =>
      rw [hobject] at hat
      have hat : m.calls.At t n ⟨.asking, d⟩ := hat
      have hstep : m.step (.advance t) = some (m.moveTo t n ⟨.asking, d⟩ .closing) := by
        rw [step_advance hat h.running]
        simp [advance, hjoinable]
      exact .head hstep (canCloseTwice_of_closing (m := m.moveTo t n ⟨.asking, d⟩ .closing)
        (hat.goOn_same n ⟨.closing, d⟩) h.running hcloses)

theorem Ready.closing (h : Ready m t u .closing) : CanCloseTwice m :=
  h.goesOn { m with closes := m.closes + 1 } (fun _ _ => rfl) rfl rfl rfl rfl
    h.progress.closesSocket fun _ => Ready.storing

theorem Ready.joining (h : Ready m t u .joining) : CanCloseTwice m := by
  obtain ⟨handler, hhandler⟩ := h.sound.joinable (h.progress.joinable (.inr rfl))
  exact h.goesOn { m with joinable := false, joins := m.joins + 1 }
    (fun _ _ => by simp [advance, h.ended handler hhandler]) rfl rfl rfl rfl h.progress.joinsHandler
    fun _ => Ready.closing

theorem Ready.entering (h : Ready m t u .entering) : CanCloseTwice m :=
  h.goesOn m (fun _ _ => by simp [advance, h.progress.joinable (.inl rfl), h.other]) rfl rfl rfl rfl
    h.progress.enters fun _ => Ready.joining

theorem Ready.asking (h : Ready m t u .asking) : CanCloseTwice m :=
  h.goesOn m (fun _ _ => rfl) rfl rfl rfl rfl h.progress.asks fun m' h' => by
    cases hjoinable : m.joinable with
    | true => exact Ready.entering (by simpa [hjoinable] using h')
    | false => exact Ready.closing (by simpa [hjoinable] using h')

theorem Ready.posting (h : Ready m t u .posting) : CanCloseTwice m :=
  h.goesOn { m with endEvent := m.endEvent + 65535 }
    (fun n d => advance_posting m u n d) rfl rfl rfl rfl (h.progress.posts h.sound) fun m' h' => by
      cases hobject : m.object with
      | listener =>
          rw [hobject] at h'
          exact h'.closing
      | listenerBase =>
          rw [hobject] at h'
          exact h'.asking

theorem Ready.canCloseTwice (h : Ready m t u q) (hq : q ≠ .loading) : CanCloseTwice m := by
  cases q with
  | loading => exact absurd rfl hq
  | posting => exact h.posting
  | asking => exact h.asking
  | entering => exact h.entering
  | joining => exact h.joining
  | closing => exact h.closing
  | storing => exact h.storing

theorem terminated_of_step {a : Action} (h : m.step a = some m') : m.terminated = false := by
  cases hterminated : m.terminated with
  | false => rfl
  | true => simp [step, hterminated] at h

theorem canCloseTwice_of_posted (hs : Sound m) (hrunning : m.terminated = false)
    (hflag : m.stoppedAccepting = false) (hposted : 0 < m.endEvent) {d : Bool}
    (ht : m.calls.At t n ⟨m.object.afterPosting, d⟩) (hother : m.handler? ≠ some t)
    (hinside : m.InsideAt u q) (hne : u ≠ t) (hprogress : m.Progress q) : CanCloseTwice m := by
  obtain ⟨hu, hq, n', d', hat⟩ := hinside
  cases hhandler : m.handler? with
  | none =>
      have hready : Ready m t u q :=
        ⟨⟨n, d, ht⟩, ⟨n', d', hat⟩, hne, hu, (fun _ heq => by cases hhandler.symm.trans heq), hrunning, hs,
          hprogress⟩
      exact hready.canCloseTwice hq
  | some handler =>
      obtain ⟨m', hreach, hsame, hended⟩ := hs.reach_handlerEnded hrunning hflag hposted hhandler
      have hkept {v n : Nat} {c : StopCall} (hv : m.handler? ≠ some v) (hthere : m.calls.At v n c) :
          m'.calls.At v n c := by
        have hne : v ≠ handler := by
          rintro rfl
          exact hv hhandler
        exact (hsame.threads v hne).trans hthere
      have hsamehandler : m'.handler? = m.handler? := by simp [handler?, hsame.object]
      have hready : Ready m' t u q := by
        refine ⟨⟨n, d, hsame.object ▸ hkept hother ht⟩, ⟨n', d', hkept hu hat⟩, hne, hsamehandler ▸ hu,
          fun _ _ => hended, hsame.terminated.trans hrunning, hs.reach hreach, ?_⟩
        exact ⟨hsame.closes.trans hprogress.closes, hsame.joins ▸ hprogress.joins,
          fun hp => hsame.joinable.trans (hprogress.joinable hp),
          fun hp => hsame.joinable.trans (hprogress.joined hp)⟩
      obtain ⟨last, hreach', hlast⟩ := hready.canCloseTwice hq
      exact ⟨last, hreach.trans hreach', hlast⟩

/-- A thread finds the flag unset while another is inside. -/
theorem Phase.disturbed (h : Phase m) (hs : Sound m) {a : Action} (ha : ¬ m.Alone a)
    (hstep : m.step a = some m') : CanCloseTwice m' := by
  have hrunning := terminated_of_step hstep
  cases a with
  | call => exact absurd trivial ha
  | destroy => exact absurd trivial ha
  | handlerEnds => exact absurd trivial ha
  | advance t =>
      simp only [Alone, not_forall, not_not] at ha
      obtain ⟨hother, hflag, ⟨⟨n, ⟨place, d⟩⟩, hcall, hplace⟩, u, -, hinside⟩ := ha
      obtain rfl : place = .loading := hplace
      obtain ⟨q, hinside⟩ := inside_iff.mp hinside
      obtain ⟨-, -, hdone⟩ := h.of_insideAt hinside
      have hat := Calls.call?_eq_some.mp hcall
      have hne : u ≠ t := by
        rintro rfl
        exact not_insideAt_of_at hat rfl q hinside
      have hpasses : m.step (.advance t) = some (m.moveTo t n ⟨.loading, d⟩ .posting) := by
        rw [step_advance hat hrunning]
        simp [advance, hflag]
      obtain rfl := Option.some.inj (hpasses.symm.trans hstep)
      have hthere : (m.moveTo t n ⟨.loading, d⟩ .posting).calls.At t n ⟨.posting, d⟩ := hat.goOn_same n _
      have hposts := (step_advance hthere hrunning).trans (advance_posting _ t n d)
      have hsound := (hs.move (moves_of_step hstep)).move (moves_of_step hposts)
      have hkept : (m.moveTo t n ⟨.loading, d⟩ .posting).InsideAt u q := (insideAt_moveTo hne).mpr hinside
      refine .head hposts (canCloseTwice_of_posted hsound hrunning hflag (Nat.add_pos_right _ (by decide))
        (hthere.goOn_same n _) hother ((insideAt_moveTo hne).mpr hkept) hne ?_)
      exact ⟨hdone.closes, hdone.joins, hdone.joinable, hdone.joined⟩

end Stops

end SocketWrapper
