import SocketWrapper.Concurrent.Lemmas.Tokens

/-!
# Calls that nobody wakes

Once the worker has ended, no token comes any more: of the calls that wait for a handler, as many come
back as its eventfd has tokens left.
-/

namespace SocketWrapper

open ConditionalBufferedStream Machine

variable {S : Setup} {m m' : Machine} {fd : Fd}
  {allowed : Machine → Action → Prop} {size : Nat} {bytes : List Byte} {answers : List Answer} {consumers : Nat}

/-! ## Calls that wait -/

/-- The call is at the `::poll` or the `::read` of the eventfd `fd`. -/
def ConsumerAt.waitsOn : ConsumerAt → Fd → Bool
  | .polling fd' _, fd => fd' = fd
  | .taking fd', fd => fd' = fd
  | _, _ => false

/-- The number of calls that wait on `fd`. -/
def Machine.waiting (m : Machine) (fd : Fd) : Nat := m.consumers.countP (fun p => p.waitsOn fd)

/-- A step that begins no call, or one on an eventfd that has a token to spare. -/
def Machine.Spares (m : Machine) : Action → Prop
  | .consumer _ (.readBlocking fd _) => m.waiting fd < m.stream.eventFds.counter fd
  | .consumer _ (.read _) => False
  | .destructor => False
  | _ => True

theorem waiting_moveTo {c : Nat} {x : ConsumerAt} (hc : m.consumers[c]? = some x) (place : ConsumerAt)
    (fd : Fd) : (m.moveTo c place).waiting fd + (if x.waitsOn fd then 1 else 0) =
      m.waiting fd + (if place.waitsOn fd then 1 else 0) :=
  countP_set_add hc

theorem exists_waiting (h : 0 < m.waiting fd) :
    ∃ (c : Nat) (x : ConsumerAt), m.consumers[c]? = some x ∧ x.waitsOn fd = true := by
  obtain ⟨x, hx, hwaits⟩ := List.countP_pos_iff.mp h
  obtain ⟨c, hc⟩ := List.mem_iff_getElem?.mp hx
  exact ⟨c, x, hc, hwaits⟩

theorem waiting_takes {c : Nat} (hc : m.consumers[c]? = some (.taking fd)) (fd' : Fd) :
    ({ m with stream := m.stream.takeToken fd }.moveTo c (.popping fd true)).waiting fd' +
      (if fd = fd' then 1 else 0) = m.waiting fd' := by
  have hmoved := waiting_moveTo (m := { m with stream := m.stream.takeToken fd }) hc
    (.popping fd true) fd'
  simp only [ConsumerAt.waitsOn, decide_eq_true_eq, Bool.false_eq_true, ↓reduceIte] at hmoved
  exact hmoved

/-! ## No more calls than tokens -/

/-- There is a token for every call that waits. -/
def EnoughTokens (m : Machine) : Prop := ∀ fd, m.waiting fd ≤ m.stream.eventFds.counter fd

/-- A call goes to another place without a token, and does not begin to wait. -/
theorem EnoughTokens.moveTo (h : EnoughTokens m) {c : Nat} {x place : ConsumerAt}
    (hc : m.consumers[c]? = some x)
    (hplace : ∀ fd, place.waitsOn fd = true → x.waitsOn fd = true) :
    EnoughTokens (m.moveTo c place) := by
  intro fd
  have hmoved := waiting_moveTo hc place fd
  have hle := h fd
  rw [stream_moveTo]
  by_cases hwaits : place.waitsOn fd = true
  · rw [if_pos hwaits, if_pos (hplace fd hwaits)] at hmoved
    omega
  · rw [if_neg hwaits] at hmoved
    omega

theorem EnoughTokens.calls (h : EnoughTokens m) {c : Nat} {timeoutMs : Int}
    (hc : m.consumers[c]? = some .idle) (hspares : m.waiting fd < m.stream.eventFds.counter fd) :
    EnoughTokens (m.moveTo c (.polling fd timeoutMs)) := by
  intro fd'
  have hmoved := waiting_moveTo hc (.polling fd timeoutMs) fd'
  have hle := h fd'
  simp only [ConsumerAt.waitsOn, decide_eq_true_eq, Bool.false_eq_true, ↓reduceIte, Nat.add_zero]
    at hmoved
  rw [stream_moveTo, hmoved]
  by_cases hfd : fd = fd'
  · subst hfd
    rw [if_pos rfl]
    exact hspares
  · rw [if_neg hfd]
    exact hle

theorem EnoughTokens.takes (h : EnoughTokens m) {c : Nat} (hc : m.consumers[c]? = some (.taking fd)) :
    EnoughTokens ({ m with stream := m.stream.takeToken fd }.moveTo c (.popping fd true)) := by
  intro fd'
  have hmoved := waiting_takes hc fd'
  have hle := h fd'
  rw [stream_moveTo, counter_takeToken]
  omega

theorem eventFds_read (s : ConditionalBufferedStream) (fd : Fd) :
    (s.read fd).2.eventFds = s.eventFds := by
  obtain ⟨q, hq⟩ := snd_read s fd
  rw [hq]

theorem EnoughTokens.consumer {c : Nat} {a : ConsumerAction} (h : EnoughTokens m)
    (ha : m.Spares (.consumer c a)) (hmove : ConsumerMove m c a m') : EnoughTokens m' := by
  have hidle : ∀ {x}, m.consumers[c]? = some x → EnoughTokens (m.moveTo c .idle) :=
    fun hc => h.moveTo hc (fun _ h => by cases h)
  cases hmove with
  | calls hc => exact h.calls hc ha
  | callsRead => exact ha.elim
  | ready hc => exact h.moveTo hc (fun _ h => h)
  | expires hc => exact h.moveTo hc (fun _ h => by cases h)
  | fails hc => exact hidle hc
  | throws hc => exact hidle hc
  | takesNothing hc => exact h.moveTo hc (fun _ h => by cases h)
  | takes hc => exact h.takes hc
  | @pops fd token hc =>
      intro fd'
      have hle := hidle hc fd'
      simp only [stream_complete, eventFds_read]
      exact hle

theorem EnoughTokens.move {a : Action} {t : SocketExceptionType} (h : EnoughTokens m)
    (hended : m.worker = .ended t) (ha : m.Spares a) (hmove : Move S m a m') :
    EnoughTokens m' ∧ m'.worker = .ended t := by
  cases hmove with
  | start hw =>
      rw [hw] at hended
      cases hended
  | worker hw =>
      rw [hended] at hw
      cases hw
  | consumer hc =>
      refine ⟨h.consumer ha hc, ?_⟩
      obtain ⟨q, k, cs, done, rfl⟩ := hc.frame
      exact hended
  | stopReads => exact ⟨h, hended⟩
  | stopStream => exact ⟨h, hended⟩
  | _ => exact ha.elim

theorem EnoughTokens.of_reach {t : SocketExceptionType} (h : EnoughTokens m)
    (hended : m.worker = .ended t)
    (hreach : Transition.Reach (Machine.step S) Machine.Spares m m') : EnoughTokens m' := by
  have hall := hreach.invariant (P := fun m => EnoughTokens m ∧ m.worker = .ended t) ⟨h, hended⟩
    fun _ _ _ hm ha hstep => hm.1.move hm.2 ha (move_of_step hstep).2
  exact hall.1

/-! ## More calls than tokens -/

/-- The worker has ended, the object is alive, and `fd` has not been closed. -/
structure Quiet (m : Machine) (fd : Fd) : Prop where
  ended : ∃ t, m.worker = .ended t
  alive : m.destructor = .alive
  opened : fd ∉ m.stream.eventFds.closed

theorem Quiet.step_eq (h : Quiet m fd) (a : Action) : m.step S a = m.act S a := by
  obtain ⟨t, hended⟩ := h.ended
  simp [Machine.step, halted, hended, h.alive]

theorem Quiet.exists_taken (h : Quiet m fd) (hpos : 0 < m.stream.eventFds.counter fd) {c : Nat}
    (hc : m.consumers[c]? = some (.taking fd)) :
    ∃ m', Transition.Reach (Machine.step S) Machine.Spares m m' ∧ Quiet m' fd ∧
      m'.stream.eventFds.counter fd + 1 = m.stream.eventFds.counter fd ∧
      m'.waiting fd + 1 = m.waiting fd := by
  refine ⟨{ m with stream := m.stream.takeToken fd }.moveTo c (.popping fd true),
    .single (a := .consumer c .takeToken) trivial ?_, ⟨h.ended, h.alive, h.opened⟩, ?_, ?_⟩
  · rw [h.step_eq]
    simp [Machine.act, consumerStep, hc, h.opened, hpos]
  · rw [stream_moveTo, counter_takeToken]
    simp only [↓reduceIte]
    omega
  · simpa using waiting_takes hc fd

theorem Quiet.exists_less (h : Quiet m fd) (hpos : 0 < m.stream.eventFds.counter fd)
    (hwaiting : 0 < m.waiting fd) :
    ∃ m', Transition.Reach (Machine.step S) Machine.Spares m m' ∧ Quiet m' fd ∧
      m'.stream.eventFds.counter fd + 1 = m.stream.eventFds.counter fd ∧
      m'.waiting fd + 1 = m.waiting fd := by
  obtain ⟨c, x, hc, hwaits⟩ := exists_waiting hwaiting
  cases x with
  | polling fd' timeoutMs =>
      obtain rfl : fd' = fd := by simpa [ConsumerAt.waitsOn] using hwaits
      have hready : m.step S (.consumer c .pollReady) = some (m.moveTo c (.taking fd')) := by
        rw [h.step_eq]
        simp [Machine.act, consumerStep, hc, h.opened, hpos]
      have hsame : (m.moveTo c (.taking fd')).waiting fd' = m.waiting fd' := by
        simpa [ConsumerAt.waitsOn] using waiting_moveTo hc (.taking fd') fd'
      have hat : (m.moveTo c (.taking fd')).consumers[c]? = some (.taking fd') := by
        obtain ⟨hlt, -⟩ := List.getElem?_eq_some_iff.mp hc
        simp [hlt]
      have hquiet : Quiet (m.moveTo c (.taking fd')) fd' := ⟨h.ended, h.alive, h.opened⟩
      obtain ⟨m', hreach, hquiet', hcounter, hless⟩ := hquiet.exists_taken (S := S) hpos hat
      exact ⟨m', .head (a := .consumer c .pollReady) trivial hready hreach, hquiet', hcounter,
        hsame ▸ hless⟩
  | taking fd' =>
      obtain rfl : fd' = fd := by simpa [ConsumerAt.waitsOn] using hwaits
      exact h.exists_taken hpos hc
  | _ => cases hwaits

theorem Quiet.exists_left (h : Quiet m fd) (hlt : m.stream.eventFds.counter fd < m.waiting fd) :
    ∃ m', Transition.Reach (Machine.step S) Machine.Spares m m' ∧ 0 < m'.waiting fd ∧
      m'.stream.eventFds.counter fd = 0 := by
  generalize hk : m.stream.eventFds.counter fd = k at hlt
  induction k generalizing m with
  | zero => exact ⟨m, .refl, hlt, hk⟩
  | succ k ih =>
      obtain ⟨m₁, hreach, hquiet, hcounter, hless⟩ :=
        h.exists_less (S := S) (by omega) (by omega)
      obtain ⟨m', hreach', hleft⟩ := ih hquiet (by omega) (by omega)
      exact ⟨m', hreach.trans hreach', hleft⟩

theorem enoughTokens_iff {t : SocketExceptionType} (hended : m.worker = .ended t)
    (halive : m.destructor = .alive) (hopened : m.stream.eventFds.closed = []) :
    (∀ m', Transition.Reach (Machine.step S) Machine.Spares m m' → ∀ fd, 0 < m'.waiting fd →
        0 < m'.stream.eventFds.counter fd) ↔
      EnoughTokens m := by
  constructor
  · intro hnone fd
    by_contra hlt
    have hquiet : Quiet m fd := ⟨⟨t, hended⟩, halive, by simp [hopened]⟩
    obtain ⟨m', hreach, hwaits, hzero⟩ := hquiet.exists_left (S := S) (Nat.not_le.mp hlt)
    have hpos := hnone m' hreach fd hwaits
    omega
  · intro henough m' hreach fd hwaits
    exact Nat.lt_of_lt_of_le hwaits (henough.of_reach hended hreach fd)

/-! ## Termination -/

/-- `stopReads` sets the flag before it does anything else. -/
theorem terminationRequested_of_reach
    (h : Transition.Reach (Machine.step S) allowed (.connected S size bytes answers consumers) m) :
    m.stopping = true ∨ m.stopped = true → m.stream.terminationRequested = true := by
  refine h.invariant_of (P := fun m : Machine => m.stopping = true ∨ m.stopped = true →
      m.stream.terminationRequested = true) (fun h => by rcases h with h | h <;> cases h)
    (fun _ hr => Conserved.of_reach hr) fun m a m' hq hm _ hstep => ?_
  cases (move_of_step hstep).2 with
  | worker hw =>
      obtain ⟨new, rs, hflow⟩ := hw.flow hq.valid
      exact fun h => hflow.terminationRequested.trans (hm h)
  | consumer hc =>
      obtain ⟨q, k, cs, done, rfl⟩ := hc.frame
      exact hm
  | stopReads => exact fun _ => rfl
  | stopStream hstopping => exact fun _ => hm (.inl hstopping)
  | _ => exact hm

theorem Tokens.counter_of_terminated (h : Tokens S m) (hrec : Recorded S m.stream m.worker)
    (hended : m.worker = .ended .SOCKET_TERMINATION_REQUEST) (hempty : m.stream.queue fd = []) :
    m.stream.eventFds.counter fd = 0 := by
  obtain ⟨lost, hall, -⟩ := h.balance fd
  rw [hended] at hrec
  rcases hrec with ⟨-, hhealthy⟩ | hfailed
  · rw [hempty, hhealthy.tokens, List.length_nil] at hall
    omega
  · exact absurd rfl hfailed.ne_termination

theorem readBlocking_terminated_iff {s : ConditionalBufferedStream}
    (hrequested : s.terminationRequested = true) (hzero : s.eventFds.counter fd = 0) (timeoutMs : Int)
    (pollFails : Bool) (errno : Nat) :
    (s.readBlocking fd timeoutMs pollFails errno).1 =
        .threw (.socket (.ofType .SOCKET_TERMINATION_REQUEST)) ↔
      pollFails = false ∧ 0 ≤ timeoutMs := by
  cases pollFails with
  | true => simp [readBlocking]
  | false =>
      by_cases htimeout : timeoutMs < 0
      · simp [readBlocking, hzero, htimeout]
      · simp [readBlocking, hzero, htimeout, pollExpired, hrequested]
        omega

end SocketWrapper
