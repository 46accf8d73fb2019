import SocketWrapper.Concurrent.Lemmas.Recorded

/-!
# The balance of tokens and segments

The worker adds a token for each segment and for the failure, `readBlocking` takes one for each. A call
of `read` takes a segment and leaves its token.
-/

namespace SocketWrapper

open ConditionalBufferedStream Machine

variable {S : Setup} {s s' : ConditionalBufferedStream} {w w' : WorkerAt} {m m' : Machine} {fd : Fd}
  {allowed : Machine → Action → Prop} {size : Nat} {bytes : List Byte} {answers : List Answer} {consumers : Nat}

/-! ## What is counted -/

/-- 1 if the worker has queued a segment for `fd` and has not posted it. -/
def WorkerAt.unposted : WorkerAt → Fd → Nat
  | .posting fd' _ _ _, fd => if fd' = fd then 1 else 0
  | _, _ => 0

/-- The calls that have taken a token of `fd` and have not come back. -/
def Machine.pending (m : Machine) (fd : Fd) : Nat :=
  m.consumers.countP (fun p => p = .popping fd true)

/-- The call had taken a token and came back without a segment. -/
def Completion.reported (c : Completion) : Bool :=
  match c.outcome with
  | .returned _ => false
  | _ => c.token

/-- The call returned a segment and had not taken a token. -/
def Completion.takenAlone (c : Completion) : Bool :=
  match c.outcome with
  | .returned _ => !c.token
  | _ => false

/-- The segments that calls on `fd` have returned without taking a token. -/
def takenIn (cs : List Completion) (fd : Fd) : Nat :=
  cs.countP (fun c => c.fd = fd ∧ c.takenAlone)

/-- The calls on `fd` that had taken a token and came back without a segment. -/
def reportedIn (cs : List Completion) (fd : Fd) : Nat :=
  cs.countP (fun c => c.fd = fd ∧ c.reported)

@[simp] theorem unposted_raised (e : Exception) (fd : Fd) : (WorkerAt.raised e).unposted fd = 0 := by
  cases e <;> rfl

@[simp] theorem unposted_recurse (v : Int32) (frame : Frame) (frames : List Frame) (fd : Fd) :
    (WorkerAt.recurse S v frame frames).unposted fd = 0 := rfl

@[simp] theorem unposted_posting (fd fd' : Fd) (v : Int32) (frame : Frame) (frames : List Frame) :
    (WorkerAt.posting fd v frame frames).unposted fd' = if fd = fd' then 1 else 0 := rfl

@[simp] theorem unposted_popping (fd fd' : Fd) (v : Int32) (frame : Frame) (frames : List Frame) :
    (WorkerAt.popping fd v frame frames).unposted fd' = 0 := rfl

@[simp] theorem unposted_notifying (t : SocketExceptionType) (rest : List BufferEventHandler) (fd : Fd) :
    (WorkerAt.notifying t rest).unposted fd = 0 := rfl

theorem countP_set_add {α : Type} {p : α → Bool} {l : List α} {i : Nat} {x a : α}
    (h : l[i]? = some x) :
    (l.set i a).countP p + (if p x then 1 else 0) = l.countP p + (if p a then 1 else 0) := by
  obtain ⟨hi, rfl⟩ := List.getElem?_eq_some_iff.mp h
  rw [List.countP_set hi]
  by_cases hp : p l[i]
  · have hpos : 0 < l.countP p := List.countP_pos_iff.mpr ⟨l[i], List.getElem_mem hi, hp⟩
    simp only [hp, ↓reduceIte]
    omega
  · simp [hp]

/-! ## The worker -/

theorem counter_posted (s : ConditionalBufferedStream) (fd fd' : Fd) :
    (s.posted fd).eventFds.counter fd' = s.eventFds.counter fd' + if fd = fd' then 1 else 0 := by
  by_cases h : fd = fd'
  · subst h
    simp [posted]
  · simp [posted, h, Ne.symm h]

theorem length_delivered_single (fd fd' : Fd) (v : Int32) (segment : List Byte) :
    (delivered fd' [⟨fd, v, segment⟩]).length = if fd = fd' ∧ 0 < v then 1 else 0 := by
  simp only [delivered, List.length_map]
  split <;> rename_i h <;> simp [h]

/-- A step of the worker adds as many tokens as it adds segments and failures, unless a write fails. -/
theorem WorkerMove.balance (h : WorkerMove S w s w' s') (hv : s.stream.Valid) (fd : Fd) :
    ∃ lost, s'.eventFds.counter fd + w'.unposted fd + (s.queue fd).length + s.failureTokens fd + lost =
        s.eventFds.counter fd + w.unposted fd + (s'.queue fd).length + s'.failureTokens fd ∧
      (s.PostsSucceed S → lost = 0) := by
  cases h with
  | filled => exact ⟨0, rfl, fun _ => rfl⟩
  | readFailed =>
      rw [unposted_raised]
      exact ⟨0, rfl, fun _ => rfl⟩
  | drained => exact ⟨0, rfl, fun _ => rfl⟩
  | returned => exact ⟨0, rfl, fun _ => rfl⟩
  | refused =>
      rw [unposted_raised]
      exact ⟨0, rfl, fun _ => rfl⟩
  | skipped => exact ⟨0, rfl, fun _ => rfl⟩
  | matched => exact ⟨0, rfl, fun _ => rfl⟩
  | @popped s s' fd' v frame frames hpop hpos =>
      obtain ⟨-, hext, -, -, hevents⟩ := of_popAndQueue_returned hv hpop
      refine ⟨0, ?_, fun _ => rfl⟩
      simp only [unposted_posting, unposted_popping, hevents, hext.queue, hext.failureTokens,
        List.length_append, length_delivered_single, hpos, and_true]
      omega
  | @discarded s s' fd' v frame frames hpop hpos =>
      obtain ⟨-, hext, -, -, hevents⟩ := of_popAndQueue_returned hv hpop
      refine ⟨0, ?_, fun _ => rfl⟩
      simp only [unposted_popping, unposted_recurse, hevents, hext.queue, hext.failureTokens,
        List.length_append, length_delivered_single, hpos, and_false, ↓reduceIte]
      omega
  | popFailed hpop =>
      obtain ⟨-, rfl, -⟩ := of_popAndQueue_threw hv hpop
      exact ⟨0, by simp, fun _ => rfl⟩
  | @posted s s' fd' v frame frames hpost =>
      obtain ⟨-, -, rfl⟩ := of_post_returned hpost
      refine ⟨0, ?_, fun _ => rfl⟩
      simp only [unposted_posting, unposted_recurse, counter_posted]
      have hqueue : (s.posted fd').queue fd = s.queue fd := rfl
      have htokens : (s.posted fd').failureTokens = s.failureTokens := rfl
      rw [hqueue, htokens]
      omega
  | @postFailed s s' fd' v frame frames e hpost =>
      -- the segment stays in the queue, and no token stands for it
      refine ⟨if fd' = fd then 1 else 0, ?_, fun hp => ?_⟩
      · obtain ⟨-, k, rfl, hcounter⟩ := of_post_threw hpost
        simp only [unposted_posting, unposted_raised, hcounter]
        show _ + 0 + (s.queue fd).length + _ + _ = _ + _ + (s.queue fd).length + _
        omega
      · rw [post_of_succeeds hp] at hpost
        cases hpost
  | terminates => exact ⟨0, rfl, fun _ => rfl⟩
  | records => exact ⟨0, rfl, fun _ => rfl⟩
  | @notified s s' t handler rest hpost =>
      obtain ⟨-, -, rfl⟩ := of_post_returned hpost
      refine ⟨0, ?_, fun _ => rfl⟩
      simp only [unposted_notifying, counter_posted]
      have hqueue : ConditionalBufferedStream.queue { s.posted handler.fd with
          failureTokens := Function.update (s.posted handler.fd).failureTokens handler.fd
            ((s.posted handler.fd).failureTokens handler.fd + 1) } fd = s.queue fd := rfl
      have htokens : (s.posted handler.fd).failureTokens = s.failureTokens := rfl
      rw [hqueue, htokens]
      by_cases hfd : handler.fd = fd
      · subst hfd
        simp only [↓reduceIte, Function.update_self]
        omega
      · simp only [hfd, ↓reduceIte, Function.update_of_ne (Ne.symm hfd)]
        omega
  | notifyFailed hpost =>
      obtain ⟨-, k, rfl, hcounter⟩ := of_post_threw hpost
      refine ⟨0, ?_, fun _ => rfl⟩
      simp only [hcounter]
      rfl
  | ends => exact ⟨0, rfl, fun _ => rfl⟩

/-! ## The consumers -/

theorem pending_moveTo {c : Nat} {x : ConsumerAt} (hc : m.consumers[c]? = some x) (place : ConsumerAt)
    (fd : Fd) : (m.moveTo c place).pending fd + (if x = .popping fd true then 1 else 0) =
      m.pending fd + (if place = .popping fd true then 1 else 0) := by
  have h := countP_set_add (p := fun p => decide (p = .popping fd true)) (a := place) hc
  simpa [Machine.pending] using h

theorem reportedIn_append (cs : List Completion) (c : Completion) (fd : Fd) :
    reportedIn (cs ++ [c]) fd = reportedIn cs fd + if c.fd = fd ∧ c.reported then 1 else 0 := by
  simp [reportedIn, List.countP_append, List.countP_cons]

theorem takenIn_append (cs : List Completion) (c : Completion) (fd : Fd) :
    takenIn (cs ++ [c]) fd = takenIn cs fd + if c.fd = fd ∧ c.takenAlone then 1 else 0 := by
  simp [takenIn, List.countP_append, List.countP_cons]

theorem counter_takeToken (s : ConditionalBufferedStream) (fd fd' : Fd) :
    (s.takeToken fd).eventFds.counter fd' = s.eventFds.counter fd' - if fd = fd' then 1 else 0 := by
  by_cases hfd : fd = fd'
  · subst hfd
    simp [takeToken, EventFds.take]
  · simp [takeToken, EventFds.take, hfd, Ne.symm hfd]

theorem pending_pos {c : Nat} (hc : m.consumers[c]? = some (.popping fd true)) : 0 < m.pending fd :=
  List.countP_pos_iff.mpr ⟨_, List.mem_of_getElem? hc, by simp⟩

/-- What is on an eventfd, taken from it or about to be posted, is what is in the queue, posted for the
failure or left behind by `read`. -/
structure Balanced (S : Setup) (m : Machine) : Prop where
  opened : m.stream.eventFds.closed = []
  balance : ∀ fd, ∃ lost, m.stream.eventFds.counter fd + m.pending fd + m.worker.unposted fd +
      reportedIn m.completions fd + lost =
        (m.stream.queue fd).length + m.stream.failureTokens fd + takenIn m.completions fd ∧
    ((∀ n, S.eventfdWrite n = none) → lost = 0)

theorem Balanced.worker (h : Balanced S m) (hv : m.stream.stream.Valid)
    (hmove : WorkerMove S m.worker m.stream w s) : Balanced S { m with worker := w, stream := s } := by
  obtain ⟨new, rs, hflow⟩ := hmove.flow hv
  refine ⟨hflow.closed.trans h.opened, fun fd => ?_⟩
  obtain ⟨lost', hmoved, hnone'⟩ := hmove.balance hv fd
  obtain ⟨lost, hall, hnone⟩ := h.balance fd
  have hpending : Machine.pending { m with worker := w, stream := s } fd = m.pending fd := rfl
  refine ⟨lost + lost', ?_, fun hwrite => ?_⟩
  · simp only [hpending]
    omega
  · rw [hnone hwrite, hnone' ⟨hwrite, h.opened⟩]

theorem Balanced.moveTo (h : Balanced S m) {c : Nat} {x place : ConsumerAt}
    (hc : m.consumers[c]? = some x) (hx : ∀ fd, x ≠ .popping fd true)
    (hplace : ∀ fd, place ≠ .popping fd true) : Balanced S (m.moveTo c place) where
  opened := h.opened
  balance := fun fd => by
    have hpending := pending_moveTo hc place fd
    simp only [hx fd, hplace fd, ↓reduceIte, Nat.add_zero] at hpending
    simp only [stream_moveTo, worker_moveTo, completions_moveTo, hpending]
    exact h.balance fd

theorem Balanced.takes (h : Balanced S m) {c : Nat} (hc : m.consumers[c]? = some (.taking fd))
    (hpos : 0 < m.stream.eventFds.counter fd) :
    Balanced S ({ m with stream := m.stream.takeToken fd }.moveTo c (.popping fd true)) where
  opened := h.opened
  balance := fun fd' => by
    have hpending := pending_moveTo (m := { m with stream := m.stream.takeToken fd }) hc
      (.popping fd true) fd'
    obtain ⟨lost, hall, hnone⟩ := h.balance fd'
    refine ⟨lost, ?_, hnone⟩
    have hsame : Machine.pending { m with stream := m.stream.takeToken fd } fd' = m.pending fd' := rfl
    have hqueue : (m.stream.takeToken fd).queue fd' = m.stream.queue fd' := rfl
    simp only [reduceCtorEq, ↓reduceIte, Nat.add_zero, ConsumerAt.popping.injEq, and_true, hsame]
      at hpending
    simp only [stream_moveTo, worker_moveTo, completions_moveTo, hpending, hqueue, counter_takeToken]
    show _ = (m.stream.queue fd').length + m.stream.failureTokens fd' + takenIn m.completions fd'
    by_cases hfd : fd = fd'
    · subst hfd
      simp only [↓reduceIte]
      omega
    · simp only [hfd, ↓reduceIte]
      exact hall

/-- A call comes back: with its token, if it has one, or with a segment, or with both or neither. -/
theorem Balanced.complete (h : Balanced S m) {c : Nat} {x : ConsumerAt} {token : Bool}
    {o : Outcome (List Byte)} (hc : m.consumers[c]? = some x)
    (hx : ∀ fd', x = .popping fd' true ↔ fd = fd' ∧ token = true)
    (hevents : s.eventFds = m.stream.eventFds) (htokens : s.failureTokens = m.stream.failureTokens)
    (hqueue : ∀ fd', (s.queue fd').length + (if fd = fd' ∧ o.isReturned then 1 else 0) =
      (m.stream.queue fd').length) :
    Balanced S ({ m with stream := s }.complete c fd token o) where
  opened := (congrArg EventFds.closed hevents).trans h.opened
  balance := fun fd' => by
    obtain ⟨lost, hall, hnone⟩ := h.balance fd'
    refine ⟨lost, ?_, hnone⟩
    have hpending := pending_moveTo hc .idle fd'
    have hlength := hqueue fd'
    simp only [hx, reduceCtorEq, ↓reduceIte, Nat.add_zero] at hpending
    show s.eventFds.counter fd' + (m.moveTo c .idle).pending fd' + m.worker.unposted fd' +
        reportedIn (m.completions ++ [⟨c, fd, token, o⟩]) fd' + lost =
      (s.queue fd').length + s.failureTokens fd' + takenIn (m.completions ++ [⟨c, fd, token, o⟩]) fd'
    rw [hevents, htokens, reportedIn_append, takenIn_append]
    by_cases hfd : fd = fd'
    · simp only [hfd, true_and] at hpending hlength ⊢
      cases o <;> cases token <;>
        simp [Completion.reported, Completion.takenAlone] at hpending hlength ⊢ <;>
        omega
    · simp only [hfd, false_and, ↓reduceIte] at hpending hlength ⊢
      omega

theorem Balanced.pops (h : Balanced S m) {c : Nat} {token : Bool}
    (hc : m.consumers[c]? = some (.popping fd token)) :
    Balanced S ({ m with stream := (m.stream.read fd).2 }.complete c fd token (m.stream.read fd).1) := by
  have hx : ∀ fd', ConsumerAt.popping fd token = .popping fd' true ↔ fd = fd' ∧ token = true := by simp
  have hread := read_cases m.stream fd
  generalize m.stream.read fd = r at hread ⊢
  cases hread with
  | @segment data rest hqueue =>
      refine h.complete hc hx rfl rfl fun fd' => ?_
      by_cases hfd : fd = fd'
      · subst hfd
        rw [queue_dequeued_self, hqueue]
        simp
      · rw [queue_dequeued_of_ne (Ne.symm hfd)]
        simp [hfd]
  | failed => exact h.complete hc hx rfl rfl fun fd' => by simp
  | nothing => exact h.complete hc hx rfl rfl fun fd' => by simp
  | invalid => exact h.complete hc hx rfl rfl fun fd' => by simp

theorem Balanced.consumer (h : Balanced S m) {c : Nat} {a : ConsumerAction}
    (hmove : ConsumerMove m c a m') : Balanced S m' := by
  cases hmove with
  | calls hc => exact h.moveTo hc (by simp) (by simp)
  | callsRead hc => exact h.moveTo hc (by simp) (by simp)
  | ready hc => exact h.moveTo hc (by simp) (by simp)
  | expires hc => exact h.moveTo hc (by simp) (by simp)
  | fails hc => exact h.complete hc (by simp) rfl rfl (by simp)
  | throws hc => exact h.complete hc (by simp) rfl rfl (by simp)
  | takesNothing _ hclosed =>
      rw [h.opened] at hclosed
      cases hclosed
  | takes hc hpos => exact h.takes hc hpos
  | pops hc => exact h.pops hc

theorem Balanced.move {a : Action} (h : Balanced S m) (hv : m.stream.stream.Valid)
    (ha : a ≠ .destructor) (hmove : Move S m a m') : Balanced S m' := by
  cases hmove with
  | start hw =>
      refine ⟨h.opened, fun fd => ?_⟩
      have hall := h.balance fd
      rw [hw] at hall
      exact hall
  | worker hw => exact h.worker hv hw
  | consumer hc => exact h.consumer hc
  | stopReads => exact ⟨h.opened, h.balance⟩
  | stopStream => exact ⟨h.opened, h.balance⟩
  | _ => exact absurd rfl ha

theorem Balanced.connected (size : Nat) (bytes : List Byte) (answers : List Answer) (consumers : Nat) :
    Balanced S (.connected S size bytes answers consumers) where
  opened := rfl
  balance := fun fd => by
    have hqueue := queue_connected S size bytes 0 answers fd
    have hpending : Machine.pending (.connected S size bytes answers consumers) fd = 0 := by
      simp [Machine.pending, Machine.connected, Machine.init, List.countP_replicate]
    refine ⟨0, ?_, fun _ => rfl⟩
    rw [hpending]
    show 0 = ((ConditionalBufferedStream.connected S size bytes 0 answers).queue fd).length + 0 + 0
    rw [hqueue]
    rfl

theorem Balanced.of_reach (hallowed : ∀ m a, allowed m a → a ≠ .destructor)
    (h : Transition.Reach (Machine.step S) allowed (.connected S size bytes answers consumers) m) :
    Balanced S m := by
  refine h.invariant_of (P := Balanced S) (.connected size bytes answers consumers)
    (fun _ hr => Conserved.of_reach hr) fun m a _ hq hm ha hstep => ?_
  exact hm.move hq.valid (hallowed m a ha) (move_of_step hstep).2

theorem alive_of_reach (hallowed : ∀ m a, allowed m a → a ≠ .destructor)
    (h : Transition.Reach (Machine.step S) allowed (.connected S size bytes answers consumers) m) :
    m.destructor = .alive := by
  refine h.invariant (P := fun m : Machine => m.destructor = .alive) rfl fun m a m' hm ha hstep => ?_
  have hliving := hallowed m a ha
  cases (move_of_step hstep).2 with
  | consumer hc =>
      obtain ⟨q, k, cs, done, rfl⟩ := hc.frame
      exact hm
  | start => exact hm
  | worker => exact hm
  | stopReads => exact hm
  | stopStream => exact hm
  | _ => exact absurd rfl hliving

end SocketWrapper
