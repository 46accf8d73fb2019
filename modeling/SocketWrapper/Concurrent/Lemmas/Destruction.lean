import SocketWrapper.Concurrent.Lemmas.Escapes

/-!
# When destruction is safe

The destructor closes the descriptors before it stops the worker. It is safe as long as the worker has
no write to a descriptor ahead of it when that is closed, and comes to none afterwards.
-/

namespace SocketWrapper

open ConditionalBufferedStream

variable {S : Setup} {s s' : ConditionalBufferedStream} {w w' : WorkerAt} {m m' : Machine} {fd : Fd}
  {size : Nat} {bytes : List Byte} {answers : List Answer} {consumers : Nat}

/-! ## Orderly runs -/

/-- Whatever the conditions answer from now on, the worker will write to `fd`. -/
def WorkerAt.owes (S : Setup) : WorkerAt → Fd → Bool
  | .popping fd' v _ _, fd => fd' = fd ∧ 0 < v
  | .posting fd' _ _ _, fd => fd' = fd
  | .caught ex, fd => ex.exceptionType ≠ .SOCKET_TERMINATION_REQUEST ∧ S.Registered fd
  | .notifying _ rest, fd => fd ∈ rest.map BufferEventHandler.fd
  | _, _ => false

/-- What must hold for the worker's next step to be safe. -/
def WorkerAt.orderly (S : Setup) (s : ConditionalBufferedStream) : WorkerAt → Bool
  | .reading =>
      match (s.stream.readAvailableDataIntoBuffer (-1)).1 with
      | .threw (.socket ex) =>
          ex.exceptionType = .SOCKET_TERMINATION_REQUEST ∨ s.eventFds.closed = []
      | _ => true
  | .dispatching (⟨data, h :: _⟩ :: _) =>
      absSize (h.condition s.evaluations.length data) ≤ s.contents.length ∧
        (0 < h.condition s.evaluations.length data → h.fd ∉ s.eventFds.closed)
  | .posting _ _ _ _ => S.eventfdWrite s.eventFds.writes = none ∨ s.eventFds.closed = []
  | .notifying _ (_ :: _) => S.eventfdWrite s.eventFds.writes = none
  | _ => true

/-- What must hold for a step of the machine to be safe. -/
def Machine.orderly (S : Setup) (m : Machine) : Action → Bool
  | .worker => m.worker.orderly S m.stream
  | .destructor =>
      match m.destructor, m.worker with
      | .closing (h :: _), w => ¬ w.owes S h.fd
      | .joining, .notStarted => false
      | _, _ => true
  | _ => true

/-! ## The worker -/

/-- No write has gone to a closed descriptor, none that is due will, and no exception has left the
thread function or is due. -/
structure Safe (S : Setup) (s : ConditionalBufferedStream) (w : WorkerAt) : Prop where
  stale : s.eventFds.staleWrites = []
  contained : ∀ e, w ≠ .terminated e
  owed : ∀ fd, w.owes S fd → fd ∉ s.eventFds.closed
  within : ∀ fd v frame frames, w = .popping fd v frame frames → absSize v ≤ s.contents.length

theorem Safe.of_free (hstale : s.eventFds.staleWrites = []) (hcontained : ∀ e, w ≠ .terminated e)
    (howes : ∀ fd, w.owes S fd = false) (hpop : ∀ fd v frame frames, w ≠ .popping fd v frame frames) :
    Safe S s w where
  stale := hstale
  contained := hcontained
  owed := fun fd hfd => absurd hfd (by simp [howes fd])
  within := fun fd v frame frames hw => absurd hw (hpop fd v frame frames)

theorem Safe.dispatching {frames : List Frame} (hstale : s.eventFds.staleWrites = []) :
    Safe S s (.dispatching frames) :=
  .of_free hstale (by simp) (fun _ => rfl) (by simp)

theorem Safe.caught {ex : SocketException} (hstale : s.eventFds.staleWrites = [])
    (hopened : ex.exceptionType = .SOCKET_TERMINATION_REQUEST ∨ s.eventFds.closed = []) :
    Safe S s (.caught ex) where
  stale := hstale
  contained := by simp
  owed := fun fd hfd => by
    rcases hopened with hterm | hopened
    · simp [WorkerAt.owes, hterm] at hfd
    · simp [hopened]
  within := by simp

theorem staleWrites_post {o : Outcome Unit} (hfd : fd ∉ s.eventFds.closed)
    (hpost : s.post S fd = (o, s')) : s'.eventFds.staleWrites = s.eventFds.staleWrites := by
  obtain rfl := eq_of_post hpost
  simp only [EventFds.write, hfd, ↓reduceIte]
  split <;> rfl

theorem closed_post {o : Outcome Unit} (hpost : s.post S fd = (o, s')) :
    s'.eventFds.closed = s.eventFds.closed := by
  obtain rfl := eq_of_post hpost
  exact write_closed _ _ _

theorem eventFds_popAndQueue {v : Int32} (hv : s.stream.Valid)
    (hpop : s.popAndQueue fd v = (.returned (), s')) : s'.eventFds = s.eventFds :=
  (of_popAndQueue_returned hv hpop).2.2.2.2

theorem Safe.worker (h : Safe S s w) (hcovered : Covered s w) (hv : s.stream.Valid)
    (horderly : w.orderly S s) (hmove : WorkerMove S w s w' s') : Safe S s' w' := by
  cases hmove with
  | filled => exact .dispatching h.stale
  | readFailed hread =>
      obtain ⟨ex, rfl⟩ := of_read_threw hv hread
      rw [WorkerAt.orderly, hread] at horderly
      exact .caught h.stale (of_decide_eq_true horderly)
  | drained => exact .of_free h.stale (by simp) (fun _ => rfl) (by simp)
  | returned => exact .dispatching h.stale
  | @refused s data handler rest frames hlt =>
      have hle := hcovered ⟨data, handler :: rest⟩ (List.mem_cons_self ..)
      exact absurd (of_decide_eq_true horderly).1 (Nat.not_le_of_lt (Nat.lt_of_le_of_lt hle hlt))
  | skipped => exact .dispatching h.stale
  | matched =>
      refine ⟨h.stale, by simp, ?_, ?_⟩
      · intro fd hfd
        obtain ⟨rfl, hpos⟩ := of_decide_eq_true hfd
        exact (of_decide_eq_true horderly).2 hpos
      · rintro fd v frame frames heq
        cases heq
        exact (of_decide_eq_true horderly).1
  | popped hpop hpos =>
      have heventFds := eventFds_popAndQueue hv hpop
      refine ⟨heventFds ▸ h.stale, by simp, ?_, by simp⟩
      intro fd hfd
      obtain rfl := of_decide_eq_true hfd
      exact heventFds ▸ h.owed _ (decide_eq_true ⟨rfl, hpos⟩)
  | discarded hpop _ => exact .dispatching (eventFds_popAndQueue hv hpop ▸ h.stale)
  | popFailed hpop =>
      obtain ⟨hlt, -, -⟩ := of_popAndQueue_threw hv hpop
      exact absurd (h.within _ _ _ _ rfl) (Nat.not_le_of_lt hlt)
  | posted hpost =>
      have hopen := h.owed _ (decide_eq_true rfl)
      exact .dispatching ((staleWrites_post hopen hpost).trans h.stale)
  | @postFailed s s' fd v frame frames e hpost =>
      have hopen := h.owed fd (decide_eq_true rfl)
      obtain ⟨⟨errno, rfl⟩, -⟩ := of_post_threw hpost
      refine .caught ((staleWrites_post hopen hpost).trans h.stale) (.inr ?_)
      rcases of_decide_eq_true horderly with haccepted | hopened
      · rw [post_of_accepted hopen haccepted] at hpost
        cases hpost
      · exact (closed_post hpost).trans hopened
  | terminates => exact .of_free h.stale (by simp) (fun _ => rfl) (by simp)
  | records hterm =>
      refine ⟨h.stale, by simp, fun fd hfd => ?_, by simp⟩
      exact h.owed fd (decide_eq_true ⟨hterm, of_decide_eq_true hfd⟩)
  | @notified s s' t handler rest hpost =>
      have hopen := h.owed handler.fd (decide_eq_true (List.mem_cons_self ..))
      refine ⟨(staleWrites_post hopen hpost).trans h.stale, by simp, fun fd hfd => ?_, by simp⟩
      have hopen' := h.owed fd (decide_eq_true (List.mem_cons_of_mem _ (of_decide_eq_true hfd)))
      exact closed_post hpost ▸ hopen'
  | @notifyFailed s s' t handler rest e hpost =>
      have hopen := h.owed handler.fd (decide_eq_true (List.mem_cons_self ..))
      rw [post_of_accepted hopen (of_decide_eq_true horderly)] at hpost
      cases hpost
  | ends => exact .of_free h.stale (by simp) (fun _ => rfl) (by simp)

/-! ## The machine -/

/-- The worker is safe, and no exception has left the destructor. -/
structure Destructible (S : Setup) (m : Machine) : Prop where
  safe : Safe S m.stream m.worker
  contained : ∀ e, m.destructor ≠ .terminated e

theorem Destructible.move {a : Action} (h : Destructible S m) (hcovered : Covered m.stream m.worker)
    (hv : m.stream.stream.Valid) (horderly : m.orderly S a) (hmove : Move S m a m') :
    Destructible S m' := by
  cases hmove with
  | start hw => exact ⟨.of_free h.safe.stale (by simp) (fun _ => rfl) (by simp), h.contained⟩
  | worker hw => exact ⟨h.safe.worker hcovered hv horderly hw, h.contained⟩
  | consumer hc =>
      obtain ⟨q, k, cs, done, rfl⟩ := hc.frame
      exact ⟨⟨h.safe.stale, h.safe.contained, h.safe.owed, h.safe.within⟩, h.contained⟩
  | stopReads => exact ⟨⟨h.safe.stale, h.safe.contained, h.safe.owed, h.safe.within⟩, h.contained⟩
  | stopStream => exact ⟨⟨h.safe.stale, h.safe.contained, h.safe.owed, h.safe.within⟩, h.contained⟩
  | destructs => exact ⟨h.safe, by simp⟩
  | closes hd =>
      simp only [Machine.orderly, hd] at horderly
      refine ⟨⟨h.safe.stale, h.safe.contained, fun fd hfd hclosed => ?_, h.safe.within⟩, by simp⟩
      rcases List.mem_append.mp hclosed with hclosed | hclosed
      · exact h.safe.owed fd hfd hclosed
      · rw [List.mem_singleton.mp hclosed] at hfd
        exact of_decide_eq_true horderly hfd
  | stops => exact ⟨⟨h.safe.stale, h.safe.contained, h.safe.owed, h.safe.within⟩, by simp⟩
  | joinFails hd hw =>
      simp [Machine.orderly, hd, hw] at horderly
  | joins => exact ⟨h.safe, by simp⟩

theorem Destructible.of_reach
    (h : Transition.Reach (Machine.step S) (fun m a => m.orderly S a)
      (.connected S size bytes answers consumers) m) :
    Destructible S m := by
  have h₀ : Safe S (connected S size bytes 0 answers) .notStarted :=
    .of_free rfl (by simp) (fun _ => rfl) (by simp)
  refine h.invariant_of (P := Destructible S) ⟨h₀, by simp [Machine.connected, Machine.init]⟩
    (fun _ hr => And.intro (Conserved.of_reach hr) (Covered.of_reach hr)) fun m a m' hq hm ha hstep => ?_
  exact hm.move hq.2 hq.1.valid ha (move_of_step hstep).2

end SocketWrapper
