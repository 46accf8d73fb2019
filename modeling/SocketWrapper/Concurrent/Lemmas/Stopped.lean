import SocketWrapper.Concurrent.Lemmas.Conservation

/-!
# The worker after the stop event

`Stream::read` looks at the socket's mark before that of the stop event. Where it finds the socket
unmarked it throws the request, and the worker comes to its end in a bounded number of steps.
-/

namespace SocketWrapper

open ConditionalBufferedStream Transition

variable {S : Setup} {s s' : ConditionalBufferedStream} {w w' : WorkerAt} {m m' : Machine}
  {allowed : Machine → Action → Prop} {size : Nat} {bytes : List Byte} {answers : List Answer} {consumers : Nat}

/-! ## The stop event -/

/-- The destructor has stopped the reads. -/
def DestructorAt.hasStopped : DestructorAt → Bool
  | .alive => false
  | .closing _ => false
  | .joining => true
  | .destroyed => true
  | .terminated _ => true

/-- `stopReads` or the destructor has posted the stop event. -/
def Machine.StopPosted (m : Machine) : Prop := m.stopped = true ∨ m.destructor.hasStopped = true

/-- When the next `poll` comes back, it has not failed and the socket is not marked. -/
def Stream.unmarked (t : Stream) : Bool :=
  match t.answers with
  | [] => true
  | .quiet :: _ => true
  | _ => false

/-- A step that is not a read of the worker whose `poll` finds more than the stop event. -/
def Machine.readsUnmarked (m : Machine) : Action → Bool
  | .worker =>
      match m.worker with
      | .reading => m.stream.stream.stream.unmarked
      | _ => true
  | _ => true

/-- Only a read touches the stream below the buffer. -/
theorem WorkerMove.stream_eq (h : WorkerMove S w s w' s') (hv : s.stream.Valid) (hw : w ≠ .reading) :
    s'.stream.stream = s.stream.stream := by
  have hpost : ∀ {fd : Fd} {o : Outcome Unit} {s' : ConditionalBufferedStream},
      s.post S fd = (o, s') → s'.stream.stream = s.stream.stream :=
    fun h => (Extends.of_post hv h).socket
  have hpop : ∀ {fd : Fd} {v : Int32} {o : Outcome Unit} {s' : ConditionalBufferedStream},
      s.popAndQueue fd v = (o, s') → s'.stream.stream = s.stream.stream := by
    intro fd v o s' hpop
    obtain ⟨rs, hext⟩ := Extends.of_popAndQueue hv hpop
    exact hext.socket
  cases h with
  | filled => exact absurd rfl hw
  | readFailed => exact absurd rfl hw
  | popped h => exact hpop h
  | discarded h => exact hpop h
  | popFailed h => exact hpop h
  | posted h => exact hpost h
  | postFailed h => exact hpost h
  | notified h =>
      have heq := hpost h
      exact heq
  | notifyFailed h => exact hpost h
  | _ => rfl

theorem WorkerMove.stopEvent_eq (h : WorkerMove S w s w' s') (hv : s.stream.Valid) :
    s'.stream.stream.stopEvent = s.stream.stream.stopEvent := by
  have hread : ∀ {o : Outcome Nat} {b : BufferedStream},
      s.stream.readAvailableDataIntoBuffer (-1) = (o, b) → b.stream.stopEvent = s.stream.stream.stopEvent := by
    intro o b hread
    have hrefill := BufferedStream.refill hv (-1)
    rw [hread] at hrefill
    cases hrefill with
    | data hr => exact hr.stopEvent
    | closed hr => exact hr.stopEvent
    | failed hr => exact hr.stopEvent
    | waiting hr => exact hr.stopEvent
  by_cases hw : w = .reading
  · subst hw
    cases h with
    | filled h => exact hread h
    | readFailed h => exact hread h
  · rw [h.stream_eq hv hw]

theorem stopEvent_le_of_move {a : Action} (h : Move S m a m') (hv : m.stream.stream.Valid) :
    m.stream.stream.stream.stopEvent ≤ m'.stream.stream.stream.stopEvent := by
  cases h with
  | worker hw => exact Nat.le_of_eq (hw.stopEvent_eq hv).symm
  | consumer hc =>
      obtain ⟨q, k, cs, done, rfl⟩ := hc.frame
      exact Nat.le_refl _
  | stopStream => exact Nat.le_add_right _ _
  | stops => exact Nat.le_add_right _ _
  | _ => exact Nat.le_refl _

theorem stopEvent_pos_of_reach
    (h : Reach (Machine.step S) allowed (.connected S size bytes answers consumers) m)
    (hposted : m.StopPosted) : 0 < m.stream.stream.stream.stopEvent := by
  refine h.invariant_of (P := fun m : Machine => m.StopPosted → 0 < m.stream.stream.stream.stopEvent)
    (fun h => by rcases h with h | h <;> cases h) (fun _ hr => Conserved.of_reach hr) ?_ hposted
  intro m a m' hq hm _ hstep hposted
  have hle := stopEvent_le_of_move (move_of_step hstep).2 hq.valid
  cases (move_of_step hstep).2 with
  | stopStream => exact Nat.add_pos_right _ (by decide)
  | stops => exact Nat.add_pos_right _ (by decide)
  | consumer hc =>
      obtain ⟨q, k, cs, done, rfl⟩ := hc.frame
      exact hm hposted
  | worker => exact Nat.lt_of_lt_of_le (hm hposted) hle
  | destructs => exact hm (hposted.imp_right fun h => by cases h)
  | closes => exact hm (hposted.imp_right fun h => by cases h)
  | joinFails hd => exact hm (.inr (hd ▸ rfl))
  | joins hd => exact hm (.inr (hd ▸ rfl))
  | _ => exact hm hposted

/-! ## A read after the stop event -/

/-- A read of at least one byte throws the request and takes nothing from the socket exactly if it finds
the socket unmarked. -/
theorem Stream.read_stopped_iff {t : Stream} (hstop : 0 < t.stopEvent) (maxBytes : Nat) (timeoutMs : Int) :
    (t.read maxBytes 1 timeoutMs).outcome = .socketError .SOCKET_TERMINATION_REQUEST 0 ∧
      (t.read maxBytes 1 timeoutMs).stream.socket = t.socket ↔ t.unmarked = true := by
  obtain ⟨socket, stopEvent, answers⟩ := t
  simp only [Stream.read, Stream.unmarked]
  cases answers with
  | nil => simp [Stream.readLoop, hstop]
  | cons a answers =>
      cases a with
      | pollFails errno => simp [Stream.readLoop, SocketException.withErrno]
      | readFails errno => simp [Stream.readLoop, SocketException.withErrno]
      | quiet => simp [Stream.readLoop, hstop]
      | readable available =>
          by_cases hend : (socket.read maxBytes available).1 = []
          · simp [Stream.readLoop, hend, SocketException.withErrno]
          · have hpos : 1 ≤ (socket.read maxBytes available).1.length := List.length_pos_iff.mpr hend
            simp [Stream.readLoop, hend, Stream.readLoop_done hpos]

theorem readAvailable_stopped_iff {o : Outcome Nat} {b b' : BufferedStream} (hstop : 0 < b.stream.stopEvent)
    (hread : b.readAvailableDataIntoBuffer (-1) = (o, b')) :
    o = .socketError .SOCKET_TERMINATION_REQUEST 0 ∧ b'.stream.socket = b.stream.socket ↔
      b.stream.unmarked = true := by
  rw [← Stream.read_stopped_iff hstop (sizeSub b.streamBufferSize b.bufferWriteOffset) (-1)]
  simp only [BufferedStream.readAvailableDataIntoBuffer] at hread
  generalize b.stream.read (sizeSub b.streamBufferSize b.bufferWriteOffset) 1 (-1) = r at hread ⊢
  split at hread <;> rename_i hout <;> cases hread <;> rw [hout]

theorem WorkerMove.terminated_iff (hstop : 0 < s.stream.stream.stopEvent)
    (h : WorkerMove S .reading s w' s') :
    w' = .caught (.withErrno .SOCKET_TERMINATION_REQUEST 0) ∧
      s'.stream.stream.socket = s.stream.stream.socket ↔ s.stream.stream.unmarked = true := by
  cases h with
  | filled hread =>
      rw [← readAvailable_stopped_iff hstop hread]
      simp
  | @readFailed _ _ e hread =>
      rw [← readAvailable_stopped_iff hstop hread]
      cases e <;> simp [WorkerAt.raised]

theorem not_waiting_of_stopped (hstop : 0 < s.stream.stream.stopEvent) (hv : s.stream.Valid)
    {b : BufferedStream} : s.stream.readAvailableDataIntoBuffer (-1) ≠ (.waiting, b) := by
  intro hread
  have hrefill := BufferedStream.refill hv (-1)
  rw [hread] at hrefill
  cases hrefill with
  | waiting _ _ _ hzero => omega

/-! ## What the worker has left to do -/

/-- A bound for the steps that one handler takes on data of a length, in `handlers` handlers. -/
def handlerCost (handlers : Nat) : Nat → Nat
  | 0 => 4
  | length + 1 => 4 + handlers * handlerCost handlers length

def Frame.cost (S : Setup) (f : Frame) : Nat :=
  f.rest.length * handlerCost S.handlers.length f.data.length + 1

/-- The steps left if no more data is read. -/
def WorkerAt.cost (S : Setup) : WorkerAt → Nat
  | .notStarted => S.handlers.length + 4
  | .reading => S.handlers.length + 4
  | .dispatching frames => (frames.map (Frame.cost S)).sum + (S.handlers.length + 5)
  | .popping _ v frame frames =>
      2 + (S.handlers.length * handlerCost S.handlers.length (frame.data.length - absSize v) + 1) +
        ((frame :: frames).map (Frame.cost S)).sum + (S.handlers.length + 5)
  | .posting _ v frame frames =>
      1 + (S.handlers.length * handlerCost S.handlers.length (frame.data.length - absSize v) + 1) +
        ((frame :: frames).map (Frame.cost S)).sum + (S.handlers.length + 5)
  | .caught _ => S.handlers.length + 2
  | .notifying _ rest => rest.length + 1
  | .ended _ => 0
  | .terminated _ => 0

theorem handlerCost_mono (handlers : Nat) : Monotone (handlerCost handlers) := by
  refine monotone_nat_of_le_succ fun n => ?_
  induction n with
  | zero => exact Nat.le_add_right _ _
  | succ n ih => exact Nat.add_le_add_left (Nat.mul_le_mul_left _ ih) _

theorem four_le_handlerCost (handlers n : Nat) : 4 ≤ handlerCost handlers n := by
  cases n with
  | zero => exact Nat.le_refl _
  | succ n => exact Nat.le_add_right _ _

theorem cost_enter_le (S : Setup) (data : List Byte) :
    (Frame.enter S data).cost S ≤ S.handlers.length * handlerCost S.handlers.length data.length + 1 := by
  simp only [Frame.enter, Frame.cost]
  split
  · simp
  · exact Nat.le_refl _

theorem cost_recurse_le (v : Int32) (frame : Frame) (frames : List Frame) :
    (WorkerAt.recurse S v frame frames).cost S + 1 ≤ (WorkerAt.posting 0 v frame frames).cost S := by
  have hle := cost_enter_le S (frame.data.drop (absSize v))
  rw [List.length_drop] at hle
  simp only [WorkerAt.recurse, WorkerAt.cost, List.map_cons, List.sum_cons]
  omega

/-- A segment is not empty, so the recursive call has less data. -/
theorem cost_matched_lt {length size : Nat} (hpos : 0 < size) (hle : size ≤ length) :
    S.handlers.length * handlerCost S.handlers.length (length - size) + 3 <
      handlerCost S.handlers.length length := by
  obtain ⟨n, rfl⟩ := Nat.exists_eq_add_of_lt (Nat.lt_of_lt_of_le hpos hle)
  have hless : 0 + n + 1 - size ≤ 0 + n := by omega
  have hmul := Nat.mul_le_mul_left S.handlers.length (handlerCost_mono S.handlers.length hless)
  simp only [handlerCost]
  omega

theorem cost_raised_le (e : Exception) : (WorkerAt.raised e).cost S ≤ S.handlers.length + 2 := by
  cases e <;> simp [WorkerAt.raised, WorkerAt.cost]

/-- Every step but a read that brings bytes leaves less to do. -/
theorem WorkerMove.cost_lt (h : WorkerMove S w s w' s')
    (hread : w = .reading → ∀ n b, s.stream.readAvailableDataIntoBuffer (-1) ≠ (.returned n, b)) :
    w'.cost S < w.cost S := by
  cases h with
  | filled h => exact absurd h (hread rfl _ _)
  | readFailed =>
      refine Nat.lt_of_le_of_lt (cost_raised_le _) ?_
      simp [WorkerAt.cost]
  | drained => simp [WorkerAt.cost]
  | returned => simp [WorkerAt.cost, Frame.cost]
  | refused =>
      refine Nat.lt_of_le_of_lt (cost_raised_le _) ?_
      simp only [WorkerAt.cost]
      omega
  | @skipped _ data _ rest frames =>
      have hpos := four_le_handlerCost S.handlers.length data.length
      simp only [WorkerAt.cost, List.map_cons, List.sum_cons, Frame.cost, List.length_cons, Nat.succ_mul]
      omega
  | @matched s data h rest frames hne hle =>
      have hlt := cost_matched_lt (S := S) (absSize_pos hne) hle
      simp only [WorkerAt.cost, List.map_cons, List.sum_cons, Frame.cost, List.length_cons, Nat.succ_mul]
      omega
  | popped =>
      simp only [WorkerAt.cost]
      omega
  | @discarded _ _ _ v frame frames =>
      refine Nat.lt_of_succ_le (Nat.le_trans (cost_recurse_le v frame frames) ?_)
      simp only [WorkerAt.cost]
      omega
  | popFailed =>
      refine Nat.lt_of_le_of_lt (cost_raised_le _) ?_
      simp only [WorkerAt.cost]
      omega
  | @posted _ _ _ v frame frames => exact Nat.lt_of_succ_le (cost_recurse_le v frame frames)
  | postFailed =>
      refine Nat.lt_of_le_of_lt (cost_raised_le _) ?_
      simp only [WorkerAt.cost]
      omega
  | terminates => simp [WorkerAt.cost]
  | records => simp [WorkerAt.cost]
  | notified => simp [WorkerAt.cost]
  | notifyFailed => simp [WorkerAt.cost]
  | ends => simp [WorkerAt.cost]

/-- The worker waits for nothing but bytes. -/
theorem exists_workerStep
    (hread : w = .reading → ∀ b, s.stream.readAvailableDataIntoBuffer (-1) ≠ (.waiting, b))
    (hstarted : w ≠ .notStarted) (hend : w.end? = none) : ∃ r, workerStep S w s = some r := by
  cases w with
  | notStarted => exact absurd rfl hstarted
  | reading =>
      simp only [workerStep]
      split
      · exact ⟨_, rfl⟩
      · exact ⟨_, rfl⟩
      · rename_i hwaits
        exact absurd hwaits (hread rfl _)
  | dispatching frames =>
      cases frames with
      | nil => exact ⟨_, rfl⟩
      | cons frame frames =>
          obtain ⟨data, rest⟩ := frame
          cases rest with
          | nil => exact ⟨_, rfl⟩
          | cons h rest =>
              simp only [workerStep]
              split
              · exact ⟨_, rfl⟩
              · split <;> exact ⟨_, rfl⟩
  | popping fd v frame frames =>
      simp only [workerStep]
      split
      · split <;> exact ⟨_, rfl⟩
      · exact ⟨_, rfl⟩
      · rename_i hpop
        exact absurd (congrArg Prod.fst hpop) (not_waiting_popAndQueue s fd v)
  | posting fd v frame frames =>
      simp only [workerStep]
      split
      · exact ⟨_, rfl⟩
      · exact ⟨_, rfl⟩
      · rename_i hpost
        exact absurd (congrArg Prod.fst hpost) (not_waiting_post s fd)
  | caught ex =>
      simp only [workerStep]
      split <;> exact ⟨_, rfl⟩
  | notifying t rest =>
      cases rest with
      | nil => exact ⟨_, rfl⟩
      | cons h rest =>
          simp only [workerStep]
          split
          · exact ⟨_, rfl⟩
          · exact ⟨_, rfl⟩
          · rename_i hpost
            exact absurd (congrArg Prod.fst hpost) (not_waiting_post s h.fd)
  | ended t => cases hend
  | terminated e => cases hend

/-! ## Runs after the stop event -/

/-- The stop event has been posted, and nothing has been read from the socket since it was `socket`. -/
structure Stopping (socket : Socket) (m : Machine) : Prop where
  posted : 0 < m.stream.stream.stream.stopEvent
  conserved : Conserved m
  socket : m.stream.stream.stream.socket = socket

/-- A read of an unmarked socket throws the request, so every step of the worker leaves less to do. -/
theorem Stopping.worker {socket : Socket} (h : Stopping socket m)
    (hunmarked : m.worker = .reading → m.stream.stream.stream.unmarked = true)
    (hmove : WorkerMove S m.worker m.stream w s) :
    s.stream.stream.socket = socket ∧ w.cost S < m.worker.cost S := by
  by_cases hw : m.worker = .reading
  · have hun := hunmarked hw
    refine ⟨?_, hmove.cost_lt fun _ n b hread => ?_⟩
    · rw [hw] at hmove
      exact ((hmove.terminated_iff h.posted).mpr hun).2.trans h.socket
    · have hthrew := ((readAvailable_stopped_iff h.posted hread).mpr hun).1
      cases hthrew
  · exact ⟨by rw [hmove.stream_eq h.conserved.valid hw, h.socket], hmove.cost_lt fun h => absurd h hw⟩

theorem Stopping.move {socket : Socket} {a : Action} (h : Stopping socket m)
    (ha : m.readsUnmarked a = true) (hmove : Move S m a m') :
    Stopping socket m' ∧ m'.worker.cost S + (if a = .worker then 1 else 0) ≤ m.worker.cost S := by
  have hposted := Nat.lt_of_lt_of_le h.posted (stopEvent_le_of_move hmove h.conserved.valid)
  have hconserved := h.conserved.move hmove
  cases hmove with
  | worker hw =>
      have hunmarked : m.worker = .reading → m.stream.stream.stream.unmarked = true := by
        intro hreading
        simpa [Machine.readsUnmarked, hreading] using ha
      obtain ⟨hsocket, hlt⟩ := h.worker hunmarked hw
      exact ⟨⟨hposted, hconserved, hsocket⟩, hlt⟩
  | start hw => exact ⟨⟨hposted, hconserved, h.socket⟩, by simp [hw, WorkerAt.cost]⟩
  | consumer hc =>
      obtain ⟨q, k, cs, done, rfl⟩ := hc.frame
      exact ⟨⟨hposted, hconserved, h.socket⟩, Nat.le_refl _⟩
  | _ => exact ⟨⟨hposted, hconserved, h.socket⟩, Nat.le_refl _⟩

/-- The worker has not been started, has ended, or can take a step. -/
def Machine.WorkerGoes (S : Setup) (m : Machine) : Prop :=
  m.halted = true ∨ m.worker = .notStarted ∨ (∃ t, m.worker = .ended t) ∨ ∃ m', m.step S .worker = some m'

theorem Stopping.goes {socket : Socket} (h : Stopping socket m) : m.WorkerGoes S := by
  cases hhalted : m.halted with
  | true => exact .inl hhalted
  | false =>
      refine .inr ?_
      cases hend : m.worker.end? with
      | none =>
          by_cases hstarted : m.worker = .notStarted
          · exact .inl hstarted
          · obtain ⟨r, hr⟩ := exists_workerStep (S := S)
              (fun _ _ => not_waiting_of_stopped h.posted h.conserved.valid) hstarted hend
            refine .inr (.inr ⟨{ m with worker := r.1, stream := r.2 }, ?_⟩)
            simp [Machine.step, hhalted, Machine.act, hr]
      | some e =>
          cases hw : m.worker with
          | ended t => exact .inr (.inl ⟨t, rfl⟩)
          | terminated e => simp [Machine.halted, hw] at hhalted
          | _ => simp [hw, WorkerAt.end?] at hend

theorem Stopping.run {socket : Socket} {as : List Action} (h : Stopping socket m)
    (hrun : run (Machine.step S) (fun m a => m.readsUnmarked a = true) m as = some m') :
    Stopping socket m' ∧ as.count .worker ≤ m.worker.cost S := by
  obtain ⟨h', hle⟩ := countP_add_le_of_run (Stopping socket) (fun m => m.worker.cost S) (· == .worker)
    hrun h fun _ _ _ hm ha hstep => by simpa using hm.move ha (move_of_step hstep).2
  exact ⟨h', Nat.le_of_add_left_le hle⟩

end SocketWrapper
