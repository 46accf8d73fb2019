import SocketWrapper.Concurrent.Lemmas.Moves

/-!
# No byte is lost

What each step does to the bytes: the socket hands some over, the buffer loses some at its front, and
`read` takes segments off the front of a queue.
-/

namespace SocketWrapper

open ConditionalBufferedStream

variable {S : Setup} {s s' : ConditionalBufferedStream} {w w' : WorkerAt} {m m' : Machine} {fd : Fd}
  {allowed : Machine → Action → Prop} {size : Nat} {bytes : List Byte} {answers : List Answer} {consumers : Nat}

/-! ## The worker -/

/-- The bytes `new` have come from the socket and the segments `rs` have left the buffer. No descriptor
has been closed, and no entry of the map, evaluation or failure token has gone. -/
structure Flow (s : ConditionalBufferedStream) (new : List Byte) (rs : List Removal)
    (s' : ConditionalBufferedStream) : Prop where
  valid : s'.stream.Valid
  received : s'.stream.received = s.stream.received ++ new
  removals : s'.removals = s.removals ++ rs
  bytes : (rs.map Removal.segment).flatten ++ s'.contents = s.contents ++ new
  queue : ∀ fd, s'.queue fd = s.queue fd ++ delivered fd rs
  closed : s'.eventFds.closed = s.eventFds.closed
  registered : ∀ fd, (s.receivedDataPerCondition fd).isSome → (s'.receivedDataPerCondition fd).isSome
  evaluations : s.evaluations <+: s'.evaluations
  tokens : ∀ fd, s.failureTokens fd ≤ s'.failureTokens fd
  terminationRequested : s'.terminationRequested = s.terminationRequested

theorem Flow.of_extends {rs : List Removal} (h : Extends s rs s') : Flow s [] rs s' where
  valid := h.valid
  received := by rw [BufferedStream.received, h.socket, List.append_nil, BufferedStream.received]
  removals := h.removals
  bytes := by rw [h.bytes, List.append_nil]
  queue := h.queue
  closed := h.closed
  registered := h.registered
  evaluations := h.evaluations
  tokens := fun fd => Nat.le_of_eq (congrFun h.failureTokens fd).symm
  terminationRequested := h.terminationRequested

theorem Flow.refl (hv : s.stream.Valid) : Flow s [] [] s := .of_extends (.refl hv)

theorem Flow.of_post (hv : s.stream.Valid) {o : Outcome Unit} (hpost : s.post S fd = (o, s')) :
    Flow s [] [] s' :=
  .of_extends (.of_post hv hpost)

theorem Flow.of_popAndQueue (hv : s.stream.Valid) {v : Int32} {o : Outcome Unit}
    (hpop : s.popAndQueue fd v = (o, s')) : ∃ rs, Flow s [] rs s' := by
  obtain ⟨rs, hext⟩ := Extends.of_popAndQueue hv hpop
  exact ⟨rs, .of_extends hext⟩

theorem Flow.of_read (hv : s.stream.Valid) {o : Outcome Nat} {b : BufferedStream}
    (hread : s.stream.readAvailableDataIntoBuffer (-1) = (o, b)) :
    ∃ new, Flow s new [] { s with stream := b } := by
  have hrefill := BufferedStream.refill hv (-1)
  rw [hread] at hrefill
  have hsame : ∀ {new : List Byte}, b.Valid → b.received = s.stream.received ++ new →
      b.contents = s.stream.contents ++ new → Flow s new [] { s with stream := b } :=
    fun hv hreceived hcontents => ⟨hv, hreceived, (List.append_nil _).symm, hcontents,
      fun _ => (List.append_nil _).symm, rfl, fun _ h => h, List.prefix_rfl, fun _ => Nat.le_refl _,
      rfl⟩
  cases hrefill with
  | @data _ new hr _ _ hcontents _ hcalls _ =>
      exact ⟨new, hsame hr.valid (BufferedStream.received_of_calls hcalls) hcontents⟩
  | closed hr _ hcontents _ hcalls =>
      exact ⟨[], hsame hr.valid (BufferedStream.received_of_calls hcalls)
        (by rw [hcontents, List.append_nil])⟩
  | failed hr hcontents hsocket _ =>
      refine ⟨[], hsame hr.valid ?_ (by rw [hcontents, List.append_nil])⟩
      rw [BufferedStream.received, hsocket, List.append_nil, BufferedStream.received]
  | waiting hr hcontents hsocket _ _ _ =>
      refine ⟨[], hsame hr.valid ?_ (by rw [hcontents, List.append_nil])⟩
      rw [BufferedStream.received, hsocket, List.append_nil, BufferedStream.received]

theorem WorkerMove.flow (h : WorkerMove S w s w' s') (hv : s.stream.Valid) :
    ∃ new rs, Flow s new rs s' := by
  cases h with
  | filled hread =>
      obtain ⟨new, hflow⟩ := Flow.of_read hv hread
      exact ⟨new, [], hflow⟩
  | readFailed hread =>
      obtain ⟨new, hflow⟩ := Flow.of_read hv hread
      exact ⟨new, [], hflow⟩
  | drained => exact ⟨[], [], .refl hv⟩
  | returned => exact ⟨[], [], .refl hv⟩
  | refused _ => exact ⟨[], [], .of_extends (.evaluate hv _ _)⟩
  | skipped _ => exact ⟨[], [], .of_extends (.evaluate hv _ _)⟩
  | matched _ _ => exact ⟨[], [], .of_extends (.evaluate hv _ _)⟩
  | popped hpop _ => exact ⟨[], Flow.of_popAndQueue hv hpop⟩
  | discarded hpop _ => exact ⟨[], Flow.of_popAndQueue hv hpop⟩
  | popFailed hpop => exact ⟨[], Flow.of_popAndQueue hv hpop⟩
  | posted hpost => exact ⟨[], [], .of_post hv hpost⟩
  | postFailed hpost => exact ⟨[], [], .of_post hv hpost⟩
  | terminates _ => exact ⟨[], [], .refl hv⟩
  | records _ =>
      have hflow := Flow.refl hv
      exact ⟨[], [], hv, hflow.received, hflow.removals, hflow.bytes, hflow.queue, rfl, fun _ h => h,
        List.prefix_rfl, hflow.tokens, rfl⟩
  | notified hpost =>
      have hflow := Flow.of_post hv hpost
      refine ⟨[], [], hflow.valid, hflow.received, hflow.removals, hflow.bytes, hflow.queue,
        hflow.closed, hflow.registered, hflow.evaluations, fun fd => Nat.le_trans (hflow.tokens fd) ?_,
        hflow.terminationRequested⟩
      simp only [Function.update_apply]
      split
      · rename_i hfd
        rw [hfd]
        exact Nat.le_succ _
      · exact Nat.le_refl _
  | notifyFailed hpost => exact ⟨[], [], .of_post hv hpost⟩
  | ends => exact ⟨[], [], .refl hv⟩

/-! ## `read` -/

/-- The stream after the first segment has been taken off the queue of `fd`. -/
def dequeued (s : ConditionalBufferedStream) (fd : Fd) (rest : List (List Byte)) :
    ConditionalBufferedStream :=
  { s with receivedDataPerCondition := Function.update s.receivedDataPerCondition fd (some rest) }

@[simp] theorem queue_dequeued_self (s : ConditionalBufferedStream) (fd : Fd) (rest : List (List Byte)) :
    (dequeued s fd rest).queue fd = rest := by
  simp [dequeued, queue]

@[simp] theorem removals_dequeued (s : ConditionalBufferedStream) (fd : Fd) (rest : List (List Byte)) :
    (dequeued s fd rest).removals = s.removals := rfl

theorem queue_dequeued_of_ne {fd' : Fd} (hne : fd' ≠ fd) (s : ConditionalBufferedStream)
    (rest : List (List Byte)) : (dequeued s fd rest).queue fd' = s.queue fd' := by
  simp [dequeued, queue, hne]

/-- The results of `read`. -/
inductive ReadCases (s : ConditionalBufferedStream) (fd : Fd) :
    Outcome (List Byte) × ConditionalBufferedStream → Prop
  | segment {data : List Byte} {rest : List (List Byte)} :
      s.queue fd = data :: rest → ReadCases s fd (.returned data, dequeued s fd rest)
  | failed : s.queue fd = [] → s.lastEx ≠ .SOCKET_OK →
      ReadCases s fd (.threw (.socket (.ofType s.lastEx)), s)
  | nothing {what : String} : s.queue fd = [] → s.lastEx = .SOCKET_OK →
      ReadCases s fd (.threw (.outOfRange what), s)
  | invalid : s.queue fd = [] → s.receivedDataPerCondition fd = none →
      ReadCases s fd (.threw (.socket (.ofType .SOCKET_INVALID_CONDITION)), s)

theorem read_cases (s : ConditionalBufferedStream) (fd : Fd) : ReadCases s fd (s.read fd) := by
  rw [ConditionalBufferedStream.read]
  split
  · rename_i hnone
    exact .invalid (by simp [queue, hnone]) hnone
  · rename_i data rest hsome
    exact .segment (by simp [queue, hsome])
  · rename_i hsome
    have hempty : s.queue fd = [] := by simp [queue, hsome]
    split
    · rename_i hlast
      exact .failed hempty hlast
    · rename_i hlast
      exact .nothing hempty (by simpa using hlast)

theorem snd_read (s : ConditionalBufferedStream) (fd : Fd) :
    ∃ q, (s.read fd).2 = { s with receivedDataPerCondition := q } := by
  have h := read_cases s fd
  generalize s.read fd = r at h ⊢
  cases h <;> exact ⟨_, rfl⟩

/-- A step of a consumer changes nothing of the stream but the queues and the counters. -/
theorem ConsumerMove.frame {c : Nat} {a : ConsumerAction} (h : ConsumerMove m c a m') :
    ∃ q k cs done, m' = { m with
      stream := { m.stream with
        receivedDataPerCondition := q
        eventFds := { m.stream.eventFds with counter := k } }
      consumers := cs
      completions := done } := by
  cases h with
  | takes => exact ⟨_, _, _, _, rfl⟩
  | @pops fd token _ =>
      obtain ⟨q, hq⟩ := snd_read m.stream fd
      rw [hq]
      exact ⟨q, _, _, _, rfl⟩
  | _ => exact ⟨_, _, _, _, rfl⟩

/-! ## The machine -/

/-- The segment that the call returned, if it did and was made on `fd`. -/
def Completion.returned (c : Completion) (fd : Fd) : Option (List Byte) :=
  if c.fd = fd then
    match c.outcome with
    | .returned data => some data
    | _ => none
  else none

/-- The segments that the calls on `fd` have returned, in order. -/
def returnedIn (cs : List Completion) (fd : Fd) : List (List Byte) :=
  cs.filterMap (fun c => c.returned fd)

@[simp] theorem returnedIn_append (cs cs' : List Completion) (fd : Fd) :
    returnedIn (cs ++ cs') fd = returnedIn cs fd ++ returnedIn cs' fd := by
  simp [returnedIn]

@[simp] theorem returnedIn_threw (c : Nat) (fd fd' : Fd) (token : Bool) (e : Exception) :
    returnedIn [⟨c, fd, token, .threw e⟩] fd' = [] := by
  simp [returnedIn, Completion.returned]

@[simp] theorem returnedIn_returned (c : Nat) (fd : Fd) (token : Bool) (data : List Byte) :
    returnedIn [⟨c, fd, token, .returned data⟩] fd = [data] := by
  simp [returnedIn, Completion.returned]

theorem returnedIn_of_ne {c : Completion} (hne : fd ≠ c.fd) : returnedIn [c] fd = [] := by
  simp [returnedIn, Completion.returned, hne.symm]

/-- The bytes received are those removed and those in the buffer, and the segments delivered to a
handler are those returned and those in its queue. -/
structure Conserved (m : Machine) : Prop where
  valid : m.stream.stream.Valid
  bytes : (m.stream.removals.map Removal.segment).flatten ++ m.stream.contents = m.stream.stream.received
  queue : ∀ fd, returnedIn m.completions fd ++ m.stream.queue fd = delivered fd m.stream.removals

theorem Conserved.worker (h : Conserved m) (hmove : WorkerMove S m.worker m.stream w s) :
    Conserved { m with worker := w, stream := s } := by
  obtain ⟨new, rs, hflow⟩ := hmove.flow h.valid
  refine ⟨hflow.valid, ?_, fun fd => ?_⟩
  · show (s.removals.map Removal.segment).flatten ++ s.contents = s.stream.received
    rw [hflow.received, ← h.bytes, hflow.removals, List.map_append, List.flatten_append,
      List.append_assoc, hflow.bytes, List.append_assoc]
  · show returnedIn m.completions fd ++ s.queue fd = delivered fd s.removals
    rw [hflow.queue, hflow.removals, delivered_append, ← h.queue, List.append_assoc]

theorem Conserved.threw (h : Conserved m) (c : Nat) (fd : Fd) (token : Bool) (e : Exception) :
    Conserved (m.complete c fd token (.threw e)) :=
  ⟨h.valid, h.bytes, fun fd' => by simpa using h.queue fd'⟩

theorem Conserved.pops (h : Conserved m) (c : Nat) (fd : Fd) (token : Bool) :
    Conserved ({ m with stream := (m.stream.read fd).2 }.complete c fd token (m.stream.read fd).1) := by
  have hread := read_cases m.stream fd
  generalize m.stream.read fd = r at hread ⊢
  cases hread with
  | @segment data rest hqueue =>
      refine ⟨h.valid, h.bytes, fun fd' => ?_⟩
      have hall := h.queue fd'
      by_cases hfd : fd' = fd
      · subst hfd
        rw [hqueue] at hall
        simpa using hall
      · have hother := returnedIn_of_ne (c := ⟨c, fd, token, .returned data⟩) hfd
        simpa [queue_dequeued_of_ne hfd, hother] using hall
  | failed => exact h.threw c fd token _
  | nothing => exact h.threw c fd token _
  | invalid => exact h.threw c fd token _

theorem Conserved.consumer {c : Nat} {a : ConsumerAction} (h : Conserved m)
    (hmove : ConsumerMove m c a m') : Conserved m' := by
  cases hmove with
  | calls => exact ⟨h.valid, h.bytes, h.queue⟩
  | callsRead => exact ⟨h.valid, h.bytes, h.queue⟩
  | ready => exact ⟨h.valid, h.bytes, h.queue⟩
  | expires => exact ⟨h.valid, h.bytes, h.queue⟩
  | fails => exact h.threw c _ _ _
  | throws => exact h.threw c _ _ _
  | takesNothing => exact ⟨h.valid, h.bytes, h.queue⟩
  | takes => exact ⟨h.valid, h.bytes, h.queue⟩
  | pops => exact h.pops c _ _

theorem Conserved.move {a : Action} (h : Conserved m) (hmove : Move S m a m') : Conserved m' := by
  cases hmove with
  | start => exact ⟨h.valid, h.bytes, h.queue⟩
  | worker hw => exact h.worker hw
  | consumer hc => exact h.consumer hc
  | stopReads => exact ⟨h.valid, h.bytes, h.queue⟩
  | stopStream => exact ⟨⟨h.valid.length_eq, h.valid.offset_le⟩, h.bytes, h.queue⟩
  | destructs => exact ⟨h.valid, h.bytes, h.queue⟩
  | closes => exact ⟨h.valid, h.bytes, h.queue⟩
  | stops => exact ⟨⟨h.valid.length_eq, h.valid.offset_le⟩, h.bytes, h.queue⟩
  | joinFails => exact ⟨h.valid, h.bytes, h.queue⟩
  | joins => exact ⟨h.valid, h.bytes, h.queue⟩

/-- The stream on a connection, with a number of consumers, before `start()`. -/
def Machine.connected (S : Setup) (size : Nat) (bytes : List Byte) (answers : List Answer)
    (consumers : Nat) : Machine :=
  .init (ConditionalBufferedStream.connected S size bytes 0 answers) consumers

theorem queue_connected (S : Setup) (size : Nat) (bytes : List Byte) (stopEvent : Nat)
    (answers : List Answer) (fd : Fd) : (connected S size bytes stopEvent answers).queue fd = [] := by
  simp only [ConditionalBufferedStream.queue, connected, make]
  split <;> rfl

theorem Conserved.connected (size : Nat) (bytes : List Byte) (answers : List Answer)
    (consumers : Nat) : Conserved (.connected S size bytes answers consumers) where
  valid := .make ⟨⟨bytes, []⟩, 0, answers⟩ size
  bytes := BufferedStream.contents_make ⟨⟨bytes, []⟩, 0, answers⟩ size
  queue := fun fd => queue_connected S size bytes 0 answers fd

theorem Conserved.of_reach
    (h : Transition.Reach (Machine.step S) allowed (.connected S size bytes answers consumers) m) :
    Conserved m :=
  h.invariant (.connected size bytes answers consumers)
    fun _ _ _ hm _ hstep => hm.move (move_of_step hstep).2

/-! ## The entries of the map -/

theorem ConsumerMove.registered {c : Nat} {a : ConsumerAction} (h : ConsumerMove m c a m')
    (hsome : (m.stream.receivedDataPerCondition fd).isSome) :
    (m'.stream.receivedDataPerCondition fd).isSome := by
  cases h with
  | @pops fd' token _ =>
      have hread := read_cases m.stream fd'
      generalize m.stream.read fd' = r at hread ⊢
      cases hread with
      | segment =>
          simp only [Machine.stream_complete, dequeued, Function.update_apply]
          split
          · rfl
          · exact hsome
      | _ => exact hsome
  | _ => exact hsome

/-- The map has an entry for every handler. -/
def HasEntries (S : Setup) (m : Machine) : Prop :=
  ∀ fd, S.Registered fd → (m.stream.receivedDataPerCondition fd).isSome

theorem HasEntries.of_reach
    (h : Transition.Reach (Machine.step S) allowed (.connected S size bytes answers consumers) m) :
    HasEntries S m := by
  have h₀ : HasEntries S (.connected S size bytes answers consumers) := fun fd hfd => by
    have hsome : (connected S size bytes 0 answers).receivedDataPerCondition fd = some [] := if_pos hfd
    exact hsome ▸ rfl
  refine h.invariant_of (P := HasEntries S) h₀ (fun _ hr => Conserved.of_reach hr)
    fun m a m' hq hm _ hstep => ?_
  cases (move_of_step hstep).2 with
  | worker hw =>
      obtain ⟨new, rs, hflow⟩ := hw.flow hq.valid
      exact fun fd hfd => hflow.registered fd (hm fd hfd)
  | consumer hc => exact fun fd hfd => hc.registered (hm fd hfd)
  | _ => exact hm

end SocketWrapper
