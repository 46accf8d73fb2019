import SocketWrapper.Connection.Lemmas.Messages
import SocketWrapper.Concurrent.Lemmas.Cutting

/-!
# Segments from one end to the other

The segments that the handler of an end has been given are the first of those of what the other end has
written. If the worker finds the end of the stream, they are all of them.
-/

namespace SocketWrapper

open ConditionalBufferedStream Transition

namespace Connection

variable {S : Side → Setup} {c c' : Connection} {x : Side} {m : Machine} {d : Byte} {N : Nat} {fd : Fd}
  {condition : List Byte → Int32} {T : List Byte → List (List Byte)}
  {allowed : Connection → Action → Prop} {size writers consumers : Side → Nat}

/-! ## The threads that write -/

/-- The writers of `x` send lines of at most `N` bytes, each in one piece. -/
def OrderlyFrom (d : Byte) (N : Nat) (x : Side) (c : Connection) (a : Action) : Prop :=
  ∀ wa, a.ofWriters = some (x, wa) → (c.ends x).writers.Orderly d N wa

instance (d : Byte) (N : Nat) (x : Side) (c : Connection) (a : Action) : Decidable (OrderlyFrom d N x c a) :=
  decidable_of_iff (∀ r ∈ a.ofWriters, r.1 = x → (c.ends x).writers.Orderly d N r.2) <| by
    constructor
    · intro h wa ha
      exact h (x, wa) ha rfl
    · rintro h ⟨side, wa⟩ ha rfl
      exact h wa ha

theorem Moves.atWriters {a : Action} (h : Moves S c a c') (x : Side) :
    (c'.ends x).writers = (c.ends x).writers ∨
      ∃ wa, a.ofWriters = some (x, wa) ∧ (c.ends x).writers.step wa = some (c'.ends x).writers := by
  cases h with
  | @writes _ side wa w ha _ hw =>
      rw [writers_setMachine]
      by_cases hx : x = side
      · subst hx
        rw [ends_setWriters]
        exact .inr ⟨wa, ha, hw⟩
      · rw [ends_setWriters_of_ne hx]
        exact .inl rfl
  | polls _ _ _ => exact .inl writers_setMachine
  | other _ _ => exact .inl writers_setMachine

theorem writers_reach {P : Writers → Writers.Action → Prop}
    (hP : ∀ c a wa, allowed c a → a.ofWriters = some (x, wa) → P (c.ends x).writers wa)
    (h : Reach (step S) allowed (start S size writers consumers) c) :
    Reach Writers.step P (.start (writers x)) (c.ends x).writers := by
  induction h with
  | refl => exact .refl
  | tail _ ha hstep ih =>
      rcases (moves_of_step hstep).atWriters x with hsame | ⟨wa, hwa, hw⟩
      · rw [hsame]
        exact ih
      · exact ih.tail (hP _ _ wa ha hwa) hw

theorem inTurn_of_reach (h : Reach (step S) (OrderlyFrom d N x) (start S size writers consumers) c) :
    ∃ part, (c.ends x).writers.InTurn d N part :=
  Writers.InTurn.of_reach (writers_reach (fun _ _ wa ha hwa => ha wa hwa) h)

/-! ## What is handed over -/

/-- The segments that have been taken off the buffer of an end, in order. -/
def removed (c : Connection) (x : Side) : List (List Byte) :=
  (c.ends x).machine.stream.removals.map Removal.segment

/-- The segments that the consumers of a handler have been given and those that wait for them. -/
def handed (c : Connection) (x : Side) (fd : Fd) : List (List Byte) :=
  returnedIn (c.ends x).machine.completions fd ++ (c.ends x).machine.stream.queue fd

theorem sent_eq (h : Reach (step S) allowed (start S size writers consumers) c) (x : Side) :
    c.sent x.other = (c.removed x).flatten ++ (c.ends x).machine.stream.contents ++ c.unread x ∧
      ∀ fd, c.handed x fd = delivered fd (c.ends x).machine.stream.removals := by
  obtain ⟨answers, hreach⟩ := end_reach (x := x) (P := fun _ => True) trivial (fun _ _ _ => trivial) h
  have hconserved := Conserved.of_reach hreach
  constructor
  · rw [removed, hconserved.bytes]
    exact (received_of_reach hreach).symm
  · exact hconserved.queue

theorem cut_of_reach (hS : (S x).handlers = [pureHandler condition fd])
    (hcuts : CutsOff condition T (size x))
    (h : Reach (step S) allowed (start S size writers consumers) c) :
    Cut (S x) condition T fd (size x) (c.ends x).machine.stream (c.ends x).machine.worker := by
  obtain ⟨answers, hreach⟩ := end_reach (x := x) (P := fun _ => True) trivial (fun _ _ _ => trivial) h
  exact .of_reach hS hcuts hreach

/-- The segments of what has been sent are those handed over and those of the rest. -/
theorem segments_eq (hS : (S x).handlers = [pureHandler condition fd])
    (hcuts : CutsOff condition T (size x))
    (h : Reach (step S) allowed (start S size writers consumers) c) :
    c.handed x fd ++ T ((c.ends x).machine.stream.contents ++ c.unread x) = T (c.sent x.other) := by
  obtain ⟨answers, hreach⟩ := end_reach (x := x) (P := fun _ => True) trivial (fun _ _ _ => trivial) h
  have hreceived : (c.ends x).machine.stream.stream.received ++ c.unread x = c.sent x.other :=
    received_of_reach hreach
  rw [(sent_eq h x).2 fd, (cut_of_reach hS hcuts h).segments, hreceived]

theorem handed_first (hS : (S x).handlers = [pureHandler condition fd])
    (hcuts : CutsOff condition T (size x))
    (h : Reach (step S) allowed (start S size writers consumers) c) :
    c.handed x fd <+: T (c.sent x.other) := by
  rw [← segments_eq hS hcuts h]
  exact List.prefix_append _ _

/-- A buffer that the condition can do nothing with has room left. -/
theorem length_contents_ne (h : Reach (step S) allowed (start S size writers consumers) c)
    (hroom : Roomy condition (size x) (c.sent x.other))
    (hspent : Spent condition (c.ends x).machine.stream.contents) :
    (c.ends x).machine.stream.contents.length ≠ size x := by
  intro hfull
  refine hroom _ ⟨(c.removed x).flatten, c.unread x, ?_⟩ hfull hspent
  exact (sent_eq h x).1.symm

/-! ## The end of the stream -/

end Connection

/-- The exception that has ended the worker's loop, if one has that its `catch` block is for. -/
def WorkerAt.failure? : WorkerAt → Option SocketExceptionType
  | .caught ex => some ex.exceptionType
  | .notifying t _ => some t
  | .ended t => some t
  | _ => none

theorem Cutting.spent_of_failure {S : Setup} {s : ConditionalBufferedStream} {w : WorkerAt}
    {condition : List Byte → Int32} {fd : Fd} {t : SocketExceptionType} (h : Cutting S condition fd s w) (ht : t ≠ .SOCKET_WRITE)
    (hw : w.failure? = some t) : Spent condition s.contents := by
  cases w with
  | caught ex =>
      obtain rfl := Option.some.inj hw
      exact h ht
  | notifying t rest =>
      obtain rfl := Option.some.inj hw
      exact h ht
  | ended t =>
      obtain rfl := Option.some.inj hw
      exact h ht
  | _ => cases hw

theorem readable_of_closed {b b' : BufferedStream} {a : Answer} {e : SocketException}
    (hanswers : b.stream.answers = [a]) (ht : e.exceptionType = .SOCKET_CLOSED)
    (h : b.readAvailableDataIntoBuffer (-1) = (.threw (.socket e), b')) : ∃ available, a = .readable available := by
  rcases b with ⟨⟨socket, stopEvent, answers⟩, size, block, offset⟩
  obtain rfl : answers = [a] := hanswers
  cases a with
  | readable available => exact ⟨available, rfl⟩
  | pollFails errno =>
      simp [BufferedStream.readAvailableDataIntoBuffer, Stream.read, Stream.readLoop] at h
      simp [← h.1] at ht
  | readFails errno =>
      simp [BufferedStream.readAvailableDataIntoBuffer, Stream.read, Stream.readLoop] at h
      simp [← h.1] at ht
  | quiet =>
      by_cases hstop : 0 < stopEvent
      · simp [BufferedStream.readAvailableDataIntoBuffer, Stream.read, Stream.readLoop, hstop] at h
        simp [← h.1] at ht
      · simp [BufferedStream.readAvailableDataIntoBuffer, Stream.read, Stream.readLoop, hstop] at h

theorem failure_of_dispatch {e : Exception} (h : ThrownByDispatch e) :
    (WorkerAt.raised e).failure? ≠ some .SOCKET_CLOSED := by
  cases h with
  | write errno => simp [WorkerAt.raised, WorkerAt.failure?]
  | tooMuchData => simp [WorkerAt.raised, WorkerAt.failure?, tooMuchData]
  | outOfRange what => simp [WorkerAt.raised, WorkerAt.failure?]

/-- A step other than a read does not find the end of the stream, and after it the buffer stays as it is. -/
theorem WorkerMove.found {S : Setup} {w w' : WorkerAt} {s s' : ConditionalBufferedStream}
    (h : WorkerMove S w s w' s') (hw : w ≠ .reading) (hfound : w'.failure? = some .SOCKET_CLOSED) :
    w.failure? = some .SOCKET_CLOSED ∧ s'.stream = s.stream := by
  cases h with
  | filled _ => exact absurd rfl hw
  | readFailed _ => exact absurd rfl hw
  | refused _ => exact absurd hfound (failure_of_dispatch .tooMuchData)
  | @popFailed _ _ fd v _ _ e hpop =>
      have hthrown := throws_popAndQueue s fd v e (by rw [hpop])
      exact absurd hfound (failure_of_dispatch hthrown)
  | @postFailed _ _ fd _ _ _ e hpost =>
      have hthrown := throws_post (S := S) s fd e (by rw [hpost])
      exact absurd hfound (failure_of_dispatch hthrown)
  | terminates _ => exact ⟨hfound, rfl⟩
  | records _ => exact ⟨hfound, rfl⟩
  | @notified _ s'' _ hd _ hpost =>
      have hkept := stream_post (S := S) s hd.fd
      rw [hpost] at hkept
      exact ⟨hfound, hkept⟩
  | ends => exact ⟨hfound, rfl⟩
  | _ => cases hfound

theorem found_of_step {S : Setup} {m m' : Machine} {a : Action} (ha : a = .worker → m.worker ≠ .reading)
    (h : m.step S a = some m') (hfound : m'.worker.failure? = some .SOCKET_CLOSED) :
    m.worker.failure? = some .SOCKET_CLOSED ∧ m'.stream.contents = m.stream.contents ∧
      m'.stream.stream.streamBufferSize = m.stream.stream.streamBufferSize := by
  cases (move_of_step h).2 with
  | start _ => cases hfound
  | worker hmove =>
      obtain ⟨hbefore, hkept⟩ := hmove.found (ha rfl) hfound
      exact ⟨hbefore, congrArg BufferedStream.contents hkept, congrArg BufferedStream.streamBufferSize hkept⟩
  | consumer hmove =>
      obtain ⟨q, k, cs, done, rfl⟩ := hmove.frame
      exact ⟨hfound, rfl, rfl⟩
  | _ => exact ⟨hfound, rfl, rfl⟩

namespace Connection

variable {S : Side → Setup} {c c' : Connection} {x : Side} {d : Byte} {N : Nat} {fd : Fd}
  {condition : List Byte → Int32} {T : List Byte → List (List Byte)}
  {allowed : Connection → Action → Prop} {size writers consumers : Side → Nat}

/-- If the worker has found the end of the stream, its buffer was full or the other end is gone and all that
it has sent has been read. -/
def EndFound (x : Side) (c : Connection) : Prop :=
  (c.ends x).machine.worker.failure? = some .SOCKET_CLOSED →
    (c.ends x).machine.stream.contents.length = (c.ends x).machine.stream.stream.streamBufferSize ∨
      (c.unread x = [] ∧ c.closed x.other = true)

theorem EndFound.polls {answer : Answer} {m : Machine} (hsettled : c.Settled)
    (hv : (c.ends x).machine.stream.stream.Valid) (hw : (c.ends x).machine.worker = .reading)
    (hfind : c.CanFind x answer)
    (hstep : ((c.ends x).machine.fed [.inr answer]).step (S x) .worker = some m) :
    EndFound x (c.setMachine x m) := by
  intro hfound
  rw [closed_setMachine_of_ne (Side.other_ne x)]
  simp only [unread, ends_setMachine] at hfound ⊢
  have hanswers := hsettled.fed x answer
  have hunread : ((c.ends x).machine.fed [.inr answer]).stream.stream.stream.socket.unread = c.unread x :=
    List.append_nil _
  cases (move_of_step hstep).2 with
  | @worker w s hmove =>
      rw [worker_fed, hw] at hmove
      cases hmove with
      | filled _ => cases hfound
      | @readFailed _ b e hread =>
          have hr := BufferedStream.refill (b := ((c.ends x).machine.fed [.inr answer]).stream.stream)
            ⟨hv.length_eq, hv.offset_le⟩ (-1)
          rw [hread] at hr
          cases hr with
          | closed hkept hend hcontents hleft _ =>
              obtain ⟨available, rfl⟩ := readable_of_closed hanswers rfl hread
              rcases hend with hfull | hnone
              · exact .inl ((congrArg List.length hcontents).trans (hfull.trans hkept.size.symm))
              · rw [hunread] at hnone
                refine .inr ⟨hleft.trans (hunread.trans hnone), ?_⟩
                rcases hfind with hlt | ⟨-, hclosed⟩
                · simp [hnone] at hlt
                · exact hclosed
          | failed _ _ _ hfails =>
              cases hfails <;> simp [WorkerAt.raised, WorkerAt.failure?] at hfound

theorem EndFound.moves {a : Action} (h : EndFound x c) (hsettled : c.Settled)
    (hv : (c.ends x).machine.stream.stream.Valid) (hmove : Moves S c a c') : EndFound x c' := by
  cases hmove with
  | @writes _ side wa w _ hopen hw =>
      rcases Side.eq_or_eq_other side x with rfl | rfl
      · intro hfound
        rw [ends_setMachine_of_ne (Side.ne_other x), ends_setWriters] at hfound ⊢
        simpa [unread, closed, ends_setMachine_of_ne (Side.ne_other x)] using h hfound
      · intro hfound
        have hbefore := h (by simpa using hfound)
        rcases hbefore with hfull | ⟨-, hclosed⟩
        · left
          rw [ends_setMachine]
          exact hfull
        · simp [hopen] at hclosed
  | @polls side answer m hw hfind hstep =>
      rcases Side.eq_or_eq_other side x with rfl | rfl
      · exact .polls hsettled hv hw hfind hstep
      · have hopen : c.closed side = false := (move_of_step hstep).1
        intro hfound
        simp only [unread, ends_setMachine_of_ne (Side.other_ne side)] at hfound ⊢
        rcases h hfound with hfull | ⟨-, hclosed⟩
        · exact .inl hfull
        · simp [hopen] at hclosed
  | @other side a m hw hstep =>
      have hopen : c.closed side = false := (move_of_step hstep).1
      rcases Side.eq_or_eq_other side x with rfl | rfl
      · intro hfound
        rw [closed_setMachine_of_ne (Side.other_ne x)]
        simp only [unread, ends_setMachine] at hfound ⊢
        obtain ⟨hbefore, hcontents, hsize⟩ := found_of_step hw hstep hfound
        rw [hcontents, hsize, (socket_of_step hw hstep).1]
        exact h hbefore
      · intro hfound
        simp only [unread, ends_setMachine_of_ne (Side.other_ne side)] at hfound ⊢
        rcases h hfound with hfull | ⟨-, hclosed⟩
        · exact .inl hfull
        · simp [hopen] at hclosed

theorem valid_of_reach (h : Reach (step S) allowed (start S size writers consumers) c) (x : Side) :
    (c.ends x).machine.stream.stream.Valid := by
  obtain ⟨answers, hreach⟩ := end_reach (x := x) (P := fun _ => True) trivial (fun _ _ _ => trivial) h
  exact (Conserved.of_reach hreach).valid

theorem EndFound.of_reach (h : Reach (step S) allowed (start S size writers consumers) c) : EndFound x c :=
  h.invariant_of (P := EndFound x) (fun hfound => by cases hfound)
    (fun _ hr => And.intro (Settled.of_reach hr) (valid_of_reach hr x))
    fun _ _ _ ⟨hsettled, hv⟩ hend _ hstep => hend.moves hsettled hv (moves_of_step hstep)

/-- A worker that has found the end of the stream has handed over everything. -/
theorem handed_of_found (hS : (S x).handlers = [pureHandler condition fd])
    (hcuts : CutsOff condition T (size x))
    (h : Reach (step S) allowed (start S size writers consumers) c)
    (hroom : Roomy condition (size x) (c.sent x.other))
    (hfound : (c.ends x).machine.worker.failure? = some .SOCKET_CLOSED) :
    c.handed x fd = T (c.sent x.other) ∧ c.closed x.other = true := by
  have hcut := cut_of_reach hS hcuts h
  have hspent : Spent condition (c.ends x).machine.stream.contents :=
    hcut.place.spent_of_failure (by simp) hfound
  rcases EndFound.of_reach h hfound with hfull | ⟨hnone, hclosed⟩
  · rw [hcut.size] at hfull
    exact absurd hfull (length_contents_ne h hroom hspent)
  · refine ⟨?_, hclosed⟩
    rw [← segments_eq hS hcuts h, hnone, List.append_nil, hcuts.of_spent hcut.length_contents hspent,
      List.append_nil]

/-! ## Lines -/

/-- The messages of `x` whose calls have returned. -/
def accepted (c : Connection) (x : Side) : List (List Byte) := (c.ends x).writers.accepted

theorem lines_sent {y : Side} (h : Reach (step S) (OrderlyFrom d N y) (start S size writers consumers) c) :
    (Delimited.splitAfter d (c.sent y)).1 = c.accepted y := by
  obtain ⟨part, hturn⟩ := inTurn_of_reach h
  exact congrArg Prod.fst hturn.splitAfter

theorem roomy_sent {y : Side} (hpos : 0 < N) (hN : N < 2 ^ 31)
    (h : Reach (step S) (OrderlyFrom d N y) (start S size writers consumers) c) :
    Roomy (getDelimiterCondition d) N (c.sent y) := by
  obtain ⟨part, hturn⟩ := inTurn_of_reach h
  have hsplit : Delimited.splitAfter d (c.sent y) = (c.accepted y, part) := hturn.splitAfter
  refine roomy_delimiter hN ?_ ?_
  · rw [hsplit]
    exact fun s hs => (hturn.accepted s hs).2
  · rw [hsplit]
    rcases hturn.part_clean.2 with hnil | hlt
    · rw [hnil]
      exact hpos
    · exact hlt

end Connection

end SocketWrapper
