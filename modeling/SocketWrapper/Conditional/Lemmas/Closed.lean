import SocketWrapper.Conditional.Lemmas.Worker
import SocketWrapper.Base.Lemmas.EndOfStream

/-!
# When the worker records `SOCKET_CLOSED`

The dispatch never throws it, so it comes from the read that begins the round.
-/

namespace SocketWrapper

namespace ConditionalBufferedStream

variable {S : Setup} {s s' : ConditionalBufferedStream} {fd : Fd}

/-! ## The exceptions of the dispatch -/

/-- What `processDataSendSignals` can throw. -/
inductive ThrownByDispatch : Exception → Prop
  | write (errno : Nat) : ThrownByDispatch (.socket (.withErrno .SOCKET_WRITE errno))
  | tooMuchData : ThrownByDispatch tooMuchData
  | outOfRange (what : String) : ThrownByDispatch (.outOfRange what)

theorem throws_post (s : ConditionalBufferedStream) (fd : Fd) :
    Outcome.Throws ThrownByDispatch (s.post S fd) := by
  intro e he
  obtain ⟨⟨errno, rfl⟩, -⟩ := of_post_threw (S := S) (Prod.ext he rfl : s.post S fd = (.threw e, _))
  exact .write errno

theorem throws_popAndQueue (s : ConditionalBufferedStream) (fd : Fd) (v : Int32) :
    Outcome.Throws ThrownByDispatch (s.popAndQueue fd v) := by
  refine Outcome.Throws.andThen ?_ fun _ s e he => by cases he
  intro e he
  rw [onStream, BufferedStream.popFromBuffer] at he
  split at he
  · cases he
    exact .outOfRange _
  · cases he

theorem throws_serve (data : List Byte)
    {recur : List Byte → ConditionalBufferedStream → Outcome Unit × ConditionalBufferedStream}
    (hrec : ∀ d s, Outcome.Throws ThrownByDispatch (recur d s)) (s : ConditionalBufferedStream)
    (fd : Fd) (v : Int32) : Outcome.Throws ThrownByDispatch (serve S recur data s fd v) := by
  refine (throws_popAndQueue s fd v).andThen fun _ s => Outcome.Throws.andThen ?_ fun _ s => hrec _ s
  rw [postIfQueued]
  split
  · exact throws_post s fd
  · exact fun e he => by cases he

theorem throws_dispatchHandlers (data : List Byte)
    {recur : List Byte → ConditionalBufferedStream → Outcome Unit × ConditionalBufferedStream}
    (hrec : ∀ d s, Outcome.Throws ThrownByDispatch (recur d s)) (rest : List BufferEventHandler)
    (s : ConditionalBufferedStream) :
    Outcome.Throws ThrownByDispatch (dispatchHandlers S recur data rest s) := by
  induction rest generalizing s with
  | nil => exact fun e he => by cases he
  | cons h rest ih =>
      rw [dispatchHandlers_cons]
      split
      · intro e he
        cases he
        exact .tooMuchData
      · split
        · exact ih _
        · exact (throws_serve data hrec _ _ _).andThen fun _ s => ih s

theorem throws_processToDepth (depth : Nat) (data : List Byte) (s : ConditionalBufferedStream) :
    Outcome.Throws ThrownByDispatch (processToDepth S depth data s) := by
  induction depth generalizing data s with
  | zero => exact fun e he => by cases he
  | succ depth ih =>
      rw [processToDepth]
      split
      · exact fun e he => by cases he
      · exact throws_dispatchHandlers data ih _ s

theorem not_closed_processDataSendSignals (data : List Byte) (s : ConditionalBufferedStream) :
    ¬ (s.processDataSendSignals S data).1.ThrewType .SOCKET_CLOSED := by
  rintro ⟨ex, hex, ht⟩
  have hthrown := throws_processToDepth (S := S) data.length data s _ hex
  generalize hexc : Exception.socket ex = e at hthrown
  cases hthrown with
  | write errno =>
      cases hexc
      cases ht
  | tooMuchData => cases hexc
  | outOfRange what => cases hexc

/-! ## The record -/

/-- `SOCKET_CLOSED` in `last_ex` is the exception that ended the body, unless it was there before. -/
theorem threwType_of_recorded {o : Outcome Unit} {t : SocketExceptionType}
    (h : recorded o t = .SOCKET_CLOSED) : t = .SOCKET_CLOSED ∨ o.ThrewType .SOCKET_CLOSED := by
  unfold recorded at h
  split at h
  · split at h
    · exact .inl h
    · exact .inr ⟨_, rfl, h⟩
  · exact .inl h

/-- Whatever the peer and the kernel do in the next round, if the worker records `SOCKET_CLOSED` then
the end of the stream has been reached. -/
def RecordsClosedAtEnd (S : Setup) (s : ConditionalBufferedStream) : Prop :=
  ∀ unread answers,
    let w := afterBody S (workerBody S { s with stream := s.stream.withFuture unread answers })
    w.2.lastEx = .SOCKET_CLOSED → w.2.stream.stream.socket.EndOfStream

theorem endOfStream_of_lastEx (hv : s.stream.Valid) (hlast : s.lastEx = .SOCKET_OK)
    (hroom : s.contents.length < s.stream.streamBufferSize)
    (h : (afterBody S (s.workerBody S)).2.lastEx = .SOCKET_CLOSED) :
    (afterBody S (s.workerBody S)).2.stream.stream.socket.EndOfStream := by
  rw [lastEx_afterBody] at h
  rw [stream_afterBody]
  have hcause := threwType_of_recorded h
  have hrefill := BufferedStream.refill hv (-1)
  rcases hread : s.stream.readAvailableDataIntoBuffer (-1) with ⟨o, b'⟩
  rw [hread] at hrefill
  cases o with
  | returned n =>
      obtain ⟨rs, hext⟩ := Dispatched.processDataSendSignals (S := S) (s := { s with stream := b' })
        hrefill.refilled.valid b'.contents
      rw [workerBody_of_returned hread, hext.lastEx, hlast] at hcause
      exact absurd (hcause.resolve_left (by decide)) (not_closed_processDataSendSignals _ _)
  | threw e =>
      rw [workerBody_of_threw hread, hlast] at hcause
      rw [workerBody_of_threw hread]
      obtain ⟨ex, hex, ht⟩ := hcause.resolve_left (by decide)
      cases hex
      exact hrefill.endOfStream hroom ⟨ex, rfl, ht⟩
  | waiting =>
      rw [workerBody_of_waiting hread, hlast] at hcause
      exact absurd (hcause.resolve_left (by decide)) Outcome.not_threwType_waiting

theorem recordsClosedAtEnd_iff (hv : s.stream.Valid) (hlast : s.lastEx = .SOCKET_OK)
    (hend : ¬ s.stream.stream.socket.EndOfStream) :
    RecordsClosedAtEnd S s ↔ s.contents.length < s.stream.streamBufferSize := by
  constructor
  · intro hrecords
    by_contra hnot
    have hfull : s.stream.contents.length = s.stream.streamBufferSize :=
      Nat.le_antisymm hv.contents_le (Nat.not_lt.mp hnot)
    obtain ⟨b', hread, hcalls⟩ := BufferedStream.refill_full
      (b := s.stream.withFuture [] [.readable 0]) (-1) hv.withFuture hfull rfl
    have hbody := workerBody_of_threw (S := S)
      (s := { s with stream := s.stream.withFuture [] [.readable 0] }) hread
    have hround := hrecords [] [.readable 0]
    simp only [hbody, lastEx_afterBody, stream_afterBody] at hround
    exact hend (Socket.EndOfStream.of_nonempty (.inl rfl) hcalls (hround rfl))
  · intro hroom unread answers
    exact endOfStream_of_lastEx hv.withFuture hlast hroom

/-! ## Rounds -/

/-- A running worker has recorded nothing and has not seen the end of the stream. -/
structure Open (w : WorkerStatus × ConditionalBufferedStream) : Prop where
  valid : w.2.stream.Valid
  lastEx : w.1 = .running → w.2.lastEx = .SOCKET_OK
  unended : w.1 = .running → ¬ w.2.stream.stream.socket.EndOfStream

theorem Open.round (h : Open (.running, s)) : Open (afterBody S (s.workerBody S)) := by
  have hrefill := BufferedStream.refill h.valid (-1)
  rcases hread : s.stream.readAvailableDataIntoBuffer (-1) with ⟨o, b'⟩
  rw [hread] at hrefill
  cases hrefill with
  | data hr hne _ _ _ hcalls _ =>
      obtain ⟨rs, hext⟩ := Dispatched.processDataSendSignals (S := S) (s := { s with stream := b' })
        hr.valid b'.contents
      rw [workerBody_of_returned hread]
      refine ⟨by rw [stream_afterBody]; exact hext.valid, fun hrun => ?_, fun _ hend => ?_⟩
      · rw [(afterBody_of_running hrun).2, hext.lastEx]
        exact h.lastEx rfl
      · rw [stream_afterBody, hext.socket] at hend
        exact h.unended rfl (Socket.EndOfStream.of_nonempty (.inr hne) hcalls hend)
  | closed hr =>
      rw [workerBody_of_threw hread]
      exact ⟨by rw [stream_afterBody]; exact hr.valid, fun hrun => absurd hrun (afterBody_of_threw _ _),
        fun hrun => absurd hrun (afterBody_of_threw _ _)⟩
  | failed hr =>
      rw [workerBody_of_threw hread]
      exact ⟨by rw [stream_afterBody]; exact hr.valid, fun hrun => absurd hrun (afterBody_of_threw _ _),
        fun hrun => absurd hrun (afterBody_of_threw _ _)⟩
  | waiting hr _ hsocket =>
      rw [workerBody_of_waiting hread]
      exact ⟨hr.valid, fun _ => h.lastEx rfl, fun _ hend => h.unended rfl (hsocket ▸ hend)⟩

theorem Open.worker (bytes : List Byte) (size stopEvent : Nat) (answers : List Answer) (rounds : Nat) :
    Open (conditionalBufferWorker S
      (connected S size bytes stopEvent answers) rounds) := by
  refine conditionalBufferWorker_invariant ?_ (fun s h => h.round) rounds
  refine ⟨.make _ _, fun _ => rfl, fun _ hend => ?_⟩
  obtain ⟨c, hc, -⟩ := hend
  cases hc

theorem endOfStream_of_room (s : ConditionalBufferedStream) (hopen : Open (.running, s)) (rounds : Nat)
    (hroom : ∀ k < rounds, (conditionalBufferWorker S s k).1 = .running →
      (conditionalBufferWorker S s k).2.contents.length <
        (conditionalBufferWorker S s k).2.stream.streamBufferSize)
    (h : (conditionalBufferWorker S s rounds).2.lastEx = .SOCKET_CLOSED) :
    (conditionalBufferWorker S s rounds).2.stream.stream.socket.EndOfStream := by
  induction rounds with
  | zero =>
      have hlast : s.lastEx = .SOCKET_OK := hopen.lastEx rfl
      rw [show s.lastEx = _ from h] at hlast
      cases hlast
  | succ rounds ih =>
      have hprev : Open (conditionalBufferWorker S s rounds) :=
        conditionalBufferWorker_invariant hopen (fun s h => h.round) rounds
      have hhere := hroom rounds (Nat.lt_succ_self _)
      have ih := ih fun k hk => hroom k (Nat.lt_succ_of_lt hk)
      rw [conditionalBufferWorker_succ] at h ⊢
      generalize conditionalBufferWorker S s rounds = w at h hprev hhere ih ⊢
      obtain ⟨w, s'⟩ := w
      cases w with
      | running => exact endOfStream_of_lastEx hprev.valid (hprev.lastEx rfl) (hhere rfl) h
      | ended t => exact ih h
      | terminated e => exact ih h

end ConditionalBufferedStream

end SocketWrapper
