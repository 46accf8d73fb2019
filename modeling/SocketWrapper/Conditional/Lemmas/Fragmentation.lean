import SocketWrapper.Conditional.Lemmas.SingleHandler
import SocketWrapper.Lib.Delimited

/-!
# What the worker has done by the end of a round

With one handler the removals and the buffer are the drain of what has been received (`Tracks`), in
whatever pieces it came. For the delimiter condition this gives the segments of the input.
-/

namespace SocketWrapper

namespace SingleHandler

open ConditionalBufferedStream

/-- What the segmenter makes of the bytes received so far. -/
def drained (S : Setup) (condition : List Byte → Int32) (s : ConditionalBufferedStream) :
    Segmenter.Drained (Option Nat) Byte Int32 :=
  (segmenter S condition).drain (some 0) s.stream.received

/-- Of the `bytes` that the peer sends, some have been received, and those have been drained. -/
structure Tracks (S : Setup) (condition : List Byte → Int32) (fd : Fd) (bytes : List Byte)
    (s : ConditionalBufferedStream) : Prop where
  valid : s.stream.Valid
  opened : s.eventFds.closed = []
  sent : s.stream.received ++ s.stream.stream.socket.unread = bytes
  removals : s.removals = removalsOf fd (drained S condition s).segments
  contents : s.contents = (drained S condition s).rest
  queue : ∀ fd', s.queue fd' = delivered fd' s.removals

variable {S : Setup} {condition : List Byte → Int32} {fd : Fd} {bytes : List Byte}
  {s : ConditionalBufferedStream}

theorem drain_nil : (segmenter S condition).drain (some 0) [] = ⟨[], [], some 0⟩ := by
  refine Segmenter.drain_none (cut_none ?_ _)
  by_cases hzero : condition [] = 0
  · exact .inl hzero
  · exact .inr (absSize_pos hzero)

theorem Tracks.make (size stopEvent : Nat) (answers : List Answer) :
    Tracks S condition fd bytes
      (connected S size bytes stopEvent answers) := by
  refine ⟨.make _ _, rfl, rfl, ?_, ?_, ?_⟩
  · exact (congrArg (fun D => removalsOf fd D.segments) drain_nil).symm
  · exact (BufferedStream.contents_make _ _).trans (congrArg Segmenter.Drained.rest drain_nil).symm
  · intro fd'
    simp only [ConditionalBufferedStream.queue, connected, ConditionalBufferedStream.make,
      delivered_nil]
    split <;> rfl

theorem Tracks.idle (h : Tracks S condition fd bytes s) {b' : BufferedStream} (hv : b'.Valid)
    (hcontents : b'.contents = s.stream.contents) (hreceived : b'.received = s.stream.received)
    (hunread : b'.stream.socket.unread = s.stream.stream.socket.unread) :
    Tracks S condition fd bytes { s with stream := b' } where
  valid := hv
  opened := h.opened
  sent := by rw [hreceived, hunread, h.sent]
  removals := by rw [h.removals, drained, drained, hreceived]
  contents := by
    have hc := h.contents
    rw [drained, ← hreceived] at hc
    exact hcontents.trans hc
  queue := h.queue

theorem Tracks.process (hS : S.handlers = [pureHandler condition fd])
    (hstable : (segmenter S condition).PrefixStable) (h : Tracks S condition fd bytes s)
    (hstate : (drained S condition s).state = some s.eventFds.writes)
    {b' : BufferedStream} {new : List Byte} (hv : b'.Valid)
    (hcontents : b'.contents = s.stream.contents ++ new)
    (hreceived : b'.received = s.stream.received ++ new)
    (hunread : s.stream.stream.socket.unread = new ++ b'.stream.socket.unread) :
    Tracks S condition fd bytes
        (({ s with stream := b' } : ConditionalBufferedStream).processDataSendSignals S b'.contents).2 ∧
      Ends condition (drained S condition
          (({ s with stream := b' } : ConditionalBufferedStream).processDataSendSignals S b'.contents).2)
        (({ s with stream := b' } : ConditionalBufferedStream).processDataSendSignals S b'.contents) := by
  have hfeed : (segmenter S condition).drain (some 0) (s.stream.received ++ new) =
      (drained S condition s).feed (segmenter S condition) new :=
    Segmenter.drain_append hstable _ _ _
  obtain ⟨hext, hends⟩ := process_drain hS (some s.eventFds.writes) b'.contents
    { s with stream := b' } hv h.opened rfl rfl
  have hbuffer : b'.contents = (drained S condition s).rest ++ new := by
    rw [hcontents, ← h.contents]
    rfl
  generalize ({ s with stream := b' } : ConditionalBufferedStream).processDataSendSignals S
    b'.contents = r at hext hends ⊢
  rw [hbuffer, ← hstate] at hext hends
  have hsocket : r.2.stream.received = s.stream.received ++ new := by
    rw [← hreceived, BufferedStream.received, hext.socket]
    rfl
  have hdrained : drained S condition r.2 = (drained S condition s).feed (segmenter S condition) new := by
    rw [drained, hsocket, hfeed]
  have hremovals : r.2.removals = s.removals ++ _ := hext.removals
  refine ⟨⟨hext.valid, hext.closed.trans h.opened, ?_, ?_, ?_, ?_⟩, ?_⟩
  · rw [hsocket, hext.socket, List.append_assoc, ← hunread, h.sent]
  · rw [hremovals, h.removals, hdrained]
    simp [removalsOf, Segmenter.Drained.feed]
  · have hbytes : _ ++ r.2.contents = b'.contents := hext.bytes
    rw [removalsOf_bytes, hbuffer] at hbytes
    rw [hdrained]
    exact List.append_cancel_left (hbytes.trans (Segmenter.drain_flatten _ _ _).symm)
  · intro fd'
    have hqueue : r.2.queue fd' = s.queue fd' ++ _ := hext.queue fd'
    rw [hqueue, h.queue, hremovals, delivered_append]
  · rw [hdrained]
    exact hends

theorem Tracks.afterBody {r : Outcome Unit × ConditionalBufferedStream}
    (h : Tracks S condition fd bytes r.2) : Tracks S condition fd bytes (afterBody S r).2 := by
  obtain ⟨k, f, heq, hclosed⟩ := afterBody_snd (S := S) r
  rw [heq]
  exact ⟨h.valid, hclosed.trans h.opened, h.sent, h.removals, h.contents, h.queue⟩

/-! ## Rounds -/

/-- A running worker's eventfd has been written to as often as the segmenter says. -/
structure Segmenting (S : Setup) (condition : List Byte → Int32) (fd : Fd) (bytes : List Byte)
    (w : WorkerStatus × ConditionalBufferedStream) : Prop where
  tracks : Tracks S condition fd bytes w.2
  state : w.1 = .running → (drained S condition w.2).state = some w.2.eventFds.writes

theorem Segmenting.afterBody {r : Outcome Unit × ConditionalBufferedStream}
    (h : Tracks S condition fd bytes r.2)
    (hstate : r.1 = .returned () ∨ r.1 = .waiting →
      (drained S condition r.2).state = some r.2.eventFds.writes) :
    Segmenting S condition fd bytes (afterBody S r) where
  tracks := h.afterBody
  state := fun hrun => by
    obtain ⟨hret, heq⟩ := afterBody_of_running hrun
    rw [heq]
    exact hstate hret

theorem Ends.state_of_returned {D : Segmenter.Drained (Option Nat) Byte Int32}
    {r : Outcome Unit × ConditionalBufferedStream} (h : Ends condition D r)
    (hret : r.1 = .returned () ∨ r.1 = .waiting) : D.state = some r.2.eventFds.writes := by
  rcases h with ⟨-, hstate⟩ | ⟨e, hthrew, -⟩
  · exact hstate
  · rw [hthrew] at hret
    rcases hret with hret | hret <;> cases hret

theorem Segmenting.round (hS : S.handlers = [pureHandler condition fd])
    (hstable : (segmenter S condition).PrefixStable)
    (h : Segmenting S condition fd bytes (.running, s)) :
    Segmenting S condition fd bytes (ConditionalBufferedStream.afterBody S (s.workerBody S)) := by
  have hstate : (drained S condition s).state = some s.eventFds.writes := h.state rfl
  have hrefill := BufferedStream.refill h.tracks.valid (-1)
  rw [workerBody, onStream]
  generalize s.stream.readAvailableDataIntoBuffer (-1) = r at hrefill ⊢
  cases hrefill with
  | data hr _ _ hcontents hunread hcalls _ =>
      obtain ⟨htracks, hends⟩ := h.tracks.process hS hstable hstate hr.valid hcontents
        (BufferedStream.received_of_calls hcalls) hunread
      exact .afterBody htracks hends.state_of_returned
  | closed hr _ hcontents hunread hcalls =>
      have hreceived := BufferedStream.received_of_calls hcalls
      rw [List.append_nil] at hreceived
      exact .afterBody (h.tracks.idle hr.valid hcontents hreceived hunread) (by simp)
  | failed hr hcontents hsocket _ =>
      have hreceived : _ = s.stream.received := congrArg Socket.received hsocket
      exact .afterBody (h.tracks.idle hr.valid hcontents hreceived (congrArg _ hsocket)) (by simp)
  | waiting hr hcontents hsocket _ _ _ =>
      have hreceived : _ = s.stream.received := congrArg Socket.received hsocket
      refine .afterBody (h.tracks.idle hr.valid hcontents hreceived (congrArg _ hsocket)) fun _ => ?_
      exact (congrArg (fun x => ((segmenter S condition).drain (some 0) x).state) hreceived).trans hstate

theorem Segmenting.worker (hS : S.handlers = [pureHandler condition fd])
    (hstable : (segmenter S condition).PrefixStable) (size stopEvent : Nat) (answers : List Answer)
    (rounds : Nat) :
    Segmenting S condition fd bytes (conditionalBufferWorker S
      (connected S size bytes stopEvent answers)
      rounds) := by
  refine conditionalBufferWorker_invariant ?_ (fun s h => h.round hS hstable) rounds
  exact ⟨.make size stopEvent answers, fun _ => congrArg Segmenter.Drained.state drain_nil⟩

end SingleHandler

end SocketWrapper
