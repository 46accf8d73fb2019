import SocketWrapper.Base.Lemmas.Buffer
import SocketWrapper.Waiting.Operations

/-!
# Calls that wait, and end with nothing ready

A call that has returned does not look at one more answer of the kernel; one that waits ends with it.
-/

namespace SocketWrapper

open Descriptors

def PollEnd.Throws {α : Type} (e : PollEnd) (o : Outcome α) : Prop :=
  o = match e with
    | .expired _ => .socketError .SOCKET_READ_TIMEOUT 0
    | .failed errno => .socketError .SOCKET_POLL errno

theorem PollEnd.Throws.threwType {α : Type} {e : PollEnd} {o : Outcome α} (h : e.Throws o) :
    (o.ThrewType .SOCKET_READ_TIMEOUT ↔ e.isExpired = true) ∧
      (o.ThrewType .SOCKET_POLL ↔ e.isExpired = false) := by
  cases e with
  | expired errno =>
      rw [PollEnd.Throws] at h
      simp [h, PollEnd.isExpired]
  | failed errno =>
      rw [PollEnd.Throws] at h
      simp [h, PollEnd.isExpired]

theorem PollEnd.Throws.andThen {σ α β : Type} {e : PollEnd} {r : Outcome α × σ}
    {k : α → σ → Outcome β × σ} (h : e.Throws r.1) :
    e.Throws (Outcome.andThen r k).1 := by
  obtain ⟨o, s⟩ := r
  cases e with
  | expired errno =>
      simp only [PollEnd.Throws] at h ⊢
      simp [h]
  | failed errno =>
      simp only [PollEnd.Throws] at h ⊢
      simp [h]

/-! ## `Stream::read` -/

namespace Stream

variable {most least stopEvent : Nat} {timeoutMs : Int} {answers : List Answer} {socket : Socket}
  {stored : List Byte} {a : Answer} {e : PollEnd} {s : Stream}

/-- A call that waits takes up the answer where it is. -/
theorem Rounds.append_of_waiting {r : ReadResult}
    (hrounds : Rounds most least timeoutMs stopEvent answers socket stored r) (h : r.outcome = .waiting) :
    stopEvent = 0 ∧ ∃ socket' stored', stored'.length < least ∧
      readLoop most least timeoutMs stopEvent (answers ++ [a]) socket stored =
        readLoop most least timeoutMs stopEvent [a] socket' stored' := by
  induction hrounds with
  | @waits socket stored hlt hstop => exact ⟨hstop, socket, stored, hlt, rfl⟩
  | more hlt hne _ ih =>
      rw [List.cons_append, readLoop_more hlt hne]
      exact ih h
  | again hlt hstop htime _ ih =>
      rw [List.cons_append, readLoop_again hlt hstop htime]
      exact ih h
  | _ => cases h

theorem Rounds.append_of_returned {n : Nat} {r : ReadResult}
    (hrounds : Rounds most least timeoutMs stopEvent answers socket stored r) (h : r.outcome = .returned n) :
    readLoop most least timeoutMs stopEvent (answers ++ [a]) socket stored =
      ⟨r.outcome, r.stored, r.stream.more a⟩ := by
  induction hrounds with
  | done hdone => exact readLoop_done hdone
  | more hlt hne _ ih =>
      rw [List.cons_append, readLoop_more hlt hne]
      exact ih h
  | again hlt hstop htime _ ih =>
      rw [List.cons_append, readLoop_again hlt hstop htime]
      exact ih h
  | _ => cases h

theorem read_more_of_returned {n : Nat} (h : (s.read most least timeoutMs).outcome = .returned n) :
    (s.more a).read most least timeoutMs =
      let r := s.read most least timeoutMs
      ⟨r.outcome, r.stored, r.stream.more a⟩ :=
  rounds.append_of_returned h

theorem read_more_of_waiting (he : e.Possible timeoutMs)
    (h : (s.read most least timeoutMs).outcome = .waiting) :
    e.Throws ((s.more e.answer).read most least timeoutMs).outcome := by
  obtain ⟨hstop, socket, stored, hlt, heq⟩ := rounds.append_of_waiting (a := e.answer) h
  simp only [PollEnd.Throws, Stream.read, more, heq]
  cases e with
  | expired errno =>
      have htime : ¬ timeoutMs < 0 := Int.not_lt.mpr he
      simp [PollEnd.answer, readLoop, Nat.not_le.mpr hlt, hstop, htime]
  | failed errno => simp [PollEnd.answer, readLoop, Nat.not_le.mpr hlt]

end Stream

/-! ## The operations of `BufferedStream` -/

namespace BufferedStream

variable {b b' : BufferedStream} {timeoutMs : Int} {a : Answer} {e : PollEnd} {n : Nat}

theorem refill_more_of_returned {count : Nat}
    (h : b.readAvailableDataIntoBuffer timeoutMs = (.returned count, b')) :
    (b.more a).readAvailableDataIntoBuffer timeoutMs = (.returned count, b'.more a) := by
  simp only [readAvailableDataIntoBuffer] at h
  cases hout : (b.stream.read (sizeSub b.streamBufferSize b.bufferWriteOffset) 1 timeoutMs).outcome with
  | returned count' =>
      simp only [hout] at h
      cases h
      simp only [readAvailableDataIntoBuffer, more, Stream.read_more_of_returned hout, hout]
  | threw ex => simp [hout] at h
  | waiting => simp [hout] at h

theorem refill_more_of_waiting (he : e.Possible timeoutMs)
    (h : (b.readAvailableDataIntoBuffer timeoutMs).1 = .waiting) :
    e.Throws ((b.more e.answer).readAvailableDataIntoBuffer timeoutMs).1 := by
  simp only [readAvailableDataIntoBuffer] at h
  cases hout : (b.stream.read (sizeSub b.streamBufferSize b.bufferWriteOffset) 1 timeoutMs).outcome with
  | returned count => simp [hout] at h
  | threw ex => simp [hout] at h
  | waiting =>
      have hthrows := Stream.read_more_of_waiting he hout
      simp only [readAvailableDataIntoBuffer, more]
      cases e with
      | expired errno =>
          simp only [PollEnd.Throws] at hthrows ⊢
          simp [hthrows]
      | failed errno =>
          simp only [PollEnd.Throws] at hthrows ⊢
          simp [hthrows]

theorem refill_andThen_waiting {α : Type} {k : Nat → BufferedStream → Outcome α × BufferedStream}
    (he : e.Possible timeoutMs)
    (hk : ∀ count b', (k count b').1 = .waiting → e.Throws (k count (b'.more e.answer)).1)
    (h : (Outcome.andThen (b.readAvailableDataIntoBuffer timeoutMs) k).1 = .waiting) :
    e.Throws (Outcome.andThen ((b.more e.answer).readAvailableDataIntoBuffer timeoutMs) k).1 := by
  cases hrefill : b.readAvailableDataIntoBuffer timeoutMs with
  | mk o b' =>
      cases o with
      | returned count =>
          rw [hrefill] at h
          rw [refill_more_of_returned hrefill]
          exact hk count b' h
      | threw ex =>
          rw [hrefill] at h
          cases h
      | waiting => exact (refill_more_of_waiting he (by rw [hrefill])).andThen

theorem popFromBuffer_ne_waiting (b : BufferedStream) (n : Nat) : (b.popFromBuffer n).1 ≠ .waiting := by
  rw [popFromBuffer]
  split <;> simp

/-- A loop of refills, and whatever the operation then does. -/
theorem fillLoop_andThen_waiting {α : Type} {k : Unit → BufferedStream → Outcome α × BufferedStream}
    (he : e.Possible timeoutMs) (hk : ∀ b, (k () b).1 ≠ .waiting) (rounds : Nat)
    (h : (Outcome.andThen (fillLoop n timeoutMs rounds b) k).1 = .waiting) :
    e.Throws (Outcome.andThen (fillLoop n timeoutMs rounds (b.more e.answer)) k).1 := by
  induction rounds generalizing b with
  | zero => exact absurd h (hk b)
  | succ rounds ih =>
      by_cases hlt : b.bufferWriteOffset < n
      · have hlt' : (b.more e.answer).bufferWriteOffset < n := hlt
        simp only [fillLoop, hlt, hlt', if_true, Outcome.andThen_assoc] at h ⊢
        exact refill_andThen_waiting he (fun _ _ hwait => ih hwait) h
      · simp only [fillLoop, hlt, if_false] at h
        exact absurd h (hk b)

theorem read_more_of_waiting (he : e.Possible timeoutMs) (h : (b.read n timeoutMs).1 = .waiting) :
    e.Throws ((b.more e.answer).read n timeoutMs).1 := by
  rw [BufferedStream.read] at h ⊢
  by_cases hlt : b.streamBufferSize < n
  · rw [if_pos hlt] at h
    cases h
  · rw [if_neg hlt] at h
    rw [if_neg (show ¬ (b.more e.answer).streamBufferSize < n from hlt)]
    exact fillLoop_andThen_waiting he (fun b => popFromBuffer_ne_waiting b n) n h

theorem readInto_more_of_waiting {most least : Nat} (he : e.Possible timeoutMs)
    (h : (b.readInto most least timeoutMs).1 = .waiting) :
    e.Throws ((b.more e.answer).readInto most least timeoutMs).1 :=
  refill_andThen_waiting he
    (fun _ _ hwait => fillLoop_andThen_waiting he (fun b => popFromBuffer_ne_waiting b _) least hwait) h

end BufferedStream

/-! ## The other classes -/

theorem ConditionalBufferedStream.not_classifies_readBlocking {s : ConditionalBufferedStream} {fd : Fd}
    {timeoutMs : Int} {e : PollEnd} (hcounter : s.eventFds.counter fd = 0)
    (hrequest : s.terminationRequested = false) (he : e.Possible timeoutMs) :
    ¬ (BlockingReceive.readBlocking s fd).Classifies timeoutMs e := by
  rintro ⟨htimeout, -⟩
  cases e with
  | expired errno =>
      have htime : ¬ timeoutMs < 0 := Int.not_lt.mpr he
      simp [BlockingReceive.ThrowsAfter, ConditionalBufferedStream.readBlocking, hcounter, htime,
        ConditionalBufferedStream.pollExpired, hrequest, PollEnd.isExpired] at htimeout
  | failed errno =>
      simp [BlockingReceive.ThrowsAfter, ConditionalBufferedStream.readBlocking,
        PollEnd.isExpired] at htimeout

theorem Descriptors.UdpDatagram.classifies_iff (u : UdpDatagram) (timeoutMs : Int) (e : PollEnd) :
    (BlockingReceive.datagram u).Classifies timeoutMs e ↔
      (BlockingReceive.datagram u).TellsApart timeoutMs e := by
  simp only [BlockingReceive.Classifies, BlockingReceive.ThrowsAfter, BlockingReceive.TellsApart]
  cases e with
  | expired errno =>
      by_cases h : timeoutMs = 0
      · subst h
        simp [UdpDatagram.read, UdpDatagram.pollVerdict, PollEnd.datagramAnswer, PollEnd.isExpired]
      · simp [UdpDatagram.read, UdpDatagram.pollVerdict, PollEnd.datagramAnswer, PollEnd.isExpired, h,
          Ne.symm h]
  | failed errno =>
      by_cases h : timeoutMs = -1
      · subst h
        simp [UdpDatagram.read, UdpDatagram.pollVerdict, PollEnd.datagramAnswer, PollEnd.isExpired]
      · simp [UdpDatagram.read, UdpDatagram.pollVerdict, PollEnd.datagramAnswer, PollEnd.isExpired, h,
          Ne.symm h]

end SocketWrapper
