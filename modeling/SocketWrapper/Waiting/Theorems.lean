import SocketWrapper.Waiting.Lemmas.Ended

/-!
# Whether the operations classify waiting failures alike
-/

namespace SocketWrapper

open Descriptors

/-- A call that waits is told by the kernel that its time is up, or that `::poll` has failed. Which of the
two it was can be seen from the exception exactly if the operation tells them apart. -/
theorem waiting_failures_classified_iff (op : BlockingReceive) {timeoutMs : Int} {e : PollEnd}
    (hwaits : op.Waits timeoutMs) (he : e.Possible timeoutMs) :
    op.Classifies timeoutMs e ↔ op.TellsApart timeoutMs e := by
  cases op with
  | stream s most least => exact iff_of_true (Stream.read_more_of_waiting he hwaits).threwType trivial
  | buffered b n => exact iff_of_true (BufferedStream.read_more_of_waiting he hwaits).threwType trivial
  | bufferedInto b most least =>
      exact iff_of_true (BufferedStream.readInto_more_of_waiting he hwaits).threwType trivial
  | readBlocking s fd =>
      exact iff_of_false (ConditionalBufferedStream.not_classifies_readBlocking hwaits.1 hwaits.2 he) id
  | datagram u => exact u.classifies_iff timeoutMs e

/-- `Stream::read` waits for the second of two bytes. -/
theorem waiting_failures_classified_stream :
    (BlockingReceive.stream ⟨⟨[97, 98], []⟩, 0, [.readable 0]⟩ 2 2).Classifies 5 (.expired 0) := by
  have hwaits : (BlockingReceive.stream ⟨⟨[97, 98], []⟩, 0, [.readable 0]⟩ 2 2).Waits 5 :=
    show _ = Outcome.waiting by decide
  have htime : (PollEnd.expired 0).Possible 5 := show (0 : Int) ≤ 5 by decide
  exact (waiting_failures_classified_iff _ hwaits htime).mpr trivial

/-- A stream with a handler for lines, to which nothing has been sent. -/
def quietStream : ConditionalBufferedStream :=
  .connected ((Setup.empty fun _ => none).createEventfdOnCondition
    (fun _ => ConditionalBufferedStream.getDelimiterCondition 10) 3 (by decide)) 8 [] 0 []

/-- The time is up, or `::poll` has been interrupted: `readBlocking` has the two exceptions the other way
round, and `UdpDatagram::read` reports both as a timeout. -/
theorem waiting_failures_swapped :
    (quietStream.readBlocking 3 5 false 0).1 = .socketError .SOCKET_POLL 0 ∧
      (quietStream.readBlocking 3 5 true 4).1 = .socketError .SOCKET_READ_TIMEOUT 4 ∧
      ((UdpDatagram.mk [0] 5 (some .IPv4) 6).read (fun _ => (PollEnd.failed 4).datagramAnswer) 5 []).1 =
        .socketError .SOCKET_READ_TIMEOUT 4 ∧
      (BlockingReceive.readBlocking quietStream 3).Waits 5 ∧
      ¬ (BlockingReceive.readBlocking quietStream 3).Classifies 5 (.expired 0) := by
  refine ⟨by decide, by decide, by decide, ⟨rfl, rfl⟩, fun h => ?_⟩
  have hpoll : (BlockingReceive.readBlocking quietStream 3).ThrowsAfter 5 (.expired 0) .SOCKET_POLL :=
    ⟨.withErrno .SOCKET_POLL 0, by decide, rfl⟩
  exact absurd (h.2.mp hpoll) (by decide)

end SocketWrapper
