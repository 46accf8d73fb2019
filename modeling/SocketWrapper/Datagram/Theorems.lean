import SocketWrapper.Datagram.Lemmas.Pending
import SocketWrapper.Datagram.Lemmas.Polling

/-!
# Moving a `UdpDatagram`, and reading from it in one thread and in several
-/

namespace SocketWrapper

open Descriptors Descriptors.UdpDatagram Transition

/-! ## Moves -/

/-- After any chain of moves between distinct objects, the object that has the socket gives the same
results as the original would have, whatever the operations and the kernel, exactly if it has a buffer of
the same size and the same IP version: nothing was moved, or the last move was an assignment to an object
made for the same. Then it makes the same system calls as well. -/
theorem move_preserves_behaviour_iff (original : UdpDatagram) (moves : List UdpDatagram.Move) :
    (BehavesAs (moves.foldl UdpDatagram.Move.apply original) original ↔ CarriedBy original moves) ∧
    (CarriedBy original moves → ∀ (kernel : DatagramKernel) (found found' : IpVersion)
      (ops : List Operation), results kernel found (moves.foldl UdpDatagram.Move.apply original, []) ops =
        results kernel found' (original, []) ops) := by
  obtain ⟨hfd, hstop⟩ := fds_moved original moves
  have hcarried := alike_moved_iff original moves
  exact ⟨(behavesAs_iff hfd hstop).trans hcarried,
    fun h kernel found found' ops => (hcarried.mpr h).results ops⟩

/-- An object for IPv4 with a buffer of four bytes. -/
def smallDatagram : UdpDatagram := ⟨[0, 0, 0, 0], 5, some .IPv4, 6⟩

/-- After a move construction a datagram of one byte is too long for the empty buffer; after an assignment
to an object for IPv6 a write is refused. -/
theorem move_changes_behaviour :
    (results (delivering [97]) .IPv4 (smallDatagram, []) [.read (-1)]).1 = [.returned [97]] ∧
      (results (delivering [97]) .IPv4 (UdpDatagram.Move.construct.apply smallDatagram, []) [.read (-1)]).1 =
        [.socketError .SOCKET_RECEIVE_BUFFER_TOO_SMALL 0] ∧
      (results (delivering []) .IPv4 (smallDatagram, []) [.write [97] "::1" 1]).1 = [.returned []] ∧
      (results (delivering []) .IPv4
          ((UdpDatagram.Move.assign ⟨[0, 0, 0, 0], 7, some .IPv6, 8⟩).apply smallDatagram, [])
          [.write [97] "::1" 1]).1 =
        [.threw (.logicError "IPv6 is not supported as of now")] ∧
      ¬ BehavesAs (UdpDatagram.Move.construct.apply smallDatagram) smallDatagram := by
  refine ⟨by decide, by decide, by decide, by decide, fun h => ?_⟩
  exact absurd (h (delivering [97]) .IPv4 .IPv4 [.read (-1)]) (by decide)

/-! ## The result of `::poll` -/

/-- Whatever the buffer and the kernel, a `read` delivers what is ready and throws `SOCKET_POLL` for a failure
only, exactly if `::poll` has failed or does not return the number that is the timeout. -/
theorem datagram_read_delivers_iff (kernel : DatagramKernel) (u : UdpDatagram) (timeoutMs : Int)
    (calls : List DatagramCall) {answer : PollAnswer}
    (hpoll : (kernel (u.polled timeoutMs calls)).poll = some answer) (hposix : answer.Posix timeoutMs) :
    u.DeliversReady kernel timeoutMs calls answer ↔ answer.result = -1 ∨ answer.result ≠ timeoutMs :=
  deliversReady_iff hpoll hposix

theorem datagram_read_delivers_hundred :
    smallDatagram.DeliversReady (delivering [97]) 100 [] ⟨1, true, false⟩ :=
  (datagram_read_delivers_iff (delivering [97]) smallDatagram 100 [] rfl
    (@PollAnswer.Posix.ready 100 ⟨true, false⟩ (.inl rfl))).mpr (by decide)

/-- With a timeout of one millisecond the one ready descriptor is taken for a failure; with none at all, so
is the expiry. -/
theorem datagram_read_refuses_ready :
    (smallDatagram.read (delivering [97]) 1 []).1 = .threw (.socket ⟨.SOCKET_POLL, 0, -1⟩) ∧
      (smallDatagram.read (fun _ => ⟨some ⟨0, false, false⟩, .fails 0, none, 0⟩) 0 []).1 =
        .threw (.socket ⟨.SOCKET_POLL, 0, -1⟩) ∧
      ¬ smallDatagram.DeliversReady (delivering [97]) 1 [] ⟨1, true, false⟩ := by
  refine ⟨by decide, by decide, fun h => ?_⟩
  exact absurd (h.fits rfl [97] rfl (by decide)) (by decide)

/-! ## Threads -/

/-- With datagrams that fit into the buffer, every call that returns gives its own one, as long as none is
received over another that differs from it and has still to be copied. The first step that is not so leads
to a call that returns something else. -/
theorem datagram_reads_own (object : UdpDatagram) (threads : Nat) (queued : List (List Byte))
    (hfits : ∀ d ∈ queued, d.length ≤ object.buffer.length) :
    (∀ m, Reach DatagramReaders.step (fun m a => m.SpoilsNothing a) (.start object threads queued) m →
      m.EachItsOwn) ∧
    ∀ m a m', Reach DatagramReaders.step (fun m a => m.SpoilsNothing a) (.start object threads queued) m →
      m.step a = some m' → ¬ m.SpoilsNothing a →
      ∃ m'', Reach DatagramReaders.step (fun _ _ => True) m' m'' ∧ ¬ m''.EachItsOwn := by
  constructor
  · intro m hreach
    exact (DatagramReaders.Intact.of_reach hfits hreach).own
  · intro m a m' hreach hstep ha
    exact (DatagramReaders.Intact.of_reach hfits hreach).spoiled ha hstep

/-- Two threads find the socket marked; the second receives after the first has copied. -/
def datagramsInTurn : DatagramReaders :=
  after DatagramReaders.step (fun m a => m.SpoilsNothing a) (.start smallDatagram 2 [[97], [98, 99]])
    [.pollMarked 0, .pollMarked 1, .recvmsg 0 0, .copy 0, .recvmsg 1 0, .copy 1]

theorem datagram_reads_own_inTurn :
    datagramsInTurn.completions = [⟨0, [97]⟩, ⟨1, [98, 99]⟩] ∧ datagramsInTurn.EachItsOwn :=
  ⟨by decide, (datagram_reads_own smallDatagram 2 [[97], [98, 99]] (by decide)).1 _ (.after _ _)⟩

/-- The second receives before that: one datagram is returned twice, the other not at all. -/
theorem datagram_returned_twice :
    ∃ m, Reach DatagramReaders.step (fun _ _ => True) (.start smallDatagram 2 [[97], [98]]) m ∧
      m.received = [[97], [98]] ∧ m.completions = [⟨0, [98]⟩, ⟨1, [98]⟩] ∧ ¬ m.EachItsOwn := by
  refine ⟨_, .after _ [.pollMarked 0, .pollMarked 1, .recvmsg 0 0, .recvmsg 1 0, .copy 0, .copy 1],
    by decide, by decide, fun h => ?_⟩
  exact absurd (h.bytes ⟨0, [98]⟩ (by decide)) (by decide)

end SocketWrapper
