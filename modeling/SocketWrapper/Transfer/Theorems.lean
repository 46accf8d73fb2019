import SocketWrapper.Transfer.Lemmas.Reading
import SocketWrapper.Transfer.Lemmas.Writing

/-!
# Single calls of `Stream::read` and `Stream::write`
-/

namespace SocketWrapper

/-! ## `Stream::read` -/

/-- Every `::read` asks for what is left of the caller's maximum, and for one byte at least. A call that
returns `n` has taken the next `n` bytes of the stream and has put them at the front of the caller's block,
which it leaves alone otherwise. -/
theorem stream_read_exact (s : Stream) (buffer : List Byte) {maxBytesToRead minBytesToRead : Nat}
    (timeoutMs : Int) (hle : minBytesToRead ≤ maxBytesToRead) :
    let r := s.readTo buffer maxBytesToRead minBytesToRead timeoutMs
    ∃ calls, r.stream.socket.calls = s.socket.calls ++ calls ∧
      (∀ pre c post, calls = pre ++ c :: post →
        c.requested = maxBytesToRead - (Stream.gotten pre).length ∧ 0 < c.requested) ∧
      ∀ n, r.outcome = .returned n →
        (minBytesToRead ≤ n ∧ n ≤ maxBytesToRead) ∧
        r.buffer = s.socket.unread.take n ++ buffer.drop n ∧
        Stream.gotten calls = s.socket.unread.take n ∧ (Stream.gotten calls).length = n ∧
        r.stream.socket.unread = s.socket.unread.drop n := by
  rw [Stream.readTo_eq]
  obtain ⟨calls, hreads⟩ := Stream.reads_read s timeoutMs hle
  exact ⟨calls, hreads.made, hreads.requests, fun n hn => hreads.returned hn⟩

/-- Two rounds: one byte of the three asked for, then both of the two. -/
theorem stream_read_exact_twoRounds :
    let r := (Stream.mk ⟨[97, 98, 99, 100], []⟩ 0 [.readable 0, .readable 4]).readTo [0, 0, 0, 0] 3 2 (-1)
    r.outcome = .returned 3 ∧ r.stream.socket.calls = [⟨3, [97]⟩, ⟨2, [98, 99]⟩] ∧
      r.buffer = [97, 98, 99] ++ [0] := by
  obtain ⟨calls, -, -, hreturns⟩ :=
    stream_read_exact ⟨⟨[97, 98, 99, 100], []⟩, 0, [.readable 0, .readable 4]⟩ [0, 0, 0, 0] (-1)
      (show 2 ≤ 3 by decide)
  exact ⟨by decide, by decide, (hreturns 3 (by decide)).2.1⟩

/-- A call that throws has taken nothing or says how much, exactly if none of the bytes have arrived where
it would be cut short, or as many as it needs: the count is in no exception of `Stream::read`. -/
theorem failing_read_reports_iff (s : Stream) (buffer : List Byte)
    {maxBytesToRead minBytesToRead : Nat} (timeoutMs : Int) (hle : minBytesToRead ≤ maxBytesToRead) :
    s.ReportsTaken buffer maxBytesToRead minBytesToRead timeoutMs ↔
      Stream.CutWhole s.socket.unread s.stopEvent timeoutMs s.answers minBytesToRead :=
  Stream.reportsTaken_iff hle

/-- The time is up before anything arrives. -/
theorem failing_read_reports_atOnce :
    (Stream.mk ⟨[97, 98], []⟩ 0 [.quiet]).ReportsTaken [0, 0] 2 2 5 :=
  (failing_read_reports_iff _ _ 5 (Nat.le_refl 2)).mpr (by decide)

/-- The time is up after one of two bytes: it is in the block, and `processed_bytes` is -1. -/
theorem failing_read_loses_byte :
    let s : Stream := ⟨⟨[97, 98], []⟩, 0, [.readable 0, .quiet]⟩
    s.readTo [0, 0] 2 2 5 = ⟨.threw (.socket ⟨.SOCKET_READ_TIMEOUT, 0, -1⟩), [97, 0],
        ⟨⟨[98], [⟨2, [97]⟩]⟩, 0, []⟩⟩ ∧
      ¬ s.ReportsTaken [0, 0] 2 2 5 := by
  refine ⟨by decide, fun h => ?_⟩
  rcases h (.socket ⟨.SOCKET_READ_TIMEOUT, 0, -1⟩) (by decide) with hsame | ⟨ex, n, hex, hcount, -⟩
  · exact absurd hsame (by decide)
  · cases hex
    simp only at hcount
    omega

/-! ## `Stream::write` -/

/-- No `::write` fails, and the kernel has room for `counts` bytes, one after the other. The call makes as
many tries as it may at the most, hands over the buffer from its front and without a gap, and returns exactly
if all of it has been taken; otherwise it throws with the number of bytes that have. -/
theorem stream_write_accounts (buffer : List Byte) (errno : Nat) {attempts : Nat} {counts : List Nat}
    (hanswers : attempts ≤ counts.length) :
    let r := Stream.write buffer attempts errno (counts.map .accepts)
    r.tries.length ≤ attempts ∧
      (∀ pre t post, r.tries = pre ++ t :: post →
        t.offered = buffer.drop (pre.map WriteTry.taken).flatten.length ∧ t.taken <+: t.offered) ∧
      r.taken = buffer.take (counts.take attempts).sum ∧
      (r.outcome = .returned () ↔ r.taken = buffer) ∧
      (r.outcome ≠ .returned () →
        r.outcome = .threw (.socket ⟨.SOCKET_WRITE_PARTIAL, errno, r.taken.length⟩) ∧
        r.taken.length < buffer.length) := by
  intro r
  have hwrites : Stream.Writes buffer errno 0 r :=
    Stream.writes (counts.map .accepts) attempts (Nat.zero_le _)
  have htaken : r.taken = buffer.take (counts.take attempts).sum := Stream.taken_write_accepts hanswers
  have hout : r.outcome = Stream.finished buffer.length (counts.take attempts).sum errno :=
    Stream.outcome_write_accepts hanswers
  refine ⟨Stream.length_tries_le _ attempts, fun pre t post htries => ?_, htaken, ?_⟩
  · have hoffered := hwrites.offered pre t post htries
    rwa [Nat.zero_add] at hoffered
  · rw [hout, htaken, Stream.finished]
    by_cases hall : buffer.length ≤ (counts.take attempts).sum
    · simp [hall, List.take_of_length_le hall]
    · have hlen : (buffer.take (counts.take attempts).sum).length = (counts.take attempts).sum := by
        rw [List.length_take]
        omega
      have hne : buffer.take (counts.take attempts).sum ≠ buffer := fun h => by
        rw [h] at hlen
        omega
      simp only [hall, if_false, reduceCtorEq, hne, hlen, true_and, ne_eq, not_false_iff, forall_const]
      omega

/-- Room for two bytes, for none, and for more than are left. -/
theorem stream_write_accounts_lastAttempt :
    (Stream.write [97, 98, 99] 3 0 [.accepts 2, .accepts 0, .accepts 7]).outcome = .returned () :=
  (stream_write_accounts [97, 98, 99] 0 (show 3 ≤ [2, 0, 7].length by decide)).2.2.2.1.mpr (by decide)

/-- A `::write` fails after others of the same call have handed over bytes: the exception has no count of
them, whatever the number of attempts, which may be negative. -/
theorem write_error_reports_no_progress (buffer : List Byte) (errno cError : Nat)
    (answers : List WriteAnswer) {attempts : Int} {counts : List Nat}
    (hattempts : attempts < 0 ∨ (counts.length : Nat) < attempts) (hpos : 0 < counts.sum)
    (hlt : counts.sum < buffer.length) :
    let r := Stream.write buffer attempts errno (counts.map .accepts ++ .fails cError :: answers)
    r.outcome = .socketError .SOCKET_WRITE cError ∧ r.taken.length = counts.sum ∧ ¬ r.ReportsProgress := by
  intro r
  obtain ⟨hout, htaken⟩ : r.outcome = _ ∧ r.taken.length = _ :=
    Stream.write_fails_after hattempts (by rwa [Nat.zero_add])
  refine ⟨hout, htaken, fun h => ?_⟩
  obtain ⟨ex, hex, hcount⟩ := h _ hout
  cases hex
  rw [htaken] at hcount
  simp only [SocketException.withErrno] at hcount
  omega

theorem write_error_reports_no_progress_unlimited :
    ¬ (Stream.write [97, 98, 99] (-1) 0 [.accepts 1, .accepts 1, .fails 32]).ReportsProgress :=
  (write_error_reports_no_progress [97, 98, 99] 0 32 []
    (show (-1 : Int) < 0 ∨ (([1, 1] : List Nat).length : Int) < -1 by decide) (by decide) (by decide)).2.2

/-- Two of three bytes have been taken when the peer is gone: `processed_bytes` is -1. -/
theorem write_error_after_two :
    let r := Stream.write [97, 98, 99] 2 0 [.accepts 2, .fails 32]
    r.outcome = .threw (.socket ⟨.SOCKET_WRITE, 32, -1⟩) ∧ r.taken = [97, 98] ∧ ¬ r.ReportsProgress := by
  refine ⟨by decide, by decide, fun h => ?_⟩
  obtain ⟨ex, hex, hcount⟩ := h (.socket ⟨.SOCKET_WRITE, 32, -1⟩) (by decide)
  cases hex
  exact absurd hcount (by decide)

/-- On a non-blocking descriptor the attempts cover a full socket exactly if the call comes to no try that
would block. -/
theorem attempts_cover_full_iff (buffer : List Byte) (errno : Nat) {attempts : Nat}
    {tries : List (Option Nat)} (hpos : 1 ≤ attempts) (htries : attempts ≤ tries.length) :
    Stream.CoversFull buffer attempts errno tries ↔ Stream.NeverBlocks buffer attempts tries :=
  Stream.coversFull_iff hpos htries

/-- All of the buffer is taken before the socket is full. -/
theorem attempts_cover_full_before :
    Stream.CoversFull [97, 98, 99] 3 0 [some 2, some 1, none] :=
  (attempts_cover_full_iff [97, 98, 99] 0 (show 1 ≤ 3 by decide)
    (show 3 ≤ [some 2, some 1, none].length by decide)).mpr (by decide)

/-- The socket is full at the second of three attempts, and has room again at the third. -/
theorem attempts_given_up :
    (Stream.write [97, 98, 99] 3 0 ([some 2, none, some 1].map Stream.tryOf)).outcome =
        .threw (.socket ⟨.SOCKET_WRITE, 11, -1⟩) ∧
      ¬ Stream.CoversFull [97, 98, 99] 3 0 [some 2, none, some 1] := by
  refine ⟨by decide, fun h => ?_⟩
  have hreturns : (Stream.write [97, 98, 99] 3 0 ([some 2, none, some 1].map Stream.tryOf)).outcome =
      .returned () := h
  exact absurd hreturns (by decide)

end SocketWrapper
