import SocketWrapper.Datagram.Lemmas.Moved
import SocketWrapper.Datagram.Polling

/-!
# A `read` after its `::poll`
-/

namespace SocketWrapper.Descriptors

theorem PollAnswer.Posix.not_ready {timeoutMs : Int} {answer : PollAnswer} (h : answer.Posix timeoutMs)
    (hfailed : answer.result = -1) : answer.marks.socket = false := by
  cases h with
  | fails => rfl
  | expires _ => rfl
  | ready _ =>
      simp only at hfailed
      omega

namespace UdpDatagram

variable {kernel : DatagramKernel} {u : UdpDatagram} {timeoutMs : Int} {calls : List DatagramCall}
  {answer : PollAnswer}

theorem read_of_verdict {ex : SocketException} (hpoll : (kernel (u.polled timeoutMs calls)).poll = some answer)
    (hverdict : pollVerdict timeoutMs answer (kernel (u.polled timeoutMs calls)).errno = some ex) :
    (u.read kernel timeoutMs calls).1 = .threw (.socket ex) := by
  rw [polled] at hpoll hverdict
  simp only [read, hpoll, hverdict]

/-- What becomes of a `read` that comes to its `::recvmsg`. -/
theorem read_of_no_verdict (hpoll : (kernel (u.polled timeoutMs calls)).poll = some answer)
    (hverdict : pollVerdict timeoutMs answer (kernel (u.polled timeoutMs calls)).errno = none) :
    match (kernel (u.receiving timeoutMs calls)).recvmsg with
    | .fails errno => (u.read kernel timeoutMs calls).1 = .socketError .SOCKET_READ errno
    | .takes datagram =>
        if datagram.length ≤ u.buffer.length then (u.read kernel timeoutMs calls).1 = .returned datagram
        else (u.read kernel timeoutMs calls).1.ThrewType .SOCKET_RECEIVE_BUFFER_TOO_SMALL := by
  rw [polled] at hpoll hverdict
  simp only [receiving, polled, read, hpoll, hverdict]
  split
  · rename_i errno hrecvmsg
    simp only [hrecvmsg, receive, Outcome.andThen_threw]
  · rename_i datagram hrecvmsg
    split
    · rename_i hle
      simp only [hrecvmsg, receive_of_le hle, Outcome.andThen_returned, copyOut, take_store_datagram hle]
    · rename_i hlt
      simp only [hrecvmsg, receive, Nat.not_le.mp hlt, if_true, Outcome.andThen_threw,
        Outcome.threwType_socket, SocketException.exceptionType_withErrno]

theorem deliversReady_of_verdict {ex : SocketException}
    (hpoll : (kernel (u.polled timeoutMs calls)).poll = some answer)
    (hverdict : pollVerdict timeoutMs answer (kernel (u.polled timeoutMs calls)).errno = some ex)
    (hready : answer.marks.socket = false)
    (hfailed : ex.exceptionType = .SOCKET_POLL → answer.result = -1) :
    u.DeliversReady kernel timeoutMs calls answer where
  fits h := absurd h (by simp [hready])
  tooLong h := absurd h (by simp [hready])
  whole data h := by
    rw [read_of_verdict hpoll hverdict] at h
    cases h
  pollFailed h := by
    rw [read_of_verdict hpoll hverdict, Outcome.threwType_socket] at h
    exact hfailed h

theorem deliversReady_of_no_verdict (hpoll : (kernel (u.polled timeoutMs calls)).poll = some answer)
    (hverdict : pollVerdict timeoutMs answer (kernel (u.polled timeoutMs calls)).errno = none) :
    u.DeliversReady kernel timeoutMs calls answer := by
  have hread := read_of_no_verdict hpoll hverdict
  split at hread
  · rename_i errno hrecvmsg
    refine ⟨fun _ d h => ?_, fun _ d h => ?_, fun data h => ?_, fun h => ?_⟩
    · rw [hrecvmsg] at h
      cases h
    · rw [hrecvmsg] at h
      cases h
    · rw [hread] at h
      cases h
    · rw [hread, Outcome.threwType_socket] at h
      cases h
  · rename_i datagram hrecvmsg
    split at hread
    · rename_i hle
      refine ⟨fun _ d h _ => ?_, fun _ d h hlt => ?_, fun data h => ?_, fun h => ?_⟩
      · rw [hrecvmsg] at h
        cases h
        exact hread
      · rw [hrecvmsg] at h
        cases h
        exact absurd hle (Nat.not_le.mpr hlt)
      · rw [hread] at h
        cases h
        exact hrecvmsg
      · rw [hread] at h
        exact absurd h Outcome.not_threwType_returned
    · rename_i hlt
      obtain ⟨ex, hex, htype⟩ := hread
      refine ⟨fun _ d h hle => ?_, fun _ d h _ => ⟨ex, hex, htype⟩, fun data h => ?_, fun h => ?_⟩
      · rw [hrecvmsg] at h
        cases h
        exact absurd hle hlt
      · rw [hex] at h
        cases h
      · rw [hex, Outcome.threwType_socket, htype] at h
        cases h

/-- Nothing is ready, and the result is not the timeout by chance. -/
theorem exists_verdict (errno : Nat) (hne : answer.result ≠ timeoutMs)
    (hready : ¬ answer.marks.socket = true) :
    ∃ ex, pollVerdict timeoutMs answer errno = some ex ∧ ex.exceptionType ≠ .SOCKET_POLL := by
  by_cases hending : answer.marks.ending = true
  · refine ⟨.withErrno .SOCKET_TERMINATION_REQUEST errno, ?_, by simp⟩
    simp [pollVerdict, hne, hready, hending]
  · refine ⟨.withErrno .SOCKET_READ_TIMEOUT errno, ?_, by simp⟩
    simp [pollVerdict, hne, hready, hending]

theorem deliversReady_iff (hpoll : (kernel (u.polled timeoutMs calls)).poll = some answer)
    (hposix : answer.Posix timeoutMs) :
    u.DeliversReady kernel timeoutMs calls answer ↔ answer.result = -1 ∨ answer.result ≠ timeoutMs := by
  constructor
  · intro h
    by_contra hcoincides
    rw [not_or, not_not] at hcoincides
    refine hcoincides.1 (h.pollFailed ?_)
    rw [read_of_verdict hpoll (if_pos hcoincides.2), Outcome.threwType_socket]
    rfl
  · intro h
    by_cases hsame : answer.result = timeoutMs
    · have hfailed : answer.result = -1 := h.resolve_right fun hne => hne hsame
      exact deliversReady_of_verdict hpoll (if_pos hsame) (hposix.not_ready hfailed) fun _ => hfailed
    · by_cases hready : answer.marks.socket = true
      · exact deliversReady_of_no_verdict hpoll (by simp [pollVerdict, hsame, hready])
      · obtain ⟨ex, hverdict, htype⟩ := exists_verdict (kernel (u.polled timeoutMs calls)).errno hsame hready
        exact deliversReady_of_verdict hpoll hverdict (by simpa using hready) fun h => absurd h htype

end UdpDatagram

end SocketWrapper.Descriptors
