import SocketWrapper.Datagram.Socket

/-!
# Objects that behave alike

The operations read the descriptors, the size of the buffer and the IP version; what is in the buffer is
overwritten before it is copied out.
-/

namespace SocketWrapper.Descriptors.UdpDatagram

open FlatMemory

variable {u u' : UdpDatagram} {kernel : DatagramKernel} {found found' : IpVersion}
  {calls : List DatagramCall} {datagram : List Byte}

/-! ## One `read` -/

theorem take_store_datagram {buffer : List Byte} (h : datagram.length ≤ buffer.length) :
    (store buffer 0 datagram).take datagram.length = datagram := by
  have hin : 0 + datagram.length ≤ buffer.length := by omega
  have hstored := take_store hin
  rwa [Nat.zero_add, List.take_zero, List.nil_append] at hstored

theorem length_receive (u : UdpDatagram) (answer : RecvmsgAnswer) (errno : Nat) :
    (u.receive answer errno).2.buffer.length = u.buffer.length := by
  cases answer with
  | fails e => rfl
  | takes datagram =>
      have hin : 0 + (datagram.take u.buffer.length).length ≤ u.buffer.length := by
        rw [List.length_take]
        omega
      simp only [receive]
      split <;> exact length_store hin

/-- A datagram that fits is in the front of the buffer afterwards. -/
theorem receive_of_le (h : datagram.length ≤ u.buffer.length) (errno : Nat) :
    u.receive (.takes datagram) errno =
      (.returned datagram.length, { u with buffer := store u.buffer 0 datagram }) := by
  rw [receive, if_neg (Nat.not_lt.mpr h), List.take_of_length_le h]

theorem receive_of_lt (h : u.buffer.length < datagram.length) (errno : Nat) :
    (u.receive (.takes datagram) errno).1 = .socketError .SOCKET_RECEIVE_BUFFER_TOO_SMALL errno := by
  rw [receive, if_pos h]

/-! ## Objects that are alike -/

/-- The two objects agree in everything that an operation reads. -/
structure Alike (u u' : UdpDatagram) : Prop where
  size : u.buffer.length = u'.buffer.length
  socketFd : u.socketFd = u'.socketFd
  stopAllOperationsEventFd : u.stopAllOperationsEventFd = u'.stopAllOperationsEventFd
  ipVersion : u.ipVersion = u'.ipVersion
  isSome : u.ipVersion.isSome

/-- An operation has had the same result on both, and they are still alike. -/
structure SameResult (r r' : Outcome (List Byte) × (UdpDatagram × List DatagramCall)) : Prop where
  outcome : r.1 = r'.1
  calls : r.2.2 = r'.2.2
  alike : Alike r.2.1 r'.2.1

theorem Alike.receive (h : Alike u u') (answer : RecvmsgAnswer) (errno : Nat) :
    Alike (u.receive answer errno).2 (u'.receive answer errno).2 := by
  have hkept (v : UdpDatagram) : (v.receive answer errno).2.socketFd = v.socketFd ∧
      (v.receive answer errno).2.stopAllOperationsEventFd = v.stopAllOperationsEventFd ∧
      (v.receive answer errno).2.ipVersion = v.ipVersion := by
    cases answer with
    | fails e => exact ⟨rfl, rfl, rfl⟩
    | takes datagram =>
        simp only [UdpDatagram.receive]
        split <;> exact ⟨rfl, rfl, rfl⟩
  obtain ⟨hfd, hstop, hversion⟩ := hkept u
  obtain ⟨hfd', hstop', hversion'⟩ := hkept u'
  refine ⟨?_, ?_, ?_, ?_, ?_⟩
  · rw [length_receive, length_receive, h.size]
  · rw [hfd, hfd', h.socketFd]
  · rw [hstop, hstop', h.stopAllOperationsEventFd]
  · rw [hversion, hversion', h.ipVersion]
  · rw [hversion]
    exact h.isSome

theorem Alike.read (h : Alike u u') (timeoutMs : Int) :
    SameResult (u.read kernel timeoutMs calls) (u'.read kernel timeoutMs calls) := by
  simp only [UdpDatagram.read, h.socketFd, h.stopAllOperationsEventFd, h.size]
  split
  · exact ⟨rfl, rfl, h⟩
  · split
    · exact ⟨rfl, rfl, h⟩
    · generalize calls ++ _ ++ _ = received
      have halike := h.receive (kernel received).recvmsg (kernel received).errno
      generalize (kernel received).errno = errno at halike ⊢
      cases hanswer : (kernel received).recvmsg with
      | fails e => exact ⟨rfl, rfl, h⟩
      | takes datagram =>
          rw [hanswer] at halike
          rcases Nat.lt_or_ge u.buffer.length datagram.length with hlt | hle
          · have hthrew := receive_of_lt hlt errno
            have hthrew' := receive_of_lt (h.size ▸ hlt) errno
            rw [hthrew, hthrew', Outcome.andThen_threw, Outcome.andThen_threw]
            exact ⟨rfl, rfl, halike⟩
          · rw [receive_of_le hle, receive_of_le (h.size ▸ hle)] at halike ⊢
            refine ⟨?_, rfl, halike⟩
            simp only [Outcome.andThen_returned, copyOut, take_store_datagram hle,
              take_store_datagram (h.size ▸ hle)]

theorem Alike.write (h : Alike u u') (msgData : List Byte) (destinationIp : String) (port : Int) :
    SameResult (u.write kernel found msgData destinationIp port calls)
      (u'.write kernel found' msgData destinationIp port calls) := by
  obtain ⟨version, hversion⟩ := Option.isSome_iff_exists.mp h.isSome
  simp only [UdpDatagram.write, hversion, ← h.ipVersion, Option.getD_some, h.socketFd]
  cases version with
  | IPv6 => exact ⟨rfl, rfl, h⟩
  | IPv4 =>
      simp only
      split <;> exact ⟨rfl, rfl, h⟩

theorem Alike.perform (h : Alike u u') (op : Operation) :
    SameResult (perform kernel found (u, calls) op) (UdpDatagram.perform kernel found' (u', calls) op) := by
  cases op with
  | read timeoutMs => exact h.read timeoutMs
  | write msgData destinationIp port => exact h.write msgData destinationIp port
  | stopReads => exact ⟨rfl, by simp [UdpDatagram.perform, h.stopAllOperationsEventFd], h⟩

theorem Alike.results (h : Alike u u') (ops : List Operation) :
    results kernel found (u, calls) ops = UdpDatagram.results kernel found' (u', calls) ops := by
  induction ops generalizing u u' calls with
  | nil => rfl
  | cons op ops ih =>
      have hsame : SameResult (UdpDatagram.perform kernel found (u, calls) op)
          (UdpDatagram.perform kernel found' (u', calls) op) := h.perform op
      simp only [UdpDatagram.results]
      generalize UdpDatagram.perform kernel found (u, calls) op = r at hsame ⊢
      generalize UdpDatagram.perform kernel found' (u', calls) op = r' at hsame ⊢
      obtain ⟨o, v, c⟩ := r
      obtain ⟨o', v', c'⟩ := r'
      obtain ⟨rfl, rfl, halike⟩ := hsame
      rw [ih halike]

/-! ## Objects that are not -/

/-- A kernel that marks the socket and hands over one datagram; `::sendto` succeeds. -/
def delivering (datagram : List Byte) : DatagramKernel :=
  fun _ => ⟨some ⟨1, true, false⟩, .takes datagram, none, 0⟩

theorem results_read_of_le (h : datagram.length ≤ u.buffer.length) :
    (results (delivering datagram) found (u, []) [.read (-1)]).1 = [.returned datagram] := by
  simp [results, perform, read, delivering, pollVerdict, receive_of_le h, copyOut,
    take_store_datagram h]

theorem results_read_of_lt (h : u.buffer.length < datagram.length) :
    (results (delivering datagram) found (u, []) [.read (-1)]).1 =
      [.socketError .SOCKET_RECEIVE_BUFFER_TOO_SMALL 0] := by
  have hthrew := receive_of_lt h 0
  cases hr : u.receive (.takes datagram) 0 with
  | mk o v =>
      rw [hr] at hthrew
      obtain rfl : o = _ := hthrew
      simp [results, perform, read, delivering, pollVerdict, hr]

theorem results_write (u : UdpDatagram) (found : IpVersion) :
    (results (delivering []) found (u, []) [.write [] "" 0]).1 =
      [match u.ipVersion.getD found with
        | .IPv6 => .threw (.logicError "IPv6 is not supported as of now")
        | .IPv4 => .returned []] := by
  simp only [results, perform, write, delivering]
  cases u.ipVersion.getD found <;> rfl

theorem BehavesAs.size_le (h : BehavesAs u u') : u'.buffer.length ≤ u.buffer.length := by
  by_contra hlt
  have hsame := h (delivering u'.buffer) .IPv4 .IPv4 [.read (-1)]
  rw [results_read_of_lt (Nat.not_le.mp hlt), results_read_of_le (Nat.le_refl _)] at hsame
  cases hsame

theorem BehavesAs.ipVersion_getD (h : BehavesAs u u') (found found' : IpVersion) :
    u.ipVersion.getD found = u'.ipVersion.getD found' := by
  have hsame := h (delivering []) found found' [.write [] "" 0]
  rw [results_write, results_write] at hsame
  revert hsame
  cases u.ipVersion.getD found <;> cases u'.ipVersion.getD found' <;> simp

theorem BehavesAs.symm (h : BehavesAs u u') : BehavesAs u' u :=
  fun kernel found found' ops => (h kernel found' found ops).symm

/-- An IP version that no constructor has set can be found to be either. -/
theorem BehavesAs.ipVersion_eq (h : BehavesAs u u') : u.ipVersion = u'.ipVersion ∧ u.ipVersion.isSome := by
  have hsame := h.ipVersion_getD
  cases hu : u.ipVersion with
  | none =>
      rw [hu] at hsame
      exact absurd ((hsame .IPv4 .IPv4).trans (hsame .IPv6 .IPv4).symm) (by decide)
  | some version =>
      rw [hu] at hsame
      cases hu' : u'.ipVersion with
      | none =>
          rw [hu'] at hsame
          exact absurd ((hsame .IPv4 .IPv4).symm.trans (hsame .IPv4 .IPv6)) (by decide)
      | some version' =>
          rw [hu'] at hsame
          exact ⟨congrArg some (hsame .IPv4 .IPv4), rfl⟩

theorem behavesAs_iff (hfd : u.socketFd = u'.socketFd)
    (hstop : u.stopAllOperationsEventFd = u'.stopAllOperationsEventFd) : BehavesAs u u' ↔ Alike u u' := by
  constructor
  · intro h
    obtain ⟨hversion, hsome⟩ := h.ipVersion_eq
    exact ⟨Nat.le_antisymm h.symm.size_le h.size_le, hfd, hstop, hversion, hsome⟩
  · intro h kernel found found' ops
    rw [h.results]

/-! ## Chains of moves -/

theorem fds_moved (u : UdpDatagram) (moves : List Move) :
    (moves.foldl Move.apply u).socketFd = u.socketFd ∧
      (moves.foldl Move.apply u).stopAllOperationsEventFd = u.stopAllOperationsEventFd := by
  induction moves generalizing u with
  | nil => exact ⟨rfl, rfl⟩
  | cons move moves ih =>
      obtain ⟨hfd, hstop⟩ := ih (move.apply u)
      rw [List.foldl_cons, hfd, hstop]
      cases move <;> exact ⟨rfl, rfl⟩

theorem alike_moved_iff (u : UdpDatagram) (moves : List Move) :
    Alike (moves.foldl Move.apply u) u ↔ CarriedBy u moves := by
  obtain ⟨hfd, hstop⟩ := fds_moved u moves
  rcases List.eq_nil_or_concat moves with rfl | ⟨moves, last, rfl⟩
  · exact ⟨fun h => ⟨h.isSome, trivial⟩, fun h => ⟨rfl, rfl, rfl, rfl, h.1⟩⟩
  · rw [List.concat_eq_append] at hfd hstop ⊢
    rw [CarriedBy, List.getLast?_concat]
    rw [List.foldl_append, List.foldl_cons, List.foldl_nil] at hfd hstop ⊢
    cases last with
    | construct => exact ⟨fun h => absurd h.isSome (by simp [Move.apply, moveConstruct]), fun h => h.2.elim⟩
    | assign target =>
        constructor
        · intro h
          exact ⟨h.ipVersion ▸ h.isSome, h.size, h.ipVersion⟩
        · rintro ⟨hsome, hsize, hversion⟩
          exact ⟨hsize, hfd, hstop, hversion, hversion ▸ hsome⟩

end SocketWrapper.Descriptors.UdpDatagram
