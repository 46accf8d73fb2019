import SocketWrapper.Conditional.Process

/-!
# What a call of `readBlocking` does to a descriptor that is not its own
-/

namespace SocketWrapper

/-! ## Descriptors -/

namespace Descriptor

variable {d : Descriptor}

theorem NothingToTake.revents (h : d.NothingToTake) : d.revents = .pollin := by
  cases d with
  | closed => exact h.elim
  | eventfd counter => exact h.elim
  | socket arrived ended => exact if_pos (.inr h.2)
  | datagramSocket queued => exact h.elim
  | listeningSocket clients => exact if_pos h

/-- After `POLLIN`, the `::read` leaves the descriptor as it was only if there was nothing to take. -/
theorem read_eq_iff (h : d.revents = .pollin) : d.read = d ↔ d.NothingToTake := by
  cases d with
  | closed => cases h
  | eventfd counter =>
      have hpos : 0 < counter := by
        by_contra hzero
        simp [Descriptor.revents, hzero] at h
      simp only [Descriptor.read, NothingToTake, Descriptor.eventfd.injEq, iff_false]
      omega
  | socket arrived ended =>
      have hmarked : arrived ≠ [] ∨ ended := by
        by_contra hnone
        simp only [Descriptor.revents, hnone, if_false] at h
        cases h
      simp only [Descriptor.read, NothingToTake, Descriptor.socket.injEq, and_true]
      constructor
      · intro hdrop
        have hlen := congrArg List.length hdrop
        rw [List.length_drop] at hlen
        have hnil : arrived = [] := by
          rw [← List.length_eq_zero_iff]
          omega
        exact ⟨hnil, hmarked.resolve_left fun hne => hne hnil⟩
      · rintro ⟨rfl, -⟩
        rfl
  | datagramSocket queued =>
      cases queued with
      | nil => cases h
      | cons datagram queued => simp [Descriptor.read, NothingToTake]
  | listeningSocket clients =>
      have hpos : 0 < clients := by
        by_contra hzero
        simp [Descriptor.revents, hzero] at h
      simp [Descriptor.read, NothingToTake, hpos]

end Descriptor

/-! ## Streams -/

namespace OpenStream

variable {o : OpenStream} {fd : Fd}

theorem takeToken_eq_iff : o.takeToken fd = o ↔ (o.descriptor fd).read = o.descriptor fd := by
  obtain ⟨S, s, hentries⟩ := o
  simp only [takeToken, descriptor]
  split
  · simp [Descriptor.read]
  · simp only [Descriptor.read, Descriptor.eventfd.injEq]
    constructor
    · intro h
      have hstate : s.takeToken fd = s := (OpenStream.mk.inj h).2
      have hcounter := congrArg (fun s => s.eventFds.counter fd) hstate
      simpa [ConditionalBufferedStream.takeToken, EventFds.take] using hcounter
    · intro h
      simp [ConditionalBufferedStream.takeToken, EventFds.take, h]

theorem read_unregistered (hfd : ¬ o.setup.Registered fd) :
    o.read fd = (.threw (.socket (.ofType .SOCKET_INVALID_CONDITION)), o) := by
  have hnone : o.state.receivedDataPerCondition fd = none := by
    rw [← Option.not_isSome_iff_eq_none, o.entries fd]
    exact hfd
  have hread : o.state.read fd = (.threw (.socket (.ofType .SOCKET_INVALID_CONDITION)), o.state) := by
    rw [ConditionalBufferedStream.read, hnone]
  simp only [read, hread]

end OpenStream

/-! ## The process -/

theorem modify_eq_iff {α : Type*} {l : List α} {i : Nat} {f : α → α} (hi : i < l.length) :
    l.modify i f = l ↔ f l[i] = l[i] := by
  constructor
  · intro h
    have hget := congrArg (fun l => l[i]?) h
    simpa only [List.getElem?_modify_eq, List.getElem?_eq_getElem hi, Option.map_eq_map,
      Option.map_some, Option.some.injEq] using hget
  · intro h
    refine List.ext_getElem? fun j => ?_
    by_cases hij : i = j
    · subst hij
      rw [List.getElem?_modify_eq, List.getElem?_eq_getElem hi, Option.map_eq_map, Option.map_some, h]
    · rw [List.getElem?_modify_ne _ _ hij]

namespace Process

variable {p : Process} {fd : Fd} {timeoutMs : Int} {pollFails : Bool} {errno : Nat}

theorem setup_readDescriptor : (p.readDescriptor fd).stream.setup = p.stream.setup := by
  rw [readDescriptor]
  split
  · simp only [OpenStream.takeToken]
    split <;> rfl
  · split <;> rfl

/-- The process is left as it was only if the descriptor was. -/
theorem readDescriptor_eq_iff (hfd : ¬ p.stream.setup.Registered fd) :
    p.readDescriptor fd = p ↔ (p.descriptor fd).read = p.descriptor fd := by
  obtain ⟨stream, others, descriptors⟩ := p
  simp only [readDescriptor, descriptor, hfd, if_false]
  cases howner : owner? ⟨stream, others, descriptors⟩ fd with
  | none => simp
  | some i =>
      obtain ⟨hi, -⟩ := List.findIdx?_eq_some_iff_getElem.mp howner
      simp [List.getElem?_eq_getElem hi, ← OpenStream.takeToken_eq_iff, modify_eq_iff hi]

theorem revents_eq (hpos : 0 ≤ fd) : p.revents fd = (p.descriptor fd).revents :=
  if_neg (Int.not_lt.mpr hpos)

/-- What the call does where it does not come to `read`. -/
theorem readBlocking_of_not_pollin (h : pollFails = true ∨ p.revents fd ≠ .pollin) :
    ¬ (p.readBlocking fd timeoutMs pollFails errno).1.ThrewType .SOCKET_INVALID_CONDITION := by
  rw [readBlocking]
  split
  · simp
  · rename_i hpoll
    split
    · rename_i hpollin
      exact absurd hpollin (h.resolve_left hpoll)
    · simp
    · split
      · simp
      · simp only [ConditionalBufferedStream.pollExpired]
        split <;> simp

theorem readBlocking_of_pollin (hfd : ¬ p.stream.setup.Registered fd) (hpollin : p.revents fd = .pollin) :
    p.readBlocking fd timeoutMs false errno =
      (.threw (.socket (.ofType .SOCKET_INVALID_CONDITION)), p.readDescriptor fd) := by
  have hsame : ¬ (p.readDescriptor fd).stream.setup.Registered fd := by rwa [setup_readDescriptor]
  have hread := OpenStream.read_unregistered hsame
  simp only [readBlocking, hpollin, Bool.false_eq_true, if_false, hread]

theorem refuses_iff (hfd : ¬ p.stream.setup.Registered fd) :
    p.Refuses fd timeoutMs pollFails errno ↔
      pollFails = false ∧ 0 ≤ fd ∧ (p.descriptor fd).NothingToTake := by
  by_cases hpoll : pollFails = false ∧ p.revents fd = .pollin
  · obtain ⟨rfl, hpollin⟩ := hpoll
    have hpos : 0 ≤ fd := by
      by_contra hneg
      rw [revents, if_pos (Int.not_le.mp hneg)] at hpollin
      cases hpollin
    rw [revents_eq hpos] at hpollin
    simp only [Refuses, readBlocking_of_pollin hfd ((revents_eq hpos).trans hpollin),
      readDescriptor_eq_iff hfd, Descriptor.read_eq_iff hpollin, Outcome.threwType_socket,
      SocketException.exceptionType_ofType, hpos, true_and]
  · refine iff_of_false (fun h => readBlocking_of_not_pollin ?_ h.1) fun h => hpoll ⟨h.1, ?_⟩
    · rw [not_and_or, Bool.not_eq_false] at hpoll
      exact hpoll
    · rw [revents_eq h.2.1]
      exact h.2.2.revents

/-- On one of the stream's own descriptors the call is that of a stream alone. -/
theorem readBlocking_registered (hfd : p.stream.setup.Registered fd) (hpos : 0 ≤ fd)
    (hopen : fd ∉ p.stream.state.eventFds.closed) :
    let r := p.readBlocking fd timeoutMs pollFails errno
    r.1 = (p.stream.state.readBlocking fd timeoutMs pollFails errno).1 ∧
      r.2.stream.state = (p.stream.state.readBlocking fd timeoutMs pollFails errno).2 ∧
      r.2.others = p.others ∧ r.2.descriptors = p.descriptors := by
  have hdescriptor : p.descriptor fd = .eventfd (p.stream.state.eventFds.counter fd) := by
    simp only [descriptor, hfd, if_true, OpenStream.descriptor, hopen, if_false]
  simp only [readBlocking, ConditionalBufferedStream.readBlocking, revents_eq hpos, hdescriptor,
    Descriptor.revents]
  by_cases hfails : pollFails = true
  · simp [hfails]
  · by_cases hcounter : 0 < p.stream.state.eventFds.counter fd
    · simp [hfails, hcounter, readDescriptor, hfd, OpenStream.takeToken, hopen, OpenStream.read]
    · by_cases htime : timeoutMs < 0 <;> simp [hfails, hcounter, htime]

end Process

end SocketWrapper
