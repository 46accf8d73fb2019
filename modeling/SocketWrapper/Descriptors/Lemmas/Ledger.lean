import SocketWrapper.Descriptors.Machine

/-!
# Every descriptor and every block has its place

What the calls and the operations on objects do to the account of who holds what.
-/

namespace SocketWrapper.Descriptors

open Ownership

variable {C : Choices} {v : Verdicts} {k k' : Kernel} {sockets lost : List Fd} {blocks : List Int}
  {fd : Fd} {p p' : Program}

/-! ## The calls -/

/-- The open descriptors are `sockets`, the eventfds and those in `lost`, and the allocated blocks are
`blocks`. -/
structure Ledger (sockets lost : List Fd) (blocks : List Int) (k : Kernel) : Prop where
  fds : Accounts (sockets ++ (k.eventFds ++ lost)) k.fds
  heap : Accounts blocks k.heap
  alive : k.terminated = false

namespace Ledger

theorem of_perm {sockets' : List Fd} {blocks' : List Int} (h : Ledger sockets lost blocks k)
    (hsockets : sockets'.Perm sockets) (hblocks : blocks'.Perm blocks) : Ledger sockets' lost blocks' k :=
  ⟨h.fds.of_perm (hsockets.append_right _), h.heap.of_perm hblocks, h.alive⟩

theorem lose {gone : List Fd} (h : Ledger (gone ++ sockets) lost blocks k) :
    Ledger sockets (gone ++ lost) blocks k := by
  refine ⟨h.fds.of_perm (List.perm_iff_count.mpr fun fd => ?_), h.heap, h.alive⟩
  simp only [List.count_append]
  omega

theorem openFd (h : Ledger sockets lost blocks k) :
    Ledger ((k.openFd C).1 :: sockets) lost blocks (k.openFd C).2 :=
  ⟨h.fds.acquire (C.descriptor_fresh k), h.heap, h.alive⟩

theorem eventfd (h : Ledger sockets lost blocks k) (verdict : Option Nat) :
    Ledger sockets lost blocks (k.eventfd C verdict).2 := by
  cases verdict with
  | some errno => exact h
  | none =>
      refine ⟨?_, h.heap, h.alive⟩
      exact (h.fds.acquire (C.descriptor_fresh k)).of_perm List.perm_middle

theorem write (h : Ledger sockets lost blocks k) (fd : Fd) (value : Nat) :
    Ledger sockets lost blocks (k.write fd value) := by
  simp only [Kernel.write]
  split
  · exact ⟨h.fds, h.heap, h.alive⟩
  · exact h

/-- A descriptor that is held is open, so that closing it succeeds. -/
theorem close (h : Ledger (fd :: sockets) lost blocks k) :
    (k.close fd).1 = true ∧ Ledger sockets lost blocks (k.close fd).2 :=
  ⟨decide_eq_true (h.fds.mem_opened (List.mem_cons_self ..)), h.fds.release, h.heap, h.alive⟩

theorem calloc (h : Ledger sockets lost blocks k) (size : Nat) :
    Ledger sockets lost ((if C.block k size = 0 then [] else [C.block k size]) ++ blocks)
      (k.calloc C size).2 := by
  simp only [Kernel.calloc]
  split
  · exact h
  · exact ⟨h.fds, h.heap.acquire (C.block_fresh k size), h.alive⟩

theorem free {ptr : Int} (h : Ledger sockets lost ((if ptr = 0 then [] else [ptr]) ++ blocks) k) :
    Ledger sockets lost blocks (k.free ptr) := by
  simp only [Kernel.free]
  split
  · rename_i hnull
    rwa [if_pos hnull] at h
  · rename_i hnull
    rw [if_neg hnull] at h
    exact ⟨h.fds, h.heap.release, h.alive⟩

end Ledger

/-! ## The objects -/

@[simp] theorem nonnegative_openFd : nonnegative (k.openFd C).1 = [(k.openFd C).1] :=
  if_neg (Int.not_lt.mpr (C.descriptor_nonneg k))

theorem Ledger.destroyStream {s : Stream}
    (h : Ledger (nonnegative s.streamFileDescriptor ++ sockets) lost blocks k) :
    Ledger sockets lost blocks (s.destroy k) := by
  simp only [nonnegative] at h
  simp only [Stream.destroy]
  split
  · rename_i hmarker
    rwa [if_pos hmarker] at h
  · rename_i hmarker
    rw [if_neg hmarker] at h
    obtain ⟨hclosed, h'⟩ := (h.write s.stopAllOperationsEventFd semaphoreValue).close
    rw [if_pos hclosed]
    exact h'

theorem Ledger.destroyUdpDatagram {u : UdpDatagram}
    (h : Ledger (nonnegative u.socketFd ++ sockets) lost blocks k) :
    Ledger sockets lost blocks (u.destroy k) :=
  Ledger.destroyStream (s := ⟨u.socketFd, u.stopAllOperationsEventFd⟩) h

theorem Ledger.stop {l : Listening}
    (h : Ledger ((if l.stoppedAccepting then [] else [l.listenerSocketFd]) ++ sockets) lost blocks k) :
    (l.stop k).1.stoppedAccepting = true ∧ Ledger sockets lost blocks (l.stop k).2 := by
  simp only [Listening.stop]
  split
  · rename_i hstopped
    rw [if_pos hstopped] at h
    exact ⟨hstopped, h⟩
  · rename_i hstopped
    rw [if_neg hstopped] at h
    exact ⟨rfl, (h.write l.listenerEndFd semaphoreValue).close.2⟩

theorem Ledger.destroy {o : Object} (h : Ledger (o.sockets ++ sockets) lost (o.blocks ++ blocks) k) :
    Ledger sockets lost blocks (o.destroy k) := by
  cases o with
  | stream s => exact h.destroyStream
  | udpDatagram u => exact h.destroyUdpDatagram
  | buffered b =>
      refine Ledger.destroyStream ?_
      split
      · rename_i hvalid
        refine Ledger.free ?_
        simpa [Object.sockets, Object.blocks, hvalid] using h
      · rename_i hinvalid
        simpa [Object.sockets, Object.blocks, Decidable.not_not.mp hinvalid] using h
  | listener l => exact h.stop.2
  | listenerBase l => exact h.stop.2

/-- A stop leaves the object with its socket, or closes that and leaves none. -/
theorem Ledger.stopObject {o : Object} (h : Ledger (o.sockets ++ sockets) lost (o.blocks ++ blocks) k) :
    Ledger ((o.stop k).1.sockets ++ sockets) lost ((o.stop k).1.blocks ++ blocks) (o.stop k).2 := by
  cases o with
  | stream s => exact h.write _ _
  | udpDatagram u => exact h.write _ _
  | buffered b => exact h.write _ _
  | listener l =>
      obtain ⟨hstopped, h'⟩ := Ledger.stop h
      simpa [Object.stop, Object.sockets, Object.blocks, Listener.stopAccepting, hstopped] using h'
  | listenerBase l =>
      obtain ⟨hstopped, h'⟩ := Ledger.stop h
      simpa [Object.stop, Object.sockets, Object.blocks, ListenerBase.stopAccepting, hstopped] using h'

/-! ## Moves -/

/-- The new object has what the source had, and the source has nothing left. -/
theorem of_moveConstruct {o created left : Object} (h : o.moveConstruct = some (created, left)) :
    created.sockets = o.sockets ∧ left.sockets = [] ∧ created.blocks = o.blocks ∧ left.blocks = [] := by
  cases o with
  | stream s =>
      cases h
      exact ⟨rfl, rfl, rfl, rfl⟩
  | udpDatagram u =>
      cases h
      exact ⟨rfl, rfl, rfl, rfl⟩
  | buffered b =>
      cases h
      exact ⟨rfl, rfl, rfl, rfl⟩
  | listener l => cases h
  | listenerBase l => cases h

/-- The target has what the source had; what the target had is with neither. -/
theorem of_moveAssign {o src assigned left : Object} (h : o.moveAssign src = some (assigned, left)) :
    assigned.sockets = src.sockets ∧ left.sockets = [] ∧ o.blocks = [] ∧ src.blocks = [] ∧
      assigned.blocks = [] ∧ left.blocks = [] := by
  cases o <;> cases src <;> cases h <;> exact ⟨rfl, rfl, rfl, rfl, rfl, rfl⟩

theorem Ledger.wrap (s : Stream) (h : Ledger sockets lost blocks k) (bufferSize : Nat) :
    Ledger sockets lost ((Object.buffered (BufferedStream.wrap C s bufferSize k).1).blocks ++ blocks)
      (BufferedStream.wrap C s bufferSize k).2.2 := by
  have hne : C.block k bufferSize ≠ -1 := by
    have hnonneg := C.block_nonneg k bufferSize
    omega
  have hblocks : (Object.buffered (BufferedStream.wrap C s bufferSize k).1).blocks =
      if C.block k bufferSize = 0 then [] else [C.block k bufferSize] := by
    simp [Object.blocks, BufferedStream.wrap, BufferedStream.make, Kernel.calloc,
      BufferedStream.invalidBuffer, hne]
  -- the parameter's destructor finds the marker
  have hkernel : (BufferedStream.wrap C s bufferSize k).2.2 = (k.calloc C bufferSize).2 := rfl
  rw [hblocks, hkernel]
  exact h.calloc bufferSize

/-! ## Creations -/

namespace Ledger

theorem makeStream {s : Stream} {verdict : Option Nat} (h : Ledger sockets lost blocks k)
    (hmake : Stream.make C fd verdict k = (.returned s, k')) :
    s.streamFileDescriptor = fd ∧ Ledger sockets lost blocks k' := by
  simp only [Stream.make] at hmake
  split at hmake
  · cases hmake
  · cases hmake
    exact ⟨rfl, h.eventfd verdict⟩

theorem makeStreamOpened {s : Stream} {verdict : Option Nat} (h : Ledger sockets lost blocks k)
    (hmake : Stream.make C (k.openFd C).1 verdict (k.openFd C).2 = (.returned s, k')) :
    Ledger (nonnegative s.streamFileDescriptor ++ sockets) lost blocks k' := by
  obtain ⟨hfd, h'⟩ := (h.openFd (C := C)).makeStream hmake
  rw [hfd, nonnegative_openFd]
  exact h'

theorem createTcpStreamToServer {s : Stream} (h : Ledger sockets lost blocks k)
    (hcreate : StreamFactory.createTcpStreamToServer C v k = (.returned s, k')) :
    Ledger (nonnegative s.streamFileDescriptor ++ sockets) lost blocks k' := by
  simp only [StreamFactory.createTcpStreamToServer] at hcreate
  split at hcreate
  · cases hcreate
  · split at hcreate
    · cases hcreate
    · exact h.makeStreamOpened hcreate

theorem createPipe {s s' : Stream} (h : Ledger sockets lost blocks k)
    (hcreate : StreamFactory.createPipe C v k = (.returned (s, s'), k')) :
    Ledger (nonnegative s.streamFileDescriptor ++ (nonnegative s'.streamFileDescriptor ++ sockets)) lost
      blocks k' := by
  simp only [StreamFactory.createPipe] at hcreate
  split at hcreate
  · cases hcreate
  · split at hcreate
    · rename_i first k₁ hfirst
      split at hcreate
      · rename_i second k₂ hsecond
        cases hcreate
        obtain ⟨hfd, h₁⟩ := ((h.openFd (C := C)).openFd (C := C)).makeStream hfirst
        obtain ⟨hfd', h₂⟩ := h₁.makeStream hsecond
        rw [hfd, hfd', nonnegative_openFd, nonnegative_openFd]
        exact h₂.of_perm (.swap ..) .rfl
      · cases hcreate
      · cases hcreate
    · cases hcreate
    · cases hcreate

theorem accept {l : Listening} {marks : Marks} {errno : Nat} {s : Stream}
    (h : Ledger sockets lost blocks k) (haccept : Listener.accept C v l marks errno k = (.returned s, k')) :
    Ledger (nonnegative s.streamFileDescriptor ++ sockets) lost blocks k' := by
  have hlogged : ∀ polled accepted, Ledger sockets lost blocks
      { k with polled := polled, accepted := accepted } := fun _ _ => ⟨h.fds, h.heap, h.alive⟩
  simp only [Listener.accept] at haccept
  split at haccept
  · cases haccept
  · split at haccept
    · split at haccept
      · cases haccept
      · exact (hlogged _ _).makeStreamOpened haccept
    · split at haccept <;> cases haccept

theorem udpDatagram {version : IpVersion} {bufferSize : Int} {u : UdpDatagram}
    (h : Ledger sockets lost blocks k)
    (hmake : UdpDatagram.make C v version bufferSize k = (.returned u, k')) :
    Ledger (nonnegative u.socketFd ++ sockets) lost blocks k' := by
  simp only [UdpDatagram.make] at hmake
  split at hmake
  · cases hmake
  · split at hmake
    · cases hmake
    · split at hmake
      · cases hmake
      · split at hmake
        · cases hmake
        · cases hmake
          rw [nonnegative_openFd]
          exact (h.openFd (C := C)).eventfd _

end Ledger

/-- Setting up the socket changes nothing that the object or the kernel remembers here. -/
theorem of_setUp {reuse : Bool} {l l' : Listening} (h : Listening.setUp v reuse l k = (.returned l', k')) :
    l' = l ∧ k' = k := by
  simp only [Listening.setUp] at h
  split at h
  · cases h
  · split at h
    · cases h
    · split at h
      · cases h
      · split at h
        · cases h
        · cases h
          exact ⟨rfl, rfl⟩

namespace Ledger

theorem setUp {reuse : Bool} {l : Listening} {endFd : Fd} (h : Ledger sockets lost blocks k)
    (hmake : Listening.setUp v reuse ⟨(k.openFd C).1, endFd, false⟩ (k.openFd C).2 = (.returned l, k')) :
    Ledger ((if l.stoppedAccepting then [] else [l.listenerSocketFd]) ++ sockets) lost blocks k' := by
  obtain ⟨rfl, rfl⟩ := of_setUp hmake
  exact h.openFd

theorem listener {reuse : Bool} {l : Listening} (h : Ledger sockets lost blocks k)
    (hmake : Listener.make C v reuse k = (.returned l, k')) :
    Ledger ((if l.stoppedAccepting then [] else [l.listenerSocketFd]) ++ sockets) lost blocks k' := by
  simp only [Listener.make] at hmake
  split at hmake
  · cases hmake
  · exact (h.eventfd (v (.eventfd 0))).setUp hmake

theorem listenerBase {l : Listening} (h : Ledger sockets lost blocks k)
    (hmake : ListenerBase.make C v k = (.returned l, k')) :
    Ledger ((if l.stoppedAccepting then [] else [l.listenerSocketFd]) ++ sockets) lost blocks k' := by
  simp only [ListenerBase.make] at hmake
  split at hmake
  · cases hmake
  · split at hmake
    · cases hmake
    · exact (h.eventfd (v (.eventfd 0))).setUp hmake

theorem create {c : Creation} {created : List Object} (h : Ledger sockets lost blocks k)
    (hcreate : c.perform C v k = (.returned created, k')) :
    Ledger (created.flatMap Object.sockets ++ sockets) lost (created.flatMap Object.blocks ++ blocks) k' := by
  cases c with
  | createPipe =>
      obtain ⟨⟨s, s'⟩, k₁, hpipe, hobjects⟩ := Outcome.andThen_returned_inv hcreate
      cases hobjects
      simpa [Object.sockets, Object.blocks] using h.createPipe hpipe
  | createTcpStreamToServer =>
      obtain ⟨s, k₁, htcp, hobjects⟩ := Outcome.andThen_returned_inv hcreate
      cases hobjects
      simpa [Object.sockets, Object.blocks] using h.createTcpStreamToServer htcp
  | listener reuse =>
      obtain ⟨l, k₁, hmake, hobjects⟩ := Outcome.andThen_returned_inv hcreate
      cases hobjects
      simpa [Object.sockets, Object.blocks] using h.listener hmake
  | listenerBase =>
      obtain ⟨l, k₁, hmake, hobjects⟩ := Outcome.andThen_returned_inv hcreate
      cases hobjects
      simpa [Object.sockets, Object.blocks] using h.listenerBase hmake
  | accept l marks errno =>
      obtain ⟨s, k₁, haccept, hobjects⟩ := Outcome.andThen_returned_inv hcreate
      cases hobjects
      simpa [Object.sockets, Object.blocks] using h.accept haccept
  | udpDatagram version bufferSize =>
      obtain ⟨u, k₁, hmake, hobjects⟩ := Outcome.andThen_returned_inv hcreate
      cases hobjects
      simpa [Object.sockets, Object.blocks] using h.udpDatagram hmake

end Ledger

end SocketWrapper.Descriptors
