import SocketWrapper.Descriptors.Machine

/-!
# What a creating operation leaves behind when it throws

Nothing closes a descriptor that is kept in a local variable or in a member of an object whose
constructor throws. What an operation leaves behind depends on where in its chain of calls it fails.
-/

namespace SocketWrapper.Descriptors

variable {C : Choices} {v : Verdicts} {k k' : Kernel} {α : Type} {r : Outcome α × Kernel} {fd : Fd}

/-- If the operation throws, the same descriptors are open as before. -/
def LeavesNothing {α : Type} (k : Kernel) (r : Outcome α × Kernel) : Prop :=
  ∀ e, r.1 = .threw e → ∀ fd, fd ∈ r.2.fds.opened ↔ fd ∈ k.fds.opened

/-- The verdicts on which an operation leaves nothing behind: all calls succeed, or one fails before the
first descriptor has been opened. -/
def Creation.clean (v : Verdicts) : Creation → Bool
  | .createPipe =>
      (v .socketpair).isSome || (v (.eventfd 0)).isNone && (v (.eventfd 1)).isNone
  | .createTcpStreamToServer =>
      (v .socket).isSome || (v .connect).isNone && (v (.eventfd 0)).isNone
  | .listener reuse =>
      if (v .socket).isSome then (v (.eventfd 0)).isSome
      else (!reuse || (v .setReuseAddr).isNone && (v .setReusePort).isNone) &&
        (v .bind).isNone && (v .listen).isNone
  | .listenerBase =>
      (v (.eventfd 0)).isSome || (v .socket).isNone && (v .setReuseAddr).isNone &&
        (v .setReusePort).isNone && (v .bind).isNone && (v .listen).isNone
  | .accept _ marks _ =>
      (v .poll).isSome || !marks.socket || (v .accept).isSome || (v (.eventfd 0)).isNone
  | .udpDatagram _ bufferSize =>
      (v .socket).isSome || (v .bind).isNone && decide (0 ≤ bufferSize) && (v (.eventfd 0)).isNone

/-! ## Outcomes -/

theorem leavesNothing_of_returned {a : α} : LeavesNothing k (.returned a, k') := nofun

theorem leavesNothing_of_same {e : Exception} (h : k'.fds = k.fds) :
    LeavesNothing k ((.threw e, k') : Outcome α × Kernel) := by
  intro _ _ fd
  rw [h]

theorem not_leavesNothing {e : Exception} (hopen : fd ∈ k'.fds.opened) (hfresh : fd ∉ k.fds.opened) :
    ¬ LeavesNothing k ((.threw e, k') : Outcome α × Kernel) :=
  fun h => hfresh ((h e rfl fd).mp hopen)

theorem leavesNothing_asObjects {objects : α → List Object} :
    LeavesNothing k (asObjects objects r) ↔ LeavesNothing k r := by
  obtain ⟨o, k'⟩ := r
  cases o with
  | returned a => exact ⟨fun _ => leavesNothing_of_returned, fun _ => leavesNothing_of_returned⟩
  | threw e =>
      simp only [LeavesNothing, asObjects, Outcome.andThen_threw]
      exact ⟨fun h _ _ => h e rfl, fun h _ _ => h e rfl⟩
  | waiting => exact ⟨fun _ => nofun, fun _ => nofun⟩

/-! ## The calls -/

theorem openFd_fresh : (k.openFd C).1 ∉ k.fds.opened := C.descriptor_fresh k

theorem mem_openFd : (k.openFd C).1 ∈ (k.openFd C).2.fds.opened := List.mem_cons_self ..

theorem mem_openFd_of_mem (h : fd ∈ k.fds.opened) : fd ∈ (k.openFd C).2.fds.opened :=
  List.mem_cons_of_mem _ h

theorem mem_eventfd_of_mem (h : fd ∈ k.fds.opened) (verdict : Option Nat) :
    fd ∈ (k.eventfd C verdict).2.fds.opened := by
  cases verdict with
  | none => exact List.mem_cons_of_mem _ h
  | some errno => exact h

theorem eventfd_ne_marker : (k.eventfd C none).1 ≠ -1 := by
  have hnonneg := C.descriptor_nonneg k
  exact Int.ne_of_gt (Int.lt_of_lt_of_le (by decide) hnonneg)

theorem eventfd_fresh : (k.eventfd C none).1 ∉ k.fds.opened := C.descriptor_fresh k

theorem mem_eventfd : (k.eventfd C none).1 ∈ (k.eventfd C none).2.fds.opened := List.mem_cons_self ..

theorem openFd_fresh_after_eventfd (verdict : Option Nat) :
    ((k.eventfd C verdict).2.openFd C).1 ∉ k.fds.opened :=
  fun h => openFd_fresh (mem_eventfd_of_mem h verdict)

@[simp] theorem fds_write (value : Nat) : (k.write fd value).fds = k.fds := by
  simp only [Kernel.write]
  split <;> rfl

theorem mem_destroy_of_ne {s : Stream} (h : fd ∈ k.fds.opened) (hne : fd ≠ s.streamFileDescriptor) :
    fd ∈ (s.destroy k).fds.opened := by
  have hclosed : fd ∈ (((k.write s.stopAllOperationsEventFd semaphoreValue).close
      s.streamFileDescriptor).2).fds.opened := by
    simpa [Kernel.close, List.mem_erase_of_ne hne] using h
  simp only [Stream.destroy]
  split
  · exact h
  · split <;> exact hclosed

theorem makeStream_succeeds :
    Stream.make C fd none k = (.returned ⟨fd, (k.eventfd C none).1⟩, (k.eventfd C none).2) :=
  if_neg eventfd_ne_marker

theorem makeStream_fails {errno : Nat} :
    Stream.make C fd (some errno) k = (.threw (.runtimeError "Failed to create event_fd"), k) := rfl

/-- A `Stream` on a descriptor that has just been handed out is built, or leaves the descriptor. -/
theorem leavesNothing_makeStream (verdict : Option Nat) (hopen : fd ∈ k'.fds.opened)
    (hfresh : fd ∉ k.fds.opened) :
    LeavesNothing k (Stream.make C fd verdict k') ↔ verdict.isNone = true := by
  cases verdict with
  | none => simpa [makeStream_succeeds] using leavesNothing_of_returned
  | some errno => simpa [makeStream_fails] using not_leavesNothing hopen hfresh

/-! ## The operations -/

theorem leavesNothing_createTcp :
    LeavesNothing k (StreamFactory.createTcpStreamToServer C v k) ↔
      Creation.clean v .createTcpStreamToServer = true := by
  simp only [StreamFactory.createTcpStreamToServer, Creation.clean]
  cases v .socket with
  | some errno => exact iff_of_true (leavesNothing_of_same rfl) rfl
  | none =>
      cases v .connect with
      | some errno => exact iff_of_false (not_leavesNothing mem_openFd openFd_fresh) nofun
      | none => exact leavesNothing_makeStream _ mem_openFd openFd_fresh

theorem leavesNothing_accept {l : Listening} {marks : Marks} {errno : Nat} :
    LeavesNothing k (Listener.accept C v l marks errno k) ↔
      Creation.clean v (.accept l marks errno) = true := by
  simp only [Listener.accept, Creation.clean]
  cases v .poll with
  | some errno => exact iff_of_true (leavesNothing_of_same rfl) rfl
  | none =>
      cases marks.socket with
      | false => cases marks.ending <;> exact iff_of_true (leavesNothing_of_same rfl) rfl
      | true =>
          cases v .accept with
          | some errno => exact iff_of_true (leavesNothing_of_same rfl) rfl
          | none => exact leavesNothing_makeStream _ mem_openFd openFd_fresh

theorem leavesNothing_udpDatagram {version : IpVersion} {bufferSize : Int} :
    LeavesNothing k (UdpDatagram.make C v version bufferSize k) ↔
      Creation.clean v (.udpDatagram version bufferSize) = true := by
  simp only [UdpDatagram.make, Creation.clean]
  cases v .socket with
  | some errno => exact iff_of_true (leavesNothing_of_same rfl) rfl
  | none =>
      cases v .bind with
      | some errno => exact iff_of_false (not_leavesNothing mem_openFd openFd_fresh) nofun
      | none =>
          by_cases hsize : bufferSize < 0
          · simpa [hsize, Int.not_le.mpr hsize] using not_leavesNothing mem_openFd openFd_fresh
          · cases v (.eventfd 0) with
            | some errno => simpa [hsize, Kernel.eventfd] using not_leavesNothing mem_openFd openFd_fresh
            | none =>
                simpa [hsize, Int.not_lt.mp hsize, eventfd_ne_marker] using leavesNothing_of_returned

theorem leavesNothing_setUp {reuse : Bool} {l : Listening} (hopen : fd ∈ k'.fds.opened)
    (hfresh : fd ∉ k.fds.opened) :
    LeavesNothing k (Listening.setUp v reuse l k') ↔
      ((!reuse || (v .setReuseAddr).isNone && (v .setReusePort).isNone) &&
        (v .bind).isNone && (v .listen).isNone) = true := by
  have hthrew : ∀ e : Exception, ¬ LeavesNothing k ((.threw e, k') : Outcome Listening × Kernel) :=
    fun e => not_leavesNothing hopen hfresh
  simp only [Listening.setUp]
  cases reuse <;> cases v .setReuseAddr <;> cases v .setReusePort <;> cases v .bind <;>
    cases v .listen <;> simp [hthrew, leavesNothing_of_returned]

theorem leavesNothing_listener {reuse : Bool} :
    LeavesNothing k (Listener.make C v reuse k) ↔ Creation.clean v (.listener reuse) = true := by
  simp only [Listener.make, Creation.clean]
  cases v .socket with
  | some errno =>
      cases v (.eventfd 0) with
      | some errno => exact iff_of_true (leavesNothing_of_same rfl) rfl
      | none => exact iff_of_false (not_leavesNothing mem_eventfd eventfd_fresh) nofun
  | none => exact leavesNothing_setUp mem_openFd (openFd_fresh_after_eventfd _)

theorem leavesNothing_listenerBase :
    LeavesNothing k (ListenerBase.make C v k) ↔ Creation.clean v .listenerBase = true := by
  simp only [ListenerBase.make, Creation.clean]
  cases v (.eventfd 0) with
  | some errno => exact iff_of_true (leavesNothing_of_same rfl) rfl
  | none =>
      rw [if_neg eventfd_ne_marker]
      cases v .socket with
      | some errno => exact iff_of_false (not_leavesNothing mem_eventfd eventfd_fresh) nofun
      | none =>
          refine (leavesNothing_setUp mem_openFd (openFd_fresh_after_eventfd none)).trans ?_
          simp [and_assoc]

theorem leavesNothing_createPipe :
    LeavesNothing k (StreamFactory.createPipe C v k) ↔ Creation.clean v .createPipe = true := by
  simp only [StreamFactory.createPipe, Creation.clean]
  cases v .socketpair with
  | some errno => exact iff_of_true (leavesNothing_of_same rfl) rfl
  | none =>
      cases v (.eventfd 0) with
      | some errno =>
          exact iff_of_false (not_leavesNothing (mem_openFd_of_mem mem_openFd) openFd_fresh) nofun
      | none =>
          simp only [makeStream_succeeds]
          cases v (.eventfd 1) with
          | some errno =>
              -- the first `Stream` closes its socket, the second socket is left
              have hne : ((k.openFd C).2.openFd C).1 ≠ (k.openFd C).1 := by
                intro heq
                have hfresh : ((k.openFd C).2.openFd C).1 ∉ (k.openFd C).2.fds.opened := openFd_fresh
                exact hfresh (heq ▸ mem_openFd)
              exact iff_of_false (not_leavesNothing
                (mem_destroy_of_ne (mem_eventfd_of_mem mem_openFd none) hne)
                fun hopen => openFd_fresh (mem_openFd_of_mem hopen)) nofun
          | none =>
              simp only [makeStream_succeeds]
              exact iff_of_true leavesNothing_of_returned rfl

/-- An operation that throws leaves nothing behind exactly on these verdicts. -/
theorem leavesNothing_iff (c : Creation) : LeavesNothing k (c.perform C v k) ↔ c.clean v = true := by
  cases c with
  | createPipe => exact leavesNothing_asObjects.trans leavesNothing_createPipe
  | createTcpStreamToServer => exact leavesNothing_asObjects.trans leavesNothing_createTcp
  | listener reuse => exact leavesNothing_asObjects.trans leavesNothing_listener
  | listenerBase => exact leavesNothing_asObjects.trans leavesNothing_listenerBase
  | accept l marks errno => exact leavesNothing_asObjects.trans leavesNothing_accept
  | udpDatagram version bufferSize => exact leavesNothing_asObjects.trans leavesNothing_udpDatagram

end SocketWrapper.Descriptors
