import SocketWrapper.Descriptors.Lemmas.Creation
import SocketWrapper.Descriptors.Lemmas.Accepting
import SocketWrapper.Descriptors.Lemmas.Owned

/-!
# Who owns the descriptors
-/

namespace SocketWrapper.Descriptors

open Ownership Transition

variable {C : Choices} {p : Program}

/-- The state after a list of actions. -/
def programAfter (as : List Action) : Program :=
  after (Program.step Choices.lowestFree) (fun _ _ => True) .init as

theorem reach_programAfter (as : List Action) :
    Reach (Program.step Choices.lowestFree) (fun _ _ => True) .init (programAfter as) :=
  .after _ as

/-! ## Sockets and blocks -/

/-- A socket has one owner and is open while it has. No number has been closed more often than it was
handed out, and a block that nobody holds has been freed as often as it was allocated. No destructor
terminates the process. -/
theorem sockets_owned_once (hreach : Reach (Program.step C) (fun _ _ => True) .init p) :
    (∀ (i j : Nat) (o o' : Object) (fd : Fd), p.objects[i]? = some (some o) →
      p.objects[j]? = some (some o') → i ≠ j → fd ∈ o.sockets → fd ∉ o'.sockets) ∧
    (∀ (o : Object) (fd : Fd), some o ∈ p.objects → fd ∈ o.sockets → fd ∈ p.kernel.fds.opened) ∧
    (∀ fd, p.kernel.fds.released.count fd + p.kernel.fds.opened.count fd =
      p.kernel.fds.acquired.count fd) ∧
    (∀ ptr, p.kernel.heap.released.count ptr ≤ p.kernel.heap.acquired.count ptr ∧
      ((∀ o, some o ∈ p.objects → ptr ∉ o.blocks) →
        p.kernel.heap.released.count ptr = p.kernel.heap.acquired.count ptr)) ∧
    p.kernel.terminated = false := by
  have howned := Owned.of_reach hreach
  refine ⟨fun i j o o' fd ho ho' hne hfd => ?_, fun o fd ho hfd => ?_, howned.fds.balance,
    fun ptr => ⟨?_, fun hnobody => ?_⟩, howned.alive⟩
  · have hnodup := howned.fds.nodup_held.of_append_left
    exact notMem_of_nodup hnodup ho ho' hne hfd
  · exact howned.fds.mem_opened (List.mem_append_left _ (mem_heldBy.mpr ⟨o, ho, hfd⟩))
  · have hbalance := howned.heap.balance ptr
    omega
  · refine howned.heap.count_of_notMem fun hheld => ?_
    obtain ⟨o, ho, hptr⟩ := mem_heldBy.mp hheld
    exact hnobody o ho hptr

/-- A pipe; its first end is wrapped, the `BufferedStream` moved, and all are destroyed. -/
def wrappedAndMoved : Program :=
  programAfter [.create .createPipe .succeed, .wrap 0 16, .moveConstruct 2, .destroy 2, .destroy 0,
    .destroy 3, .destroy 1]

theorem sockets_owned_once_wrappedAndMoved :
    wrappedAndMoved.kernel.fds.released = [1, 0] ∧ wrappedAndMoved.kernel.heap.acquired = [1] ∧
      wrappedAndMoved.kernel.heap.released.count 1 = wrappedAndMoved.kernel.heap.acquired.count 1 := by
  have hnone : wrappedAndMoved.objects = [none, none, none, none] := by decide +kernel
  refine ⟨by decide +kernel, by decide +kernel,
    ((sockets_owned_once (reach_programAfter _)).2.2.2.1 1).2 fun o ho => ?_⟩
  change some o ∈ wrappedAndMoved.objects at ho
  simp [hnone] at ho

/-! ## Leaks -/

/-- Every open descriptor is stored in an object that will close it. -/
def Program.Kept (p : Program) : Prop :=
  ∀ fd ∈ p.kernel.fds.opened, ∃ o, some o ∈ p.objects ∧ fd ∈ o.sockets

/-- Every descriptor is kept exactly if no eventfd has been created and no move assignment has overwritten
a socket. The sockets alone are kept exactly if none has been overwritten. Once all objects have been
destroyed, what is open is the eventfds and the sockets overwritten. -/
theorem descriptors_kept_iff (hreach : Reach (Program.step C) (fun _ _ => True) .init p) :
    (p.Kept ↔ p.kernel.eventFds = [] ∧ p.overwritten = []) ∧
    ((∀ fd ∈ p.kernel.fds.opened, fd ∉ p.kernel.eventFds → ∃ o, some o ∈ p.objects ∧ fd ∈ o.sockets) ↔
      p.overwritten = []) ∧
    ((∀ o, some o ∉ p.objects) → p.kernel.fds.opened.Perm (p.kernel.eventFds ++ p.overwritten)) := by
  have howned := (Owned.of_reach hreach).fds
  have hsockets : ∀ fd, (∃ o, some o ∈ p.objects ∧ fd ∈ o.sockets) ↔
      fd ∈ heldBy Object.sockets p.objects := fun fd => mem_heldBy.symm
  simp only [Program.Kept, hsockets]
  refine ⟨?_, ?_, fun hnone => ?_⟩
  · rw [howned.forall_mem_iff, List.append_eq_nil_iff]
  · rw [← List.append_assoc] at howned
    rw [← howned.forall_mem_iff]
    refine forall₂_congr fun fd _ => ?_
    rw [List.mem_append]
    tauto
  · have hheld : heldBy Object.sockets p.objects = [] := by
      refine List.eq_nil_iff_forall_not_mem.mpr fun fd hfd => ?_
      obtain ⟨o, ho, -⟩ := mem_heldBy.mp hfd
      exact hnone o ho
    rw [hheld] at howned
    exact howned.perm.symm

/-- A listener whose `eventfd` call has failed, which its constructor does not notice. -/
theorem descriptors_kept_iff_noEventFd :
    (programAfter [.create (.listener true) fun s => if s = .eventfd 0 then some 24 else none]).Kept :=
  (descriptors_kept_iff (reach_programAfter _)).1.mpr (by decide +kernel)

/-- A stream is created and destroyed; and one end of a pipe is move-assigned to the other, and both are
destroyed. -/
theorem descriptors_leaked :
    (∃ p, Reach (Program.step Choices.lowestFree) (fun _ _ => True) .init p ∧ p.objects = [none] ∧
      p.kernel.fds.opened = [1]) ∧
    ∃ p, Reach (Program.step Choices.lowestFree) (fun _ _ => True) .init p ∧ p.objects = [none, none] ∧
      p.kernel.fds.opened = [3, 2, 0] ∧ p.kernel.eventFds = [3, 2] :=
  ⟨⟨_, reach_programAfter [.create .createTcpStreamToServer .succeed, .destroy 0], by decide +kernel,
      by decide +kernel⟩,
    ⟨_, reach_programAfter [.create .createPipe .succeed, .moveAssign 0 1, .destroy 0, .destroy 1],
      by decide +kernel, by decide +kernel, by decide +kernel⟩⟩

/-! ## Failing creations -/

/-- An operation that ends with an exception leaves the same descriptors open as before exactly on the
verdicts that are clean for it. -/
theorem creation_leavesNothing_iff (C : Choices) (v : Verdicts) (k : Kernel) (c : Creation) :
    (∀ e, (c.perform C v k).1 = .threw e →
      ∀ fd, fd ∈ (c.perform C v k).2.fds.opened ↔ fd ∈ k.fds.opened) ↔ c.clean v = true :=
  leavesNothing_iff c

/-- `connect` fails after `socket` has succeeded. -/
theorem creation_leaves_socket :
    (Creation.createTcpStreamToServer.perform Choices.lowestFree
        (fun s => if s = .connect then some 111 else none) .init).1 = .socketError .SOCKET_CONNECT 111 ∧
      (Creation.createTcpStreamToServer.perform Choices.lowestFree
        (fun s => if s = .connect then some 111 else none) .init).2.fds.opened = [0] :=
  ⟨by decide +kernel, by decide +kernel⟩

/-! ## `accept` after a stop -/

/-- After `stopAccepting`, `accept` polls the number of the closed socket whatever the kernel answers. It
throws the request exactly if its `::poll` succeeds and the number is not marked, and then the number has
been handed out again. -/
theorem accept_not_reportsStop {p : Process} {timeout : Int} {marks : Marks} {v : Verdicts} {errno : Nat}
    (hreach : Reach (Process.step C) (fun _ _ => True) (.listening C) p)
    (hstopped : p.listener.stoppedAccepting = true) (hadmits : p.admits timeout marks v = true) :
    ¬ ReportsStop p.listener p.kernel (Listener.accept C v p.listener marks errno p.kernel) ∧
    ((Listener.accept C v p.listener marks errno p.kernel).1.ThrewType .SOCKET_TERMINATION_REQUEST ↔
      v .poll = none ∧ marks.socket = false) ∧
    (marks.socket = false → p.listener.listenerSocketFd ∈ p.kernel.fds.opened) :=
  ⟨not_reportsStop, accept_terminated_iff (ending_of_admits (.of_reach hreach) hstopped hadmits),
    mem_opened_of_unmarked hadmits⟩

/-- The state of the process after a list of actions. -/
def processAfter (as : List ProcessAction) : Process :=
  after (Process.step Choices.lowestFree) (fun _ _ => True) (.listening Choices.lowestFree) as

theorem accept_not_reportsStop_reused :
    (Listener.accept Choices.lowestFree .succeed (processAfter [.stopAccepting, .openOther]).listener
        ⟨false, true⟩ 0 (processAfter [.stopAccepting, .openOther]).kernel).1.ThrewType
      .SOCKET_TERMINATION_REQUEST :=
  have hadmits : (processAfter [.stopAccepting, .openOther]).admits (-1) ⟨false, true⟩ .succeed = true := by
    decide +kernel
  (accept_not_reportsStop (.after _ _) (by decide +kernel) hadmits).2.1.mpr ⟨rfl, rfl⟩

/-- On the closed number `::accept` fails. Where the number is another socket's by then, `accept` may
return a client of that one. -/
theorem accept_after_stop :
    (processAfter [.stopAccepting]).listener.stoppedAccepting = true ∧
    (processAfter [.stopAccepting]).admits (-1) ⟨true, true⟩
      (fun s => if s = .accept then some 9 else none) = true ∧
    (Listener.accept Choices.lowestFree (fun s => if s = .accept then some 9 else none)
      (processAfter [.stopAccepting]).listener ⟨true, true⟩ 0 (processAfter [.stopAccepting]).kernel).1 =
        .socketError .SOCKET_ACCEPT 9 ∧
    (processAfter [.stopAccepting, .openOther]).admits (-1) ⟨true, true⟩ .succeed = true ∧
    (Listener.accept Choices.lowestFree .succeed (processAfter [.stopAccepting, .openOther]).listener
      ⟨true, true⟩ 0 (processAfter [.stopAccepting, .openOther]).kernel).1 = .returned ⟨2, 3⟩ :=
  ⟨by decide +kernel, by decide +kernel, by decide +kernel, by decide +kernel, by decide +kernel⟩

end SocketWrapper.Descriptors
