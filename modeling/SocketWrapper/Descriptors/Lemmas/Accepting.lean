import SocketWrapper.Descriptors.Accepting
import SocketWrapper.Descriptors.Lemmas.Creation

/-!
# `accept` after `stopAccepting`

The end descriptor stays open and signalled. `accept` still polls the number of the socket that has been
closed, and looks at its mark first.
-/

namespace SocketWrapper.Descriptors

open Transition

variable {C : Choices} {k : Kernel} {fd : Fd} {p p' : Process} {timeout : Int} {marks : Marks}
  {v : Verdicts} {errno : Nat} {l : Listening}

/-! ## The end descriptor -/

theorem ne_openFd (h : fd ∈ k.fds.opened) : fd ≠ (k.openFd C).1 := by
  rintro rfl
  exact openFd_fresh h

/-- The end descriptor is open and nobody else's; it is signalled once accepting has been stopped. -/
structure EndKept (p : Process) : Prop where
  opened : p.listener.listenerEndFd ∈ p.kernel.fds.opened
  notOther : p.listener.listenerEndFd ∉ p.others
  ne_socket : p.listener.listenerEndFd ≠ p.listener.listenerSocketFd
  signalled : p.listener.stoppedAccepting = true → 0 < p.kernel.counter p.listener.listenerEndFd

theorem EndKept.listening : EndKept (.listening C) where
  opened := mem_openFd_of_mem mem_eventfd
  notOther := List.not_mem_nil
  ne_socket := ne_openFd mem_eventfd
  signalled := nofun

/-- What a step of another part of the process does not touch. -/
structure KeepsOpened (fd : Fd) (k k' : Kernel) : Prop where
  opened : fd ∈ k'.fds.opened
  counter : k'.counter fd = k.counter fd

theorem KeepsOpened.openFd (h : fd ∈ k.fds.opened) : KeepsOpened fd k (k.openFd C).2 :=
  ⟨mem_openFd_of_mem h, rfl⟩

theorem KeepsOpened.eventfd (h : fd ∈ k.fds.opened) (verdict : Option Nat) :
    KeepsOpened fd k (k.eventfd C verdict).2 := by
  cases verdict with
  | some errno => exact ⟨h, rfl⟩
  | none =>
      exact ⟨mem_openFd_of_mem h, Function.update_of_ne (ne_openFd h) _ _⟩

theorem KeepsOpened.trans {k₁ k₂ : Kernel} (h : KeepsOpened fd k k₁) (h' : KeepsOpened fd k₁ k₂) :
    KeepsOpened fd k k₂ :=
  ⟨h'.opened, h'.counter.trans h.counter⟩

theorem KeepsOpened.close (h : fd ∈ k.fds.opened) {fd' : Fd} (hne : fd ≠ fd') :
    KeepsOpened fd k (k.close fd').2 :=
  ⟨(List.mem_erase_of_ne hne).mpr h, rfl⟩

theorem snd_makeStream {verdict : Option Nat} :
    (Stream.make C fd verdict k).2 = (k.eventfd C verdict).2 := by
  simp only [Stream.make]
  split <;> rfl

/-- `accept` opens descriptors and closes none; the socket that it returns is a new one. -/
theorem KeepsOpened.accept (h : fd ∈ k.fds.opened) :
    KeepsOpened fd k (Listener.accept C v l marks errno k).2 ∧
      fd ∉ acceptedSocket (Listener.accept C v l marks errno k).1 := by
  simp only [Listener.accept]
  cases v .poll with
  | some errno => exact ⟨⟨h, rfl⟩, List.not_mem_nil⟩
  | none =>
      cases marks.socket with
      | false => cases marks.ending <;> exact ⟨⟨h, rfl⟩, List.not_mem_nil⟩
      | true =>
          cases v .accept with
          | some errno => exact ⟨⟨h, rfl⟩, List.not_mem_nil⟩
          | none =>
              simp only [↓reduceIte, snd_makeStream]
              have hkeeps : KeepsOpened fd k (Kernel.openFd C { k with
                  polled := l.listenerSocketFd :: l.listenerEndFd :: k.polled
                  accepted := l.listenerSocketFd :: k.accepted }).2 := ⟨mem_openFd_of_mem h, rfl⟩
              refine ⟨hkeeps.trans (.eventfd hkeeps.opened _), ?_⟩
              cases v (.eventfd 0) with
              | some errno => exact List.not_mem_nil
              | none =>
                  rw [makeStream_succeeds]
                  exact List.not_mem_cons_of_ne_of_not_mem (ne_openFd h) List.not_mem_nil

theorem EndKept.of_keeps {k' : Kernel} {others : List Fd} (h : EndKept p)
    (hkeeps : KeepsOpened p.listener.listenerEndFd p.kernel k')
    (hothers : p.listener.listenerEndFd ∉ others) : EndKept { p with kernel := k', others := others } :=
  ⟨hkeeps.opened, hothers, h.ne_socket, fun hstopped => hkeeps.counter ▸ h.signalled hstopped⟩

theorem EndKept.stopAccepting (h : EndKept p) :
    EndKept { p with
      listener := (Listener.stopAccepting p.listener p.kernel).1
      kernel := (Listener.stopAccepting p.listener p.kernel).2 } := by
  simp only [Listener.stopAccepting, Listening.stop]
  split
  · exact h
  · refine ⟨(List.mem_erase_of_ne h.ne_socket).mpr (by simpa using h.opened), h.notOther, h.ne_socket,
      fun _ => ?_⟩
    simp [Kernel.close, Kernel.write, h.opened, semaphoreValue]

theorem EndKept.step {a : ProcessAction} (h : EndKept p) (hstep : p.step C a = some p') : EndKept p' := by
  cases a with
  | accept timeout marks v errno =>
      simp only [Process.step] at hstep
      split at hstep
      · cases hstep
        have hkeeps : KeepsOpened _ _ (Listener.accept C v p.listener marks errno p.kernel).2 :=
          (KeepsOpened.accept h.opened).1
        refine h.of_keeps hkeeps fun hmem => ?_
        exact (List.mem_append.mp hmem).elim (KeepsOpened.accept h.opened).2 h.notOther
      · cases hstep
  | stopAccepting =>
      cases hstep
      exact h.stopAccepting
  | openOther =>
      cases hstep
      exact h.of_keeps (.openFd h.opened)
        (List.not_mem_cons_of_ne_of_not_mem (ne_openFd h.opened) h.notOther)
  | closeOther fd =>
      simp only [Process.step] at hstep
      split at hstep
      · rename_i hmem
        cases hstep
        have hne : p.listener.listenerEndFd ≠ fd := fun heq => h.notOther (heq ▸ hmem)
        exact h.of_keeps (.close h.opened hne) fun hother => h.notOther (List.mem_of_mem_erase hother)
      · cases hstep

theorem EndKept.of_reach {allowed : Process → ProcessAction → Prop}
    (h : Reach (Process.step C) allowed (.listening C) p) : EndKept p :=
  h.invariant .listening fun _ _ _ hp _ hstep => hp.step hstep

/-! ## The call -/

/-- `accept` reports the stop and leaves the number of the listening socket alone. -/
def ReportsStop (l : Listening) (k : Kernel) (r : Outcome Stream × Kernel) : Prop :=
  r.1.ThrewType .SOCKET_TERMINATION_REQUEST ∧
    r.2.polled.count l.listenerSocketFd = k.polled.count l.listenerSocketFd ∧
    r.2.accepted.count l.listenerSocketFd = k.accepted.count l.listenerSocketFd

theorem polled_eventfd (verdict : Option Nat) : (k.eventfd C verdict).2.polled = k.polled := by
  cases verdict <;> rfl

/-- Whatever happens, `accept` polls the number of the socket. -/
theorem polled_accept : (Listener.accept C v l marks errno k).2.polled =
    l.listenerSocketFd :: l.listenerEndFd :: k.polled := by
  simp only [Listener.accept]
  cases v .poll with
  | some errno => rfl
  | none =>
      cases marks.socket with
      | false => cases marks.ending <;> rfl
      | true =>
          cases v .accept with
          | some errno => rfl
          | none =>
              simp only [↓reduceIte, snd_makeStream, polled_eventfd]
              rfl

theorem not_reportsStop : ¬ ReportsStop l k (Listener.accept C v l marks errno k) := by
  rintro ⟨-, hpolled, -⟩
  rw [polled_accept, List.count_cons_self, List.count_cons] at hpolled
  omega

/-- With the end descriptor signalled, the request is thrown exactly if the number is not marked. -/
theorem accept_terminated_iff (hending : marks.ending = true) :
    (Listener.accept C v l marks errno k).1.ThrewType .SOCKET_TERMINATION_REQUEST ↔
      v .poll = none ∧ marks.socket = false := by
  simp only [Listener.accept]
  cases v .poll with
  | some errno => simp
  | none =>
      cases marks.socket with
      | false => simp [hending]
      | true =>
          cases v .accept with
          | some errno => simp
          | none => cases v (.eventfd 0) <;> simp [makeStream_succeeds, makeStream_fails]

/-- A number that is not open is marked, and only a number in use can be unmarked. -/
theorem mem_opened_of_unmarked (h : p.admits timeout marks v = true) (hunmarked : marks.socket = false) :
    p.listener.listenerSocketFd ∈ p.kernel.fds.opened := by
  simp only [Process.admits, hunmarked, Bool.and_eq_true, Bool.or_eq_true, decide_eq_true_eq,
    Bool.false_eq_true, false_and, or_false] at h
  exact h.1.1

theorem ending_of_admits (hkept : EndKept p) (hstopped : p.listener.stoppedAccepting = true)
    (h : p.admits timeout marks v = true) : marks.ending = true := by
  have hpos := hkept.signalled hstopped
  simp only [Process.admits, Bool.and_eq_true, beq_iff_eq] at h
  rw [h.1.2]
  exact decide_eq_true hpos

end SocketWrapper.Descriptors
