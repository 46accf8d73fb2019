import SocketWrapper.Accepting.Machine

/-!
# What the handler does with a connection

Every step of the handler, and what becomes of the descriptors that `::accept` has returned.
-/

namespace SocketWrapper

open Transition

variable {m m' : ListenerBase} {allowed : ListenerBase → ListenerBase.Action → Prop} {n : Nat}

/-! ## Steps -/

namespace ListenerBase

inductive HandlerMove (m : ListenerBase) : HandlerAction → ListenerBase → Prop
  | pollFails : m.handler = .polling → HandlerMove m .pollFails m.useSocket
  | marked : m.handler = .polling →
      HandlerMove m (.pollMarks true) { m.useSocket with handler := .accepting }
  | ends : m.handler = .polling → 0 < m.endEvent →
      HandlerMove m (.pollMarks false) { m.useSocket with handler := .ended }
  | accepts {fd : Fd} {client : Nat} {clients : List Nat} :
      m.handler = .accepting → m.clients = client :: clients →
      HandlerMove m (.accept fd) { m.useSocket with
        handler := .building fd, clients := clients, accepted := m.accepted ++ [fd] }
  | acceptFails : m.handler = .accepting →
      HandlerMove m .acceptFails { m.useSocket with handler := .polling }
  | builds {fd : Fd} : m.handler = .building fd →
      HandlerMove m .build { m with handler := .calling fd, builds := m.builds ++ [(fd, true)] }
  | buildFails {fd : Fd} : m.handler = .building fd →
      HandlerMove m .buildFails { m with handler := .polling, builds := m.builds ++ [(fd, false)] }
  | calls {fd : Fd} : m.handler = .calling fd →
      HandlerMove m .callOnIncomingStream { m with handler := .incoming fd, passed := m.passed ++ [fd] }
  | leaves {fd : Fd} : m.handler = .incoming fd → HandlerMove m .leave { m with handler := .polling }
  | throws {fd : Fd} : m.handler = .incoming fd → HandlerMove m .throwOther { m with handler := .terminated }

theorem handlerMove_of_step {a : HandlerAction} (h : handlerStep m a = some m') : HandlerMove m a m' := by
  unfold handlerStep at h
  split at h
  · rename_i hat
    cases h
    exact .pollFails hat
  · rename_i socket hat
    split at h
    · rename_i hmay
      split at h
      · rename_i hsocket
        subst hsocket
        cases h
        exact .marked hat
      · rename_i hsocket
        simp only [Bool.not_eq_true] at hsocket
        subst hsocket
        cases h
        refine .ends hat ?_
        simp only [mayMark, Bool.false_eq_true, ↓reduceIte, Bool.and_eq_true, decide_eq_true_eq] at hmay
        exact hmay.2
    · cases h
  · rename_i hat
    split at h
    · cases h
    · rename_i hclients
      cases h
      exact .accepts hat hclients
  · rename_i hat
    cases h
    exact .acceptFails hat
  · rename_i hat
    cases h
    exact .builds hat
  · rename_i hat
    cases h
    exact .buildFails hat
  · rename_i hat
    cases h
    exact .calls hat
  · rename_i hat
    cases h
    exact .leaves hat
  · rename_i hat
    cases h
    exact .throws hat
  · cases h

theorem stopperStep_frame {c : Nat} (h : stopperStep m c = some m') :
    m'.handler = m.handler ∧ m'.accepted = m.accepted ∧ m'.builds = m.builds ∧ m'.passed = m.passed ∧
      m'.staleUses = m.staleUses ∧ m.endEvent ≤ m'.endEvent := by
  unfold stopperStep at h
  split at h
  · cases h
  · cases h
    exact ⟨rfl, rfl, rfl, rfl, rfl, Nat.le_refl _⟩
  · cases h
    exact ⟨rfl, rfl, rfl, rfl, rfl, Nat.le_refl _⟩
  · cases h
    exact ⟨rfl, rfl, rfl, rfl, rfl, Nat.le_add_right _ _⟩
  · cases h
    exact ⟨rfl, rfl, rfl, rfl, rfl, Nat.le_refl _⟩
  · split at h
    · cases h
      exact ⟨rfl, rfl, rfl, rfl, rfl, Nat.le_refl _⟩
    · cases h
  · cases h
    exact ⟨rfl, rfl, rfl, rfl, rfl, Nat.le_refl _⟩
  · cases h
    exact ⟨rfl, rfl, rfl, rfl, rfl, Nat.le_refl _⟩
  · cases h

theorem act_of_step {a : Action} (h : m.step a = some m') : m.act a = some m' := by
  simp only [step] at h
  split at h
  · cases h
  · exact h

/-! ## From `::accept` to `onIncomingStream` -/

end ListenerBase

/-- The descriptor for which a `Stream` is being built. -/
def HandlerAt.toBuild : HandlerAt → List Fd
  | .building fd => [fd]
  | _ => []

/-- The descriptor whose `Stream` is built and not yet passed on. -/
def HandlerAt.toPass : HandlerAt → List Fd
  | .calling fd => [fd]
  | _ => []

namespace ListenerBase

/-- The descriptors for which a `Stream` could be built, in the order of `::accept`. -/
def built (m : ListenerBase) : List Fd := (m.builds.filter Prod.snd).map Prod.fst

/-- What `::accept` has returned went to a construction, and what was built went to a call. -/
structure Handed (m : ListenerBase) : Prop where
  accepted : m.accepted = m.builds.map Prod.fst ++ m.handler.toBuild
  built : m.built = m.passed ++ m.handler.toPass

theorem Handed.started : Handed (started n) := ⟨rfl, rfl⟩

theorem Handed.of_frame (h : Handed m) (hframe : m'.handler = m.handler ∧ m'.accepted = m.accepted ∧
    m'.builds = m.builds ∧ m'.passed = m.passed) : Handed m' := by
  obtain ⟨hhandler, haccepted, hbuilds, hpassed⟩ := hframe
  refine ⟨?_, ?_⟩
  · rw [haccepted, hbuilds, hhandler, h.accepted]
  · rw [ListenerBase.built, hbuilds, hpassed, hhandler]
    exact h.built

theorem Handed.handler {a : HandlerAction} (h : Handed m) (hmove : HandlerMove m a m') : Handed m' := by
  have haccepted := h.accepted
  have hbuilt := h.built
  cases hmove with
  | pollFails => exact ⟨haccepted, hbuilt⟩
  | marked hat =>
      rw [hat] at haccepted hbuilt
      exact ⟨haccepted, hbuilt⟩
  | ends hat =>
      rw [hat] at haccepted hbuilt
      exact ⟨haccepted, hbuilt⟩
  | accepts hat =>
      rw [hat] at haccepted hbuilt
      exact ⟨by simpa [useSocket, HandlerAt.toBuild] using haccepted, hbuilt⟩
  | acceptFails hat =>
      rw [hat] at haccepted hbuilt
      exact ⟨haccepted, hbuilt⟩
  | builds hat =>
      rw [hat] at haccepted hbuilt
      refine ⟨by simpa [HandlerAt.toBuild] using haccepted, ?_⟩
      simpa [ListenerBase.built, HandlerAt.toPass] using hbuilt
  | buildFails hat =>
      rw [hat] at haccepted hbuilt
      refine ⟨by simpa [HandlerAt.toBuild] using haccepted, ?_⟩
      simpa [ListenerBase.built, HandlerAt.toPass] using hbuilt
  | calls hat =>
      rw [hat] at haccepted hbuilt
      exact ⟨haccepted, by simpa [ListenerBase.built, HandlerAt.toPass] using hbuilt⟩
  | leaves hat =>
      rw [hat] at haccepted hbuilt
      exact ⟨haccepted, hbuilt⟩
  | throws hat =>
      rw [hat] at haccepted hbuilt
      exact ⟨haccepted, hbuilt⟩

theorem Handed.of_reach (h : Reach ListenerBase.step allowed (ListenerBase.started n) m) : Handed m := by
  refine h.invariant .started fun m a m' hm _ hstep => ?_
  have hact := act_of_step hstep
  cases a with
  | arrive client =>
      cases hact
      exact ⟨hm.accepted, hm.built⟩
  | depart client =>
      cases hact
      exact ⟨hm.accepted, hm.built⟩
  | handler a => exact hm.handler (handlerMove_of_step hact)
  | stopper c =>
      obtain ⟨hhandler, haccepted, hbuilds, hpassed, -⟩ := stopperStep_frame hact
      exact hm.of_frame ⟨hhandler, haccepted, hbuilds, hpassed⟩

end ListenerBase

end SocketWrapper
