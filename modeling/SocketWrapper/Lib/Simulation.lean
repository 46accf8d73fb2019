import SocketWrapper.Lib.Transition

/-!
# Simulation between step functions

A relation that each step of one system keeps, if the other takes some steps of its own, relates every state
that the first reaches to one that the second reaches.
-/

namespace Transition

variable {σ α τ β : Type*} {step : σ → α → Option σ} {step' : τ → β → Option τ}
  {allowed : σ → α → Prop} {allowed' : τ → β → Prop} {s₀ s : σ} {t₀ : τ}

theorem Reach.simulate {R : σ → τ → Prop} (h : Reach step allowed s₀ s) (h₀ : R s₀ t₀)
    (hstep : ∀ s t a s', Reach step' allowed' t₀ t → R s t → allowed s a → step s a = some s' →
      ∃ t', Reach step' allowed' t t' ∧ R s' t') :
    ∃ t, Reach step' allowed' t₀ t ∧ R s t := by
  induction h with
  | refl => exact ⟨t₀, .refl, h₀⟩
  | tail _ ha hs ih =>
      obtain ⟨t, hreach, hrel⟩ := ih
      obtain ⟨t', hreach', hrel'⟩ := hstep _ t _ _ hreach hrel ha hs
      exact ⟨t', hreach.trans hreach', hrel'⟩

end Transition
