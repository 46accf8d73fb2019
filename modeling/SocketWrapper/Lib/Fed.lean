import SocketWrapper.Lib.Transition

/-!
# Machines that are fed while they run

Some machines get all of their input at the start. A system that produces the input on the way runs such
a machine step by step, and what the machine does then is a run of it on the whole input. The whole input
is not known before the end, so that the statement is about every input that may still come.
-/

namespace Fed

open Transition

variable {σ α τ β ι : Type*}

/-- Each step of the system `sys` gives the machine in it some `new` input, and the machine, shown by `view`,
goes on as it would with all the input that may come ahead of it. `more s i` is `s` with `i` to come, and
`told t i` that `i` is what the machine has been given by the time of `t`. -/
structure Feeds (step : σ → α → Option σ) (allowed : σ → α → Prop) (sys : τ → β → Option τ)
    (sysAllowed : τ → β → Prop) (t₀ : τ) (view : τ → σ) (more : σ → List ι → σ)
    (told ahead : τ → List ι → Prop) : Prop where
  start : told t₀ []
  move : ∀ t b t', Reach sys sysAllowed t₀ t → sysAllowed t b → sys t b = some t' →
    ∃ new, (∀ i, told t i → told t' (i ++ new)) ∧
      ∀ i, ahead t' i → ahead t (new ++ i) ∧
        Reach step allowed (more (view t) (new ++ i)) (more (view t') i)

variable {step : σ → α → Option σ} {allowed : σ → α → Prop} {sys : τ → β → Option τ}
  {sysAllowed : τ → β → Prop} {t₀ t : τ} {view : τ → σ} {more : σ → List ι → σ}
  {told ahead : τ → List ι → Prop}

/-- The run lemma, for everything that may still come. -/
theorem Feeds.reach_more (h : Feeds step allowed sys sysAllowed t₀ view more told ahead)
    (hreach : Reach sys sysAllowed t₀ t) :
    ∃ i, told t i ∧ ∀ j, ahead t j →
      ahead t₀ (i ++ j) ∧ Reach step allowed (more (view t₀) (i ++ j)) (more (view t) j) := by
  induction hreach with
  | refl => exact ⟨[], h.start, fun j hj => ⟨hj, .refl⟩⟩
  | tail hr ha hs ih =>
      obtain ⟨i, htold, hruns⟩ := ih
      obtain ⟨new, hgiven, hmove⟩ := h.move _ _ _ hr ha hs
      refine ⟨i ++ new, hgiven i htold, fun j hj => ?_⟩
      obtain ⟨hahead, hlast⟩ := hmove j hj
      obtain ⟨hstart, hfirst⟩ := hruns (new ++ j) hahead
      rw [List.append_assoc]
      exact ⟨hstart, hfirst.trans hlast⟩

/-- The machine in the system is where a run on all that it has been given leads. -/
theorem Feeds.reach (h : Feeds step allowed sys sysAllowed t₀ view more told ahead)
    (hreach : Reach sys sysAllowed t₀ t) (hnone : ahead t []) (hmore : ∀ s, more s [] = s) :
    ∃ i, told t i ∧ ahead t₀ i ∧ Reach step allowed (more (view t₀) i) (view t) := by
  obtain ⟨i, htold, hruns⟩ := h.reach_more hreach
  obtain ⟨hstart, hrun⟩ := hruns [] hnone
  rw [List.append_nil] at hstart hrun
  rw [hmore] at hrun
  exact ⟨i, htold, hstart, hrun⟩

end Fed
