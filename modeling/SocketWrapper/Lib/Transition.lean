import Mathlib

/-!
# Runs of a partial step function

`step s a` is the state after action `a`, or `none` where `a` is not enabled. `allowed s a` restricts
the runs that are looked at: an action is taken from `s` only where it holds.
-/

namespace Transition

variable {σ α : Type*} (step : σ → α → Option σ)

/-- The states that allowed actions reach from `s₀`. -/
inductive Reach (allowed : σ → α → Prop) (s₀ : σ) : σ → Prop
  | refl : Reach allowed s₀ s₀
  | tail {s s' : σ} {a : α} :
      Reach allowed s₀ s → allowed s a → step s a = some s' → Reach allowed s₀ s'

/-- The state after a list of actions, if each of them is allowed and enabled where it is taken. -/
def run (allowed : σ → α → Prop) [∀ s a, Decidable (allowed s a)] : σ → List α → Option σ
  | s, [] => some s
  | s, a :: as => if allowed s a then (step s a).bind (fun s' => run allowed s' as) else none

/-- The last state of the run, or the first one if the list is not a run. -/
def after (allowed : σ → α → Prop) [∀ s a, Decidable (allowed s a)] (s : σ) (as : List α) : σ :=
  (run step allowed s as).getD s

variable {step} {allowed allowed' : σ → α → Prop} {s₀ s₁ s : σ}

/-- A property that holds at the start and that each allowed step preserves holds in every state. -/
theorem Reach.invariant {P : σ → Prop} (h : Reach step allowed s₀ s) (h₀ : P s₀)
    (hstep : ∀ s a s', P s → allowed s a → step s a = some s' → P s') : P s := by
  induction h with
  | refl => exact h₀
  | tail _ ha hs ih => exact hstep _ _ _ ih ha hs

/-- The invariant rule with an invariant already known to hold in every state. -/
theorem Reach.invariant_of {P Q : σ → Prop} (h : Reach step allowed s₀ s) (h₀ : P s₀)
    (hQ : ∀ s, Reach step allowed s₀ s → Q s)
    (hstep : ∀ s a s', Q s → P s → allowed s a → step s a = some s' → P s') : P s := by
  induction h with
  | refl => exact h₀
  | tail hr ha hs ih => exact hstep _ _ _ (hQ _ hr) ih ha hs

theorem Reach.mono (h : Reach step allowed s₀ s) (hle : ∀ s a, allowed s a → allowed' s a) :
    Reach step allowed' s₀ s := by
  induction h with
  | refl => exact .refl
  | tail _ ha hs ih => exact .tail ih (hle _ _ ha) hs

theorem Reach.trans (h₁ : Reach step allowed s₀ s₁) (h₂ : Reach step allowed s₁ s) :
    Reach step allowed s₀ s := by
  induction h₂ with
  | refl => exact h₁
  | tail _ ha hs ih => exact .tail ih ha hs

theorem Reach.single {a : α} (ha : allowed s₀ a) (hs : step s₀ a = some s) :
    Reach step allowed s₀ s :=
  .tail .refl ha hs

theorem Reach.head {a : α} (ha : allowed s₀ a) (hs : step s₀ a = some s₁)
    (h : Reach step allowed s₁ s) : Reach step allowed s₀ s :=
  (Reach.single ha hs).trans h

theorem Reach.of_run [∀ s a, Decidable (allowed s a)] {as : List α}
    (h : run step allowed s₀ as = some s) : Reach step allowed s₀ s := by
  induction as generalizing s₀ with
  | nil =>
      simp only [run, Option.some.injEq] at h
      exact h ▸ .refl
  | cons a as ih =>
      simp only [run] at h
      split at h
      · rename_i ha
        obtain ⟨s₁, hs, hrest⟩ := Option.bind_eq_some_iff.mp h
        exact .head ha hs (ih hrest)
      · cases h

/-- If the actions with `p` lower a measure and no other allowed action raises it, a run has no more of
them than the measure at its start. -/
theorem countP_add_le_of_run [∀ s a, Decidable (allowed s a)] (I : σ → Prop) (μ : σ → Nat)
    (p : α → Bool) {as : List α} (h : run step allowed s₀ as = some s) (h₀ : I s₀)
    (hstep : ∀ s a s', I s → allowed s a → step s a = some s' →
      I s' ∧ μ s' + (if p a then 1 else 0) ≤ μ s) :
    I s ∧ μ s + as.countP p ≤ μ s₀ := by
  induction as generalizing s₀ with
  | nil =>
      simp only [run, Option.some.injEq] at h
      subst h
      exact ⟨h₀, by simp⟩
  | cons a as ih =>
      simp only [run] at h
      split at h
      · rename_i ha
        obtain ⟨s₁, hs, hrest⟩ := Option.bind_eq_some_iff.mp h
        obtain ⟨hI, hle⟩ := hstep s₀ a s₁ h₀ ha hs
        obtain ⟨hI', hle'⟩ := ih hrest hI
        refine ⟨hI', ?_⟩
        simp only [List.countP_cons]
        omega
      · cases h

/-- The same with a measure that other actions may raise, if what they raise it by is `paid` for. -/
theorem countP_add_le_of_paid [∀ s a, Decidable (allowed s a)] (I : σ → Prop) (μ paid : σ → Nat)
    (p : α → Bool) {as : List α} (h : run step allowed s₀ as = some s) (h₀ : I s₀)
    (hstep : ∀ s a s', I s → allowed s a → step s a = some s' →
      I s' ∧ μ s' + paid s + (if p a then 1 else 0) ≤ μ s + paid s') :
    μ s + paid s₀ + as.countP p ≤ μ s₀ + paid s := by
  induction as generalizing s₀ with
  | nil =>
      simp only [run, Option.some.injEq] at h
      subst h
      simp
  | cons a as ih =>
      simp only [run] at h
      split at h
      · rename_i ha
        obtain ⟨s₁, hs, hrest⟩ := Option.bind_eq_some_iff.mp h
        obtain ⟨hI, hle⟩ := hstep s₀ a s₁ h₀ ha hs
        have hle' := ih hrest hI
        simp only [List.countP_cons]
        omega
      · cases h

/-- The list is a run, so that it leads to the last state. -/
theorem run_eq_some_after [∀ s a, Decidable (allowed s a)] {as : List α}
    (h : (run step allowed s₀ as).isSome = true) :
    run step allowed s₀ as = some (after step allowed s₀ as) := by
  obtain ⟨s, hs⟩ := Option.isSome_iff_exists.mp h
  rw [after, hs, Option.getD_some]

theorem Reach.after [∀ s a, Decidable (allowed s a)] (s₀ : σ) (as : List α) :
    Reach step allowed s₀ (after step allowed s₀ as) := by
  rw [Transition.after]
  cases hrun : run step allowed s₀ as with
  | none => exact .refl
  | some s => exact .of_run hrun

end Transition
