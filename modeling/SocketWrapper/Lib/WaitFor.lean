import Mathlib

/-!
# Sets in which each member waits for a member

`r a b` says that `a` waits for `b`. A set is stuck if every member waits for a member. A finite one has a
cycle, and a cycle is one.
-/

namespace WaitFor

open Relation

variable {α : Type*} {r : α → α → Prop} {S : Set α} {a b : α}

def Stuck (r : α → α → Prop) (S : Set α) : Prop := S.Nonempty ∧ ∀ a ∈ S, ∃ b ∈ S, r a b

def Acyclic (r : α → α → Prop) : Prop := ∀ a, ¬ TransGen r a a

/-- A finite set in which each member waits for a member has a cycle. -/
theorem Stuck.not_acyclic (h : Stuck r S) (hfinite : S.Finite) : ¬ Acyclic r := by
  intro hacyclic
  obtain ⟨⟨a, ha⟩, hwaits⟩ := h
  -- on the members, waiting in one or more steps is a strict order without an infinite chain
  let follows (b a : S) : Prop := TransGen r a b
  have htrans : IsTrans S follows := ⟨fun _ _ _ hab hbc => hbc.trans hab⟩
  have hirrefl : Std.Irrefl follows := ⟨fun a => hacyclic a⟩
  have := hfinite.to_subtype
  have hwf : WellFounded follows := Finite.wellFounded_of_trans_of_irrefl _
  obtain ⟨last, -, hlast⟩ := hwf.has_min Set.univ ⟨⟨a, ha⟩, trivial⟩
  obtain ⟨b, hb, hlb⟩ := hwaits last last.2
  exact hlast ⟨b, hb⟩ trivial (.single hlb)

/-- Where there are heights that go up with each arc, there is no cycle. -/
theorem acyclic_of_lt (height : α → ℕ) (h : ∀ a b, r a b → height a < height b) : Acyclic r := by
  intro a hcycle
  have hlt : ∀ {b}, TransGen r a b → height a < height b := by
    intro b hab
    induction hab with
    | single hstep => exact h _ _ hstep
    | tail _ hstep ih => exact ih.trans (h _ _ hstep)
  exact Nat.lt_irrefl _ (hlt hcycle)

/-- Where finitely many wait for anything and there is no cycle, there are heights that go up with each
arc. -/
theorem Acyclic.exists_lt (h : Acyclic r) (hfinite : {a | ∃ b, r a b}.Finite) :
    ∃ height : α → ℕ, ∀ a b, r a b → height a < height b := by
  -- the height is the number of those before
  refine ⟨fun b => ({a | ∃ b, r a b} ∩ {a | TransGen r a b}).ncard, fun a b hab => ?_⟩
  have hsub : {a | ∃ b, r a b} ∩ {c | TransGen r c a} ⊆ {a | ∃ b, r a b} ∩ {c | TransGen r c b} :=
    fun c ⟨hwaits, hca⟩ => ⟨hwaits, hca.tail hab⟩
  have hnew : a ∉ {a | ∃ b, r a b} ∩ {c | TransGen r c a} := fun ⟨_, hcycle⟩ => h a hcycle
  refine Set.ncard_lt_ncard ?_ (hfinite.inter_of_left _)
  exact (Set.ssubset_iff_of_subset hsub).mpr ⟨a, ⟨⟨b, hab⟩, .single hab⟩, hnew⟩

/-- Those between `a` and `a` itself. -/
def between (r : α → α → Prop) (a : α) : Set α := {b | TransGen r a b ∧ TransGen r b a}

theorem stuck_between (h : TransGen r a a) : Stuck r (between r a) := by
  refine ⟨⟨a, h, h⟩, fun b ⟨hab, hba⟩ => ?_⟩
  obtain ⟨c, hbc, hca⟩ := TransGen.head'_iff.mp hba
  exact ⟨c, ⟨hab.tail hbc, TransGen.trans_right hca h⟩, hbc⟩

end WaitFor
