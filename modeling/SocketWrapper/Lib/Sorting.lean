import Mathlib

/-!
# Sorting by a comparison

A sort is known by its contract. If the comparison is a strict weak order on the elements, the result has the
same elements, and none comes before an earlier one. Otherwise nothing is promised.
-/

namespace Sorting

variable {α : Type*} {r : α → α → Prop} {S : Set α} {l l' : List α} {a b c : α}

/-- On the members of `S` the comparison is irreflexive, transitive, and transitive where neither of two
comes before the other. -/
def StrictWeakOn (r : α → α → Prop) (S : Set α) : Prop := IsStrictWeakOrder S (Subrel r (· ∈ S))

theorem StrictWeakOn.irrefl (h : StrictWeakOn r S) (ha : a ∈ S) : ¬ r a a :=
  h.toIsStrictOrder.toIrrefl.irrefl ⟨a, ha⟩

theorem StrictWeakOn.trans (h : StrictWeakOn r S) (ha : a ∈ S) (hb : b ∈ S) (hc : c ∈ S)
    (hab : r a b) (hbc : r b c) : r a c :=
  h.toIsStrictOrder.toIsTrans.trans ⟨a, ha⟩ ⟨b, hb⟩ ⟨c, hc⟩ hab hbc

theorem StrictWeakOn.asymm (h : StrictWeakOn r S) (ha : a ∈ S) (hb : b ∈ S) (hab : r a b) : ¬ r b a :=
  fun hba => h.irrefl ha (h.trans ha hb ha hab hba)

/-- Not to come before is transitive as well. -/
theorem StrictWeakOn.not_trans (h : StrictWeakOn r S) (ha : a ∈ S) (hb : b ∈ S) (hc : c ∈ S)
    (hab : ¬ r a b) (hbc : ¬ r b c) : ¬ r a c := by
  intro hac
  have hba : ¬ r b a := fun hba => hbc (h.trans hb ha hc hba hac)
  have hcb : ¬ r c b := fun hcb => hab (h.trans ha hc hb hac hcb)
  exact (h.incomp_trans ⟨a, ha⟩ ⟨b, hb⟩ ⟨c, hc⟩ ⟨hab, hba⟩ ⟨hbc, hcb⟩).1 hac

theorem StrictWeakOn.of_measure (f : α → ℕ) (h : ∀ a ∈ S, ∀ b ∈ S, r a b ↔ f b < f a) :
    StrictWeakOn r S where
  irrefl a := by
    have := h a a.2 a a.2
    simp_all
  trans a b c hab hbc := by
    have hab := (h a a.2 b b.2).mp hab
    have hbc := (h b b.2 c c.2).mp hbc
    exact (h a a.2 c c.2).mpr (hbc.trans hab)
  incomp_trans a b c hab hbc := by
    simp only [subrel_val, h _ a.2 _ b.2, h _ b.2 _ a.2, h _ b.2 _ c.2, h _ c.2 _ b.2, h _ a.2 _ c.2,
      h _ c.2 _ a.2] at hab hbc ⊢
    omega

/-- What the sort may make of `l`. -/
def MayYield (r : α → α → Prop) (l l' : List α) : Prop :=
  StrictWeakOn r {a | a ∈ l} → l'.Perm l ∧ l'.Pairwise fun a b => ¬ r b a

theorem StrictWeakOn.exists_sorted (h : StrictWeakOn r {a | a ∈ l}) :
    ∃ l' : List α, l'.Perm l ∧ l'.Pairwise fun a b => ¬ r b a := by
  classical
  let le (a b : {a // a ∈ l}) : Bool := ¬ r b a
  have htrans : ∀ a b c, le a b → le b c → le a c := by
    simp only [le, decide_eq_true_eq]
    exact fun a b c hab hbc => h.not_trans c.2 b.2 a.2 hbc hab
  have htotal : ∀ a b, (le a b || le b a) = true := by
    simp only [le, Bool.or_eq_true, decide_eq_true_eq]
    exact fun a b => not_or_of_imp (h.asymm b.2 a.2)
  refine ⟨(l.attach.mergeSort le).map Subtype.val, ?_, ?_⟩
  · exact ((l.attach.mergeSort_perm le).map Subtype.val).trans (.of_eq l.attach_map_subtype_val)
  · rw [List.pairwise_map]
    exact (List.pairwise_mergeSort htrans htotal l.attach).imp fun hab => by simpa [le] using hab

/-- No element comes before the front of a sorted list. -/
theorem MayYield.front (h : MayYield r l l') (hr : StrictWeakOn r {a | a ∈ l}) (hne : l ≠ []) :
    ∃ a ∈ l, l'.head? = some a ∧ ∀ b ∈ l, ¬ r b a := by
  obtain ⟨hperm, hsorted⟩ := h hr
  cases l' with
  | nil => exact absurd hperm.symm.eq_nil hne
  | cons a rest =>
      have ha : a ∈ l := hperm.mem_iff.mp List.mem_cons_self
      refine ⟨a, ha, rfl, fun b hb => ?_⟩
      rcases List.mem_cons.mp (hperm.mem_iff.mpr hb) with rfl | hrest
      · exact hr.irrefl ha
      · exact (List.pairwise_cons.mp hsorted).1 b hrest

/-- Each element that no other comes before may end up at the front. -/
theorem exists_mayYield_front (ha : a ∈ l) (hfirst : ∀ b ∈ l, ¬ r b a) :
    ∃ l', MayYield r l l' ∧ l'.head? = some a := by
  classical
  by_cases hr : StrictWeakOn r {a | a ∈ l}
  · obtain ⟨sorted, hperm, hsorted⟩ := hr.exists_sorted
    have hall : (a :: sorted.erase a).Perm l :=
      (List.perm_cons_erase (hperm.mem_iff.mpr ha)).symm.trans hperm
    refine ⟨a :: sorted.erase a, fun _ => ⟨hall, List.pairwise_cons.mpr ⟨fun b hb => ?_, ?_⟩⟩, rfl⟩
    · exact hfirst b (hall.mem_iff.mp (List.mem_cons_of_mem a hb))
    · exact hsorted.sublist List.erase_sublist
  · exact ⟨[a], fun h => absurd h hr, rfl⟩

end Sorting
