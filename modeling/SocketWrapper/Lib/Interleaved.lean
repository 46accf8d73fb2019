import Mathlib

/-!
# Sequences with several sources

Every item carries the source that it comes from. The items of a source are a block if no other
source's item is between them.
-/

namespace Interleaved

variable {ι α : Type*} {l l' : List (ι × α)} {i j : ι} {xs ys : List α}

/-- The items, all of them from source `i`. -/
def tag (i : ι) (xs : List α) : List (ι × α) := xs.map (fun x => (i, x))

/-- No item comes from source `i`. -/
def Without (l : List (ι × α)) (i : ι) : Prop := ∀ p ∈ l, p.1 ≠ i

/-- The items of source `i` are `xs`, and nothing has come after them. -/
def Ends (l : List (ι × α)) (i : ι) (xs : List α) : Prop :=
  ∃ pre, l = pre ++ tag i xs ∧ Without pre i

/-- The items of source `i` are `xs`, one next to the other. -/
def Block (l : List (ι × α)) (i : ι) (xs : List α) : Prop :=
  ∃ pre post, l = pre ++ tag i xs ++ post ∧ Without pre i ∧ Without post i

@[simp] theorem tag_nil : tag i ([] : List α) = [] := rfl

theorem tag_append : tag i (xs ++ ys) = tag i xs ++ tag i ys := List.map_append

@[simp] theorem map_snd_tag : (tag i xs).map Prod.snd = xs := by
  simp [tag, Function.comp_def]

theorem fst_of_mem_tag {p : ι × α} (h : p ∈ tag i xs) : p.1 = i := by
  obtain ⟨x, -, rfl⟩ := List.mem_map.mp h
  rfl

theorem tag_eq_cons (h : 0 < xs.length) : ∃ x l, tag i xs = (i, x) :: l := by
  obtain ⟨x, xs, rfl⟩ := List.exists_cons_of_length_pos h
  exact ⟨x, tag i xs, rfl⟩

theorem without_tag (h : i ≠ j) : Without (tag i xs) j := by
  intro p hp
  rw [fst_of_mem_tag hp]
  exact h

theorem Without.append (h : Without l i) (h' : Without l' i) : Without (l ++ l') i :=
  fun p hp => (List.mem_append.mp hp).elim (h p) (h' p)

theorem Without.ends (h : Without l i) : Ends l i ([] : List α) := ⟨l, by simp, h⟩

theorem Ends.extend (h : Ends l i xs) (ys : List α) : Ends (l ++ tag i ys) i (xs ++ ys) := by
  obtain ⟨pre, rfl, hpre⟩ := h
  exact ⟨pre, by rw [tag_append, List.append_assoc], hpre⟩

theorem Ends.block (h : Ends l i xs) : Block l i xs := by
  obtain ⟨pre, rfl, hpre⟩ := h
  exact ⟨pre, [], by simp, hpre, fun p hp => by cases hp⟩

theorem Block.append (h : Block l i xs) (h' : Without l' i) : Block (l ++ l') i xs := by
  obtain ⟨pre, post, rfl, hpre, hpost⟩ := h
  exact ⟨pre, post ++ l', by simp [List.append_assoc], hpre, hpost.append h'⟩

theorem Block.between (h : Block l i xs) {p q r : Nat} {x y z : α} (hpq : p < q) (hqr : q < r)
    (hp : l[p]? = some (i, x)) (hq : l[q]? = some (j, y)) (hr : l[r]? = some (i, z)) : j = i := by
  obtain ⟨pre, post, rfl, hpre, hpost⟩ := h
  have hfirst : pre.length ≤ p := by
    by_contra hlt
    rw [List.append_assoc, List.getElem?_append_left (Nat.not_le.mp hlt)] at hp
    exact hpre _ (List.mem_of_getElem? hp) rfl
  have hlast : r < (pre ++ tag i xs).length := by
    by_contra hge
    rw [List.getElem?_append_right (Nat.not_lt.mp hge)] at hr
    exact hpost _ (List.mem_of_getElem? hr) rfl
  rw [List.getElem?_append_left (Nat.lt_trans hqr hlast),
    List.getElem?_append_right (Nat.le_trans hfirst (Nat.le_of_lt hpq))] at hq
  exact fst_of_mem_tag (List.mem_of_getElem? hq)

/-- Items of another source that have come between two of `i`'s break the block. -/
theorem not_block_of_between {x y z : α} {a b c d : List (ι × α)} (hne : j ≠ i)
    (h : l = a ++ (i, x) :: b ++ (j, y) :: c ++ (i, z) :: d) : ¬ Block l i xs := by
  intro hblock
  refine hne (hblock.between (p := a.length) (q := (a ++ (i, x) :: b).length)
    (r := (a ++ (i, x) :: b ++ (j, y) :: c).length) (x := x) (y := y) (z := z) ?_ ?_ ?_ ?_ ?_)
  · simp
  · simp
  · rw [h]
    simp
  · rw [h, List.append_assoc, List.getElem?_append_right (Nat.le_refl _), Nat.sub_self]
    rfl
  · rw [h, List.getElem?_append_right (Nat.le_refl _), Nat.sub_self]
    rfl

end Interleaved
