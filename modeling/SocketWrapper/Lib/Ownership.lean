import Mathlib

/-!
# Handles and their holders

A table hands out handles and takes them back; the objects of a program hold some of them. The table is
accounted for if every handle in use is held once and none has been given back that was not in use.
-/

namespace Ownership

variable {α ρ : Type*}

/-! ## Tables -/

structure Table (ρ : Type*) where
  /-- The handles in use. -/
  opened : List ρ
  /-- History: every handle handed out, and every handle given back. -/
  acquired : List ρ
  released : List ρ

namespace Table

def empty : Table ρ := ⟨[], [], []⟩

def acquire (t : Table ρ) (r : ρ) : Table ρ := ⟨r :: t.opened, r :: t.acquired, t.released⟩

def release [DecidableEq ρ] (t : Table ρ) (r : ρ) : Table ρ :=
  ⟨t.opened.erase r, t.acquired, r :: t.released⟩

@[simp] theorem opened_release [DecidableEq ρ] (t : Table ρ) (r : ρ) :
    (t.release r).opened = t.opened.erase r := rfl

end Table

/-- The handles in use are those in `held`, each of them once, and each of those given back had been
handed out for it. -/
structure Accounts [DecidableEq ρ] (held : List ρ) (t : Table ρ) : Prop where
  nodup : t.opened.Nodup
  perm : held.Perm t.opened
  balance : ∀ r, t.released.count r + t.opened.count r = t.acquired.count r

namespace Accounts

variable [DecidableEq ρ] {held held' : List ρ} {t : Table ρ} {r : ρ}

theorem empty : Accounts [] (Table.empty : Table ρ) := ⟨List.nodup_nil, .nil, fun _ => rfl⟩

theorem of_perm (h : Accounts held t) (hperm : held'.Perm held) : Accounts held' t :=
  ⟨h.nodup, hperm.trans h.perm, h.balance⟩

theorem acquire (h : Accounts held t) (hr : r ∉ t.opened) : Accounts (r :: held) (t.acquire r) where
  nodup := List.nodup_cons.mpr ⟨hr, h.nodup⟩
  perm := h.perm.cons r
  balance := fun r' => by
    have hbalance := h.balance r'
    simp only [Table.acquire, List.count_cons]
    omega

theorem mem_opened (h : Accounts held t) (hr : r ∈ held) : r ∈ t.opened := h.perm.mem_iff.mp hr

theorem release (h : Accounts (r :: held) t) : Accounts held (t.release r) where
  nodup := h.nodup.erase r
  perm := by
    have hopened := List.perm_cons_erase (h.mem_opened (List.mem_cons_self ..))
    exact (h.perm.trans hopened).cons_inv
  balance := fun r' => by
    have hbalance := h.balance r'
    have hmem := h.mem_opened (List.mem_cons_self ..)
    simp only [Table.release, List.count_cons, List.count_erase]
    by_cases hr' : r = r'
    · subst hr'
      have hpos := List.count_pos_iff.mpr hmem
      simp only [beq_self_eq_true, ↓reduceIte]
      omega
    · have hne : (r == r') = false := by simpa using hr'
      simp only [hne, Bool.false_eq_true, ↓reduceIte]
      omega

theorem nodup_held (h : Accounts held t) : held.Nodup := h.perm.nodup_iff.mpr h.nodup

/-- If the holders are of two kinds, those of the first hold everything exactly if the others hold
nothing. -/
theorem forall_mem_iff {others : List ρ} (h : Accounts (held ++ others) t) :
    (∀ r ∈ t.opened, r ∈ held) ↔ others = [] := by
  constructor
  · intro hall
    refine List.eq_nil_iff_forall_not_mem.mpr fun r hr => ?_
    have hheld := hall r (h.mem_opened (List.mem_append_right _ hr))
    exact (List.nodup_append'.mp h.nodup_held).2.2 hheld hr
  · rintro rfl r hr
    simpa using h.perm.mem_iff.mpr hr

/-- A handle that nobody holds has been given back as often as it was handed out. -/
theorem count_of_notMem (h : Accounts held t) (hr : r ∉ held) :
    t.released.count r = t.acquired.count r := by
  have hbalance := h.balance r
  rw [List.count_eq_zero_of_not_mem fun hmem => hr (h.perm.mem_iff.mpr hmem)] at hbalance
  exact hbalance

end Accounts

/-! ## Objects that hold handles -/

/-- What the objects hold. An object that is no longer alive is `none`. -/
def heldBy (holds : α → List ρ) (objects : List (Option α)) : List ρ :=
  objects.flatMap (fun o => o.elim [] holds)

section

variable {holds : α → List ρ} {objects : List (Option α)} {i j : Nat} {o : Option α} {a b : α} {r : ρ}

@[simp] theorem heldBy_append (objects objects' : List (Option α)) :
    heldBy holds (objects ++ objects') = heldBy holds objects ++ heldBy holds objects' :=
  List.flatMap_append

@[simp] theorem heldBy_map_some (created : List α) :
    heldBy holds (created.map some) = created.flatMap holds := by
  simp [heldBy, List.flatMap_map]

theorem mem_heldBy : r ∈ heldBy holds objects ↔ ∃ a, some a ∈ objects ∧ r ∈ holds a := by
  simp only [heldBy, List.mem_flatMap]
  constructor
  · rintro ⟨o, ho, hr⟩
    cases o with
    | none => cases hr
    | some a => exact ⟨a, ho, hr⟩
  · rintro ⟨a, ha, hr⟩
    exact ⟨some a, ha, hr⟩

/-- What an object has held goes and what its successor holds comes. -/
theorem perm_heldBy_set (h : objects[i]? = some o) (o' : Option α) :
    (o.elim [] holds ++ heldBy holds (objects.set i o')).Perm
      (o'.elim [] holds ++ heldBy holds objects) := by
  induction objects generalizing i with
  | nil => cases h
  | cons x objects ih =>
      cases i with
      | zero =>
          obtain rfl : x = o := Option.some.inj h
          simp only [heldBy, List.set_cons_zero, List.flatMap_cons]
          exact List.perm_append_comm_assoc _ _ _
      | succ i =>
          have hrest := (ih h).append_left (x.elim [] holds)
          simp only [heldBy, List.set_cons_succ, List.flatMap_cons] at hrest ⊢
          exact (List.perm_append_comm_assoc _ _ _).trans
            (hrest.trans (List.perm_append_comm_assoc _ _ _))

/-- What a live object holds can be put in front of what the others hold. -/
theorem perm_heldBy_front (h : objects[i]? = some (some a)) :
    (holds a ++ heldBy holds (objects.set i none)).Perm (heldBy holds objects) :=
  perm_heldBy_set h none

theorem perm_heldBy_replace (h : objects[i]? = some o) (b : α) :
    (heldBy holds (objects.set i (some b))).Perm (holds b ++ heldBy holds (objects.set i none)) := by
  obtain ⟨hi, -⟩ := List.getElem?_eq_some_iff.mp h
  have hnone : (objects.set i none)[i]? = some none := by simp [hi]
  simpa using perm_heldBy_set hnone (some b)

/-- An object that holds nothing counts like one that is no longer alive. -/
theorem perm_heldBy_left (h : objects[i]? = some o) (hb : holds b = []) :
    (heldBy holds (objects.set i (some b))).Perm (heldBy holds (objects.set i none)) := by
  have hreplace : (heldBy holds _).Perm _ := perm_heldBy_replace h b
  rwa [hb, List.nil_append] at hreplace

/-- Object `i` takes over what object `j` holds, and what `i` held is lost. -/
theorem perm_heldBy_transfer {a' b' : α} (hne : i ≠ j) (hi : objects[i]? = some (some a))
    (hj : objects[j]? = some (some b)) (ha' : holds a' = holds b) (hb' : holds b' = []) :
    (heldBy holds ((objects.set i (some a')).set j (some b'))).Perm
      (heldBy holds (objects.set i none)) := by
  have hj' : (objects.set i (some a'))[j]? = some (some b) := by rwa [List.getElem?_set_ne hne]
  have hleft := perm_heldBy_left hj' hb'
  have hfront : (holds b ++ _).Perm _ := perm_heldBy_front hj'
  have hreplace : (heldBy holds _).Perm _ := perm_heldBy_replace hi a'
  rw [ha'] at hreplace
  exact hleft.trans ((List.perm_append_left_iff _).mp (hfront.trans hreplace))

theorem notMem_of_nodup (h : (heldBy holds objects).Nodup) (hi : objects[i]? = some (some a))
    (hj : objects[j]? = some (some b)) (hne : i ≠ j) (ha : r ∈ holds a) : r ∉ holds b := by
  obtain ⟨-, hpairs⟩ := List.nodup_flatMap.mp h
  obtain ⟨hi', hia⟩ := List.getElem?_eq_some_iff.mp hi
  obtain ⟨hj', hjb⟩ := List.getElem?_eq_some_iff.mp hj
  intro hb
  rcases Nat.lt_or_gt_of_ne hne with hlt | hlt
  · have hdisjoint := List.pairwise_iff_getElem.mp hpairs i j hi' hj' hlt
    simp only [Function.onFun, hia, hjb] at hdisjoint
    exact hdisjoint ha hb
  · have hdisjoint := List.pairwise_iff_getElem.mp hpairs j i hj' hi' hlt
    simp only [Function.onFun, hia, hjb] at hdisjoint
    exact hdisjoint hb ha

end

end Ownership
