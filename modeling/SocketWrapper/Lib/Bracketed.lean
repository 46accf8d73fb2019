import Mathlib.Data.List.Basic

/-!
# Segments between two markers

A segment begins with the first `a` outside of a segment and goes on to the next `z`, which is not part of it.
What is between segments belongs to none.
-/

namespace Bracketed

variable {α : Type*} [DecidableEq α] {a z : α} {x p s : List α} {segment : Option (List α)}

/-- The segments of the input. `segment` is what has been seen of one that has begun. -/
def scan (a z : α) : Option (List α) → List α → List (List α)
  | _, [] => []
  | none, b :: x => if b = a then scan a z (some [b]) x else scan a z none x
  | some s, b :: x => if b = z then s :: scan a z none x else scan a z (some (s ++ [b])) x

/-- Without a `z` no segment ends. -/
theorem scan_of_notMem (h : z ∉ x) : scan a z segment x = [] := by
  induction x generalizing segment with
  | nil => simp [scan]
  | cons b x ih =>
      simp only [List.mem_cons, not_or] at h
      cases segment with
      | none =>
          simp only [scan]
          split
          · exact ih h.2
          · exact ih h.2
      | some s =>
          simp only [scan, if_neg (Ne.symm h.1)]
          exact ih h.2

/-- What is in front of an `a` belongs to no segment. -/
theorem scan_skip (h : a ∉ p) (y : List α) : scan a z none (p ++ y) = scan a z none y := by
  induction p with
  | nil => rfl
  | cons b p ih =>
      simp only [List.mem_cons, not_or] at h
      simp only [List.cons_append, scan, if_neg (Ne.symm h.1)]
      exact ih h.2

theorem scan_some (h : z ∉ p) (s y : List α) :
    scan a z (some s) (p ++ z :: y) = (s ++ p) :: scan a z none y := by
  induction p generalizing s with
  | nil => simp [scan]
  | cons b p ih =>
      simp only [List.mem_cons, not_or] at h
      simp only [List.cons_append, scan, if_neg (Ne.symm h.1), ih h.2, List.append_assoc,
        List.nil_append]

/-- The first segment of an input that begins with one. -/
theorem scan_segment (h : z ∉ p) (y : List α) :
    scan a z none (a :: (p ++ z :: y)) = (a :: p) :: scan a z none y := by
  simp only [scan, ↓reduceIte]
  exact scan_some h [a] y

end Bracketed
