import Mathlib

/-!
# Flat memory

An allocated block is the list of its cells. Only stores that stay inside the block are described;
the lemmas carry that as a hypothesis.
-/

namespace FlatMemory

variable {α : Type*}

/-- The block `mem` after `cells` have been stored from offset `off` on. -/
def store (mem : List α) (off : Nat) (cells : List α) : List α :=
  mem.take off ++ cells ++ mem.drop (off + cells.length)

/-- `memmove(mem, mem + src, len)`: the source range is read before anything is stored. -/
def moveToFront (mem : List α) (src len : Nat) : List α :=
  store mem 0 ((mem.drop src).take len)

@[simp] theorem store_nil (mem : List α) (off : Nat) : store mem off [] = mem := by
  simp [store]

theorem length_store {mem cells : List α} {off : Nat} (h : off + cells.length ≤ mem.length) :
    (store mem off cells).length = mem.length := by
  simp only [store, List.length_append, List.length_take, List.length_drop]
  omega

/-- The cells below the end of a store are the old prefix and the stored cells. -/
theorem take_store {mem cells : List α} {off : Nat} (h : off + cells.length ≤ mem.length) :
    (store mem off cells).take (off + cells.length) = mem.take off ++ cells := by
  have hlen : (mem.take off ++ cells).length = off + cells.length := by
    simp only [List.length_append, List.length_take]
    omega
  rw [store, ← hlen, List.take_left']
  rfl

/-- A store behind the stored cells. -/
theorem store_append (mem xs ys : List α) : store (store mem 0 xs) xs.length ys = store mem 0 (xs ++ ys) := by
  have hdrop : (xs ++ mem.drop xs.length).drop (xs.length + ys.length) =
      mem.drop (xs.length + ys.length) := by
    rw [← List.drop_drop, List.drop_left, List.drop_drop]
  simp only [store, List.take_zero, List.nil_append, Nat.zero_add, List.take_left, hdrop,
    List.append_assoc, List.length_append]

theorem length_moveToFront {mem : List α} {src len : Nat} (h : src + len ≤ mem.length) :
    (moveToFront mem src len).length = mem.length := by
  refine length_store ?_
  simp only [List.length_take, List.length_drop]
  omega

theorem take_moveToFront {mem : List α} {src len : Nat} (h : src + len ≤ mem.length) :
    (moveToFront mem src len).take len = (mem.take (src + len)).drop src := by
  have hlen : ((mem.drop src).take len).length = len := by
    simp only [List.length_take, List.length_drop]
    omega
  have hin : 0 + ((mem.drop src).take len).length ≤ mem.length := by omega
  have hstored := take_store hin
  rw [hlen, Nat.zero_add, List.take_zero, List.nil_append] at hstored
  rw [moveToFront, hstored, List.drop_take, Nat.add_sub_cancel_left]

end FlatMemory
