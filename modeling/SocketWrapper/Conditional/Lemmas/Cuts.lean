import SocketWrapper.Conditional.Lemmas.Delimiter

/-!
# What a condition is for

A function from the input to segments. A condition may discard bytes that belong to no segment, and how many
of them it discards at once may depend on how the input arrives.
-/

namespace SocketWrapper

open ConditionalBufferedStream

/-- In a buffer of `N` bytes `condition` takes the segments `T` off the front of its input, whatever follows
it. What it discards belongs to none of them. -/
structure CutsOff (condition : List Byte → Int32) (T : List Byte → List (List Byte)) (N : Nat) : Prop where
  le : ∀ x, x.length ≤ N → absSize (condition x) ≤ x.length
  cut : ∀ x y, x.length ≤ N → condition x ≠ 0 →
    T (x ++ y) = (if 0 < condition x then [x.take (absSize (condition x))] else []) ++
      T (x.drop (absSize (condition x)) ++ y)
  rest : ∀ x, x.length ≤ N → condition x = 0 → T x = []
  nil : T [] = []

/-- The condition has nothing to do with the input. -/
def Spent (condition : List Byte → Int32) (x : List Byte) : Prop := x = [] ∨ condition x = 0

/-- Whatever part of the input fills a buffer of `N` bytes, the condition has something to do with it. -/
def Roomy (condition : List Byte → Int32) (N : Nat) (x : List Byte) : Prop :=
  ∀ y, y <:+: x → y.length = N → ¬ Spent condition y

variable {condition : List Byte → Int32} {T : List Byte → List (List Byte)} {N : Nat} {d : Byte}
  {x p y : List Byte}

theorem CutsOff.of_spent (h : CutsOff condition T N) (hx : x.length ≤ N) (hspent : Spent condition x) :
    T x = [] := by
  rcases hspent with rfl | hzero
  · exact h.nil
  · exact h.rest x hx hzero

/-! ## Delimiters -/

theorem notMem_of_zero (hx : x.length < 2 ^ 31) (hzero : getDelimiterCondition d x = 0) : d ∉ x := by
  intro hd
  obtain ⟨p, y, rfl, hp⟩ := List.eq_append_cons_of_mem hd
  rw [List.length_append, List.length_cons] at hx
  rw [getDelimiterCondition_append hp] at hzero
  have hpos := ofInt_pos (n := p.length + 1) (by omega) (by omega)
  rw [show ((p.length + 1 : ℕ) : Int) = (p.length : Int) + 1 from rfl, hzero] at hpos
  exact absurd hpos (by decide)

theorem notMem_of_spent (hx : x.length < 2 ^ 31) (hspent : Spent (getDelimiterCondition d) x) : d ∉ x := by
  rcases hspent with rfl | hzero
  · exact List.not_mem_nil
  · exact notMem_of_zero hx hzero

/-- `getDelimiterCondition` cuts off lines. -/
theorem cutsOff_delimiter (d : Byte) (hN : N < 2 ^ 31) :
    CutsOff (getDelimiterCondition d) (fun x => (Delimited.splitAfter d x).1) N where
  le x hx := absSize_getDelimiterCondition_le d (Nat.lt_of_le_of_lt hx hN)
  cut x y hx hne := by
    have hd : d ∈ x := by
      by_contra hd
      exact hne (getDelimiterCondition_of_notMem hd)
    obtain ⟨p, r, rfl, hp⟩ := List.eq_append_cons_of_mem hd
    rw [List.length_append, List.length_cons] at hx
    have hlt : p.length + 1 < 2 ^ 31 := by omega
    have hlen : absSize (Int32.ofInt (p.length + 1)) = p.length + 1 := absSize_ofInt hlt
    have hpos : 0 < Int32.ofInt (p.length + 1) := ofInt_pos hlt (Nat.succ_pos _)
    have htake : (p ++ d :: r).take (p.length + 1) = p ++ [d] := by
      rw [List.take_length_add_append, List.take_succ_cons, List.take_zero]
    have hdrop : (p ++ d :: r).drop (p.length + 1) = r := by simp
    rw [getDelimiterCondition_append hp, if_pos hpos, hlen, htake, hdrop, List.append_assoc,
      List.cons_append, Delimited.splitAfter_line hp]
    rfl
  rest x hx hzero := by
    rw [Delimited.splitAfter_of_notMem (notMem_of_zero (Nat.lt_of_le_of_lt hx hN) hzero)]
  nil := rfl

/-- Lines that fit into the buffer leave room in it until they are complete. -/
theorem roomy_delimiter (hN : N < 2 ^ 31) (hlines : ∀ s ∈ (Delimited.splitAfter d x).1, s.length ≤ N)
    (hrest : (Delimited.splitAfter d x).2.length < N) : Roomy (getDelimiterCondition d) N x := by
  intro y hy hfull hspent
  have hclean : d ∉ y := notMem_of_spent (hfull.symm ▸ hN) hspent
  exact absurd hfull (Nat.ne_of_lt (Delimited.length_lt_of_infix hclean hy hlines hrest))

end SocketWrapper
