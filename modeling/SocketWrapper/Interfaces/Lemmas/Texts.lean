import SocketWrapper.Interfaces.Addresses

/-!
# The buffers are large enough
-/

namespace SocketWrapper.Interfaces

variable {best : Option ZeroRun} {lastTwo : Option (List Char)} {i width n w : ℕ} {ws : List ℕ}

theorem lt_of_mem_pieces {v : ℕ} {a : BitVec v} (h : w ∈ pieces width n a) : w < 2 ^ width := by
  obtain ⟨i, -, rfl⟩ := List.mem_map.mp h
  exact Nat.mod_lt _ (Nat.two_pow_pos width)

@[simp] theorem length_pieces {v : ℕ} {a : BitVec v} : (pieces width n a).length = n := by
  simp [pieces]

theorem length_intercalate_le {c : Char} {m : ℕ} :
    ∀ {texts : List (List Char)}, (∀ text ∈ texts, text.length ≤ m) →
      ([c].intercalate texts).length ≤ (m + 1) * texts.length - 1
  | [], _ => by simp
  | [text], h => by simpa using h text List.mem_cons_self
  | text :: next :: rest, h => by
      have ih := length_intercalate_le (c := c) fun t ht => h t (List.mem_cons_of_mem text ht)
      have htext := h text List.mem_cons_self
      simp only [List.intercalate_cons_cons, List.length_append, List.length_cons, List.length_nil,
        Nat.mul_add, Nat.mul_one] at ih ⊢
      omega

theorem length_dotted_le (a : BitVec 32) : (dotted a).length ≤ 15 := by
  have hdigits : ∀ text ∈ (octets a).map (Nat.toDigits 10), text.length ≤ 3 := by
    intro text htext
    obtain ⟨octet, hoctet, rfl⟩ := List.mem_map.mp htext
    have hlt : octet < 2 ^ 8 := lt_of_mem_pieces hoctet
    exact (Nat.length_toDigits_le_iff (by decide) (by decide)).mpr (by omega)
  simpa [dotted, octets] using length_intercalate_le (c := '.') hdigits

theorem inetNtop4_eq (a : BitVec 32) : inetNtop4 a INET_ADDRSTRLEN = some (.ofList (dotted a)) :=
  if_neg (Nat.not_le.mpr (Nat.lt_succ_of_le (length_dotted_le a)))

/-- From the word number `i` on: a colon and four digits for each word, of which the first has no colon. The
last two may be a colon and an IPv4 address instead. -/
theorem length_colonised_le (hws : ∀ w ∈ ws, w < 2 ^ 16) (hlast : ∀ text, lastTwo = some text → text.length ≤ 15)
    (hi : i + ws.length = 8) : (colonised best lastTwo i ws).length ≤
      if i = 0 then 45 else if i ≤ 6 then 46 - 5 * i else 41 - 5 * i := by
  induction ws generalizing i with
  | nil =>
      obtain rfl : i = 8 := hi
      unfold colonised
      split <;> simp
  | cons w ws ih =>
      have hrest := ih (i := i + 1) (fun w hw => hws w (List.mem_cons_of_mem _ hw)) (by
        simp only [List.length_cons] at hi
        omega)
      have hdigits : (Nat.toDigits 16 w).length ≤ 4 :=
        (Nat.length_toDigits_le_iff (by decide) (by decide)).mpr (hws w List.mem_cons_self)
      simp only [List.length_cons] at hi
      unfold colonised
      split
      · have hcolon : (if best.any fun run => i == run.base then [':'] else []).length ≤ 1 := by
          split <;> simp
        rw [List.length_append]
        grind
      · have hcolon : (if i = 0 then [] else [':']).length = if i = 0 then 0 else 1 := by
          split <;> rfl
        rw [List.length_append, hcolon]
        cases hword : if i = 6 then lastTwo else none with
        | some text =>
            obtain ⟨rfl, htext⟩ := Option.ite_none_right_eq_some.mp hword
            simpa using Nat.add_le_add_left (hlast text htext) 1
        | none =>
            simp only [Option.getD_none, List.length_append]
            grind

theorem length_coloned_le (a : BitVec 128) : (coloned a).length ≤ 45 := by
  refine length_colonised_le (fun w hw => lt_of_mem_pieces hw) (fun text htext => ?_) (by simp [words])
  split at htext
  · cases htext
    exact length_dotted_le _
  · cases htext

theorem inetNtop6_eq (a : BitVec 128) : inetNtop6 a INET6_ADDRSTRLEN = some (.ofList (coloned a)) :=
  if_neg (Nat.not_lt.mpr (Nat.succ_le_succ (length_coloned_le a)))

end SocketWrapper.Interfaces
