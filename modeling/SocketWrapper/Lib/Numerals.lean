import Mathlib

/-!
# Numerals

Digits with the most significant one first, and how `Nat.toDigits` writes a number with them.
-/

namespace Numerals

variable {b n v d : Nat} {digits more : List Nat}

/-- The number that the digits make in base `b`, behind what has been read before. -/
def value (b v : Nat) (digits : List Nat) : Nat := digits.foldl (fun v d => v * b + d) v

@[simp] theorem value_nil : value b v [] = v := rfl

@[simp] theorem value_cons : value b v (d :: digits) = value b (v * b + d) digits := rfl

theorem value_append : value b v (digits ++ more) = value b (value b v digits) more :=
  List.foldl_append

theorem le_value (hb : 0 < b) : v ≤ value b v digits := by
  induction digits generalizing v with
  | nil => exact Nat.le_refl v
  | cons d digits ih =>
      calc v ≤ v * b := Nat.le_mul_of_pos_right v hb
        _ ≤ v * b + d := Nat.le_add_right _ d
        _ ≤ value b (v * b + d) digits := ih

theorem value_lt (hdigits : ∀ d ∈ digits, d < b) : value b v digits < (v + 1) * b ^ digits.length := by
  induction digits generalizing v with
  | nil => simp
  | cons d digits ih =>
      have hd : d < b := hdigits d List.mem_cons_self
      have hrest := ih (v := v * b + d) fun d hd => hdigits d (List.mem_cons_of_mem _ hd)
      calc value b (v * b + d) digits
          < (v * b + d + 1) * b ^ digits.length := hrest
        _ ≤ ((v + 1) * b) * b ^ digits.length := by
          apply Nat.mul_le_mul_right
          rw [Nat.add_mul, Nat.one_mul]
          omega
        _ = (v + 1) * b ^ (d :: digits).length := by rw [List.length_cons, Nat.pow_succ', Nat.mul_assoc]

/-- The digits that a number is written with: none before the first significant one. -/
structure Writes (b n : Nat) (digits : List Nat) : Prop where
  lt : ∀ d ∈ digits, d < b
  value : value b 0 digits = n
  ne_nil : digits ≠ []
  head : digits = [0] ∨ digits.head? ≠ some 0

theorem Writes.single (h : n < b) : Writes b n [n] where
  lt := by simpa using h
  value := by simp
  ne_nil := by simp
  head := by
    by_cases hn : n = 0
    · exact .inl (by rw [hn])
    · exact .inr (by simpa using hn)

theorem Writes.append (h : Writes b n digits) (hn : n ≠ 0) (hd : d < b) :
    Writes b (n * b + d) (digits ++ [d]) where
  lt := by
    intro d' hd'
    rcases List.mem_append.mp hd' with hmem | hmem
    · exact h.lt d' hmem
    · rwa [List.mem_singleton.mp hmem]
  value := by
    rw [value_append, h.value]
    rfl
  ne_nil := by simp
  head := by
    rcases h.head with hzero | hne
    · have hvalue := h.value
      rw [hzero] at hvalue
      exact absurd (by simpa using hvalue.symm) hn
    · right
      rwa [List.head?_append_of_ne_nil _ h.ne_nil]

theorem exists_writes (hb : 1 < b) (n : Nat) :
    ∃ digits, Nat.toDigits b n = digits.map Nat.digitChar ∧ Writes b n digits := by
  induction n using Nat.strongRecOn with
  | ind n ih =>
      by_cases hlt : n < b
      · exact ⟨[n], by rw [Nat.toDigits_of_lt_base hlt, List.map_singleton], .single hlt⟩
      · have hle : b ≤ n := Nat.not_lt.mp hlt
        obtain ⟨digits, htext, hwrites⟩ := ih (n / b) (Nat.div_lt_self (by omega) hb)
        refine ⟨digits ++ [n % b], ?_, ?_⟩
        · rw [Nat.toDigits_of_base_le hb hle, htext, List.map_append, List.map_singleton]
        · have hne : n / b ≠ 0 := Nat.ne_of_gt (Nat.div_pos hle (by omega))
          have happend := hwrites.append hne (Nat.mod_lt n (by omega))
          rwa [Nat.div_add_mod'] at happend

end Numerals
