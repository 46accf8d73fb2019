import SocketWrapper.Lib.Bracketed
import SocketWrapper.Conditional.Lemmas.Cuts

/-!
# A condition that discards

What it asks to discard goes up to the next `A` that has arrived, or is all there is. How the input is cut
into segments does not depend on that.
-/

namespace SocketWrapper

open ConditionalBufferedStream

/-- The condition of `DiscardData`, which captures what is between `A` and `Z`. -/
def fancyCondition (data : List Byte) : Int32 :=
  match data.findIdx? (· == 90) with
  | none => 0
  | some endMarker =>
      if data.head? = some 65 then Int32.ofInt endMarker
      else
        match data.findIdx? (· == 65) with
        | none => Int32.ofInt (-data.length)
        | some nextStartMarker => Int32.ofInt (-nextStartMarker)

/-- What it captures. -/
def captured (x : List Byte) : List (List Byte) := Bracketed.scan 65 90 none x

variable {x p r : List Byte} {N n : Nat}

/-! ## Negative results -/

theorem toInt_ofInt_neg (h : n < 2 ^ 31) : (Int32.ofInt (-n)).toInt = -n := by
  rw [Int32.toInt_ofInt]
  simp only [Int.bmod_def, int32_size]
  split <;> omega

theorem absSize_ofInt_neg (h : n < 2 ^ 31) : absSize (Int32.ofInt (-n)) = n := by
  have htoInt := toInt_ofInt_neg h
  rw [absSize_eq, htoInt, Int.natAbs_neg, Int.natAbs_natCast]
  intro hmin
  rw [hmin] at htoInt
  have : Int32.minValue.toInt = -2 ^ 31 := by decide
  omega

theorem not_ofInt_neg_pos (h : n < 2 ^ 31) : ¬ 0 < Int32.ofInt (-n) := by
  rw [Int32.lt_iff_toInt_lt, toInt_ofInt_neg h]
  simp

/-! ## The three cases of the condition -/

theorem findIdx?_of_notMem {d : Byte} (h : d ∉ x) : x.findIdx? (· == d) = none := by
  rw [List.findIdx?_eq_none_iff]
  intro b hb
  simpa using fun hd : b = d => h (hd ▸ hb)

theorem fancyCondition_of_notMem (h : 90 ∉ x) : fancyCondition x = 0 := by
  rw [fancyCondition, findIdx?_of_notMem h]

theorem fancyCondition_capture (h : 90 ∉ p) (r : List Byte) :
    fancyCondition (65 :: p ++ 90 :: r) = Int32.ofInt (p.length + 1) := by
  have hfind : (65 :: p ++ 90 :: r).findIdx? (· == 90) = some (65 :: p).length :=
    findIdx?_delimiter (by simp [h])
  rw [fancyCondition, hfind]
  rfl

/-- It discards what is in front of the next `A`. -/
theorem fancyCondition_skip (hz : 90 ∈ p ++ 65 :: r) (ha : 65 ∉ p) (hne : p ≠ []) :
    fancyCondition (p ++ 65 :: r) = Int32.ofInt (-p.length) := by
  obtain ⟨q, s, hx, hq⟩ := List.eq_append_cons_of_mem hz
  have hend : (p ++ 65 :: r).findIdx? (· == 90) = some q.length := by
    rw [hx]
    exact findIdx?_delimiter hq
  have hhead : (p ++ 65 :: r).head? ≠ some 65 := by
    cases p with
    | nil => exact absurd rfl hne
    | cons b p => simpa using fun hb => ha (by simp [hb])
  rw [fancyCondition, hend]
  simp only [hhead, ↓reduceIte, findIdx?_delimiter ha]

/-- Without an `A` it discards everything. -/
theorem fancyCondition_discard (hz : 90 ∈ x) (ha : 65 ∉ x) : fancyCondition x = Int32.ofInt (-x.length) := by
  obtain ⟨q, s, rfl, hq⟩ := List.eq_append_cons_of_mem hz
  have hhead : (q ++ 90 :: s).head? ≠ some 65 := by
    intro hhead
    exact ha (List.mem_of_mem_head? hhead)
  rw [fancyCondition, findIdx?_delimiter hq]
  simp only [hhead, ↓reduceIte, findIdx?_of_notMem ha]

/-- What the condition does with a buffer: nothing, capture, or discard bytes that belong to no segment. -/
inductive Fancy : List Byte → Prop
  | waits {x : List Byte} : 90 ∉ x → Fancy x
  | captures {p : List Byte} (r : List Byte) : 90 ∉ p → Fancy (65 :: p ++ 90 :: r)
  | discards {p r : List Byte} : 65 ∉ p → p ≠ [] → fancyCondition (p ++ r) = Int32.ofInt (-p.length) →
      Fancy (p ++ r)

theorem fancy (x : List Byte) : Fancy x := by
  by_cases hz : 90 ∈ x
  · by_cases ha : 65 ∈ x
    · obtain ⟨p, r, rfl, hp⟩ := List.eq_append_cons_of_mem ha
      by_cases hnil : p = []
      · subst hnil
        have hr : 90 ∈ r := by simpa using hz
        obtain ⟨q, s, rfl, hq⟩ := List.eq_append_cons_of_mem hr
        exact .captures s hq
      · exact .discards hp hnil (fancyCondition_skip hz hp hnil)
    · have hne : x ≠ [] := List.ne_nil_of_mem hz
      have hall := Fancy.discards (r := []) ha hne (by rw [List.append_nil]; exact fancyCondition_discard hz ha)
      rwa [List.append_nil] at hall
  · exact .waits hz

theorem fancyCondition_eq_zero_iff (hx : x.length < 2 ^ 31) : fancyCondition x = 0 ↔ 90 ∉ x := by
  refine ⟨fun hzero => ?_, fancyCondition_of_notMem⟩
  cases fancy x with
  | waits hz => exact hz
  | @captures p r hz =>
      simp only [List.length_append, List.length_cons] at hx
      have hpos := ofInt_pos (n := p.length + 1) (by omega) (Nat.succ_pos _)
      push_cast at hpos
      rw [← fancyCondition_capture hz r, hzero] at hpos
      exact absurd hpos (by decide)
  | @discards p r _ hne heq =>
      rw [List.length_append] at hx
      have hsize := absSize_ofInt_neg (n := p.length) (by omega)
      rw [← heq, hzero, absSize_zero] at hsize
      exact absurd (List.length_eq_zero_iff.mp hsize.symm) hne

/-! ## What it cuts off -/

/-- `fancyCondition` cuts off what is between the markers. -/
theorem cutsOff_fancy (hN : N < 2 ^ 31) : CutsOff fancyCondition captured N where
  le x hx := by
    cases fancy x with
    | waits hz => simp [fancyCondition_of_notMem hz]
    | @captures p r hz =>
        simp only [List.length_append, List.length_cons] at hx ⊢
        have hsize := absSize_ofInt (n := p.length + 1) (by omega)
        push_cast at hsize
        rw [fancyCondition_capture hz, hsize]
        omega
    | @discards p r _ _ heq =>
        rw [List.length_append] at hx ⊢
        rw [heq, absSize_ofInt_neg (by omega)]
        omega
  cut x y hx hne := by
    cases fancy x with
    | waits hz => exact absurd (fancyCondition_of_notMem hz) hne
    | @captures p r hz =>
        simp only [List.length_append, List.length_cons] at hx
        have hlt : p.length + 1 < 2 ^ 31 := by omega
        have hsize := absSize_ofInt hlt
        have hpos := ofInt_pos hlt (Nat.succ_pos _)
        push_cast at hsize hpos
        have htake : (65 :: p ++ 90 :: r).take (p.length + 1) = 65 :: p := by simp
        have hdrop : (65 :: p ++ 90 :: r).drop (p.length + 1) = [90] ++ r := by simp
        have hz' : (65 : Byte) ∉ [(90 : Byte)] := by decide
        rw [fancyCondition_capture hz, hsize, if_pos hpos, htake, hdrop, List.append_assoc, captured, captured,
          List.append_assoc, Bracketed.scan_skip hz', List.cons_append, List.cons_append,
          Bracketed.scan_segment hz]
        rfl
    | @discards p r ha _ heq =>
        rw [List.length_append] at hx
        have hlt : p.length < 2 ^ 31 := by omega
        rw [heq, absSize_ofInt_neg hlt, if_neg (not_ofInt_neg_pos hlt), List.drop_left, List.append_assoc,
          captured, captured, Bracketed.scan_skip ha]
        rfl
  rest x hx hzero :=
    Bracketed.scan_of_notMem ((fancyCondition_eq_zero_iff (Nat.lt_of_le_of_lt hx hN)).mp hzero)
  nil := rfl

/-- If each part of the input that fills the buffer has a `Z`, the buffer never fills in vain. -/
theorem roomy_fancy (hpos : 0 < N) (hN : N < 2 ^ 31) (h : ∀ y, y <:+: x → y.length = N → 90 ∈ y) :
    Roomy fancyCondition N x := by
  intro y hy hfull hspent
  rcases hspent with rfl | hzero
  · exact absurd hfull (Nat.ne_of_lt hpos)
  · exact (fancyCondition_eq_zero_iff (hfull.symm ▸ hN)).mp hzero (h y hy hfull)

end SocketWrapper
