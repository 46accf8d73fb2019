import Mathlib

/-!
# Cutting segments off the front of a buffer

A `Segmenter` looks at the whole buffer and either leaves it alone or cuts a non-empty segment off
its front; `drain` repeats this until nothing is cut. A segmenter may keep a state and attaches a tag
to each segment. If its decisions survive more input arriving behind the buffer (`PrefixStable`), the
pieces in which the input arrives do not matter (`drain_append`).
-/

/-- `cut s x = some (n, b, s')`: in state `s` the buffer `x` loses its first `n` elements, tagged `b`. -/
structure Segmenter (σ α β : Type*) where
  cut : σ → List α → Option (Nat × β × σ)
  cut_pos : ∀ {s x n b s'}, cut s x = some (n, b, s') → 0 < n
  cut_le : ∀ {s x n b s'}, cut s x = some (n, b, s') → n ≤ x.length

namespace Segmenter

variable {σ α β : Type*}

/-- What has been cut so far, in order, and what is left. -/
structure Drained (σ α β : Type*) where
  segments : List (β × List α)
  rest : List α
  state : σ

variable (S : Segmenter σ α β)

theorem length_drop_lt {s : σ} {x : List α} {n : Nat} {b : β} {s' : σ}
    (h : S.cut s x = some (n, b, s')) : (x.drop n).length < x.length := by
  have hpos := S.cut_pos h
  have hle := S.cut_le h
  simp only [List.length_drop]
  omega

/-- Cut until the segmenter leaves the buffer alone. -/
def drain (s : σ) (x : List α) : Drained σ α β :=
  match h : S.cut s x with
  | none => ⟨[], x, s⟩
  | some (n, b, s') =>
      have _hpos := S.cut_pos h
      have _hle := S.cut_le h
      let d := drain s' (x.drop n)
      ⟨(b, x.take n) :: d.segments, d.rest, d.state⟩
termination_by x.length

variable {S} {s s' t : σ} {x y : List α} {n : Nat} {b : β}

theorem drain_none (h : S.cut s x = none) : S.drain s x = ⟨[], x, s⟩ := by
  rw [drain]
  split
  · rfl
  · rename_i h'; rw [h] at h'; cases h'

theorem drain_some (h : S.cut s x = some (n, b, s')) :
    S.drain s x = ⟨(b, x.take n) :: (S.drain s' (x.drop n)).segments,
      (S.drain s' (x.drop n)).rest, (S.drain s' (x.drop n)).state⟩ := by
  rw [drain]
  split
  · rename_i h'; rw [h] at h'; cases h'
  · rename_i h'; rw [h] at h'; cases h'; rfl

theorem cut_induction {P : σ → List α → Prop} (S : Segmenter σ α β)
    (stop : ∀ s x, S.cut s x = none → P s x)
    (step : ∀ s x n b s', S.cut s x = some (n, b, s') → P s' (x.drop n) → P s x)
    (s : σ) (x : List α) : P s x := by
  induction hlen : x.length using Nat.strongRecOn generalizing s x with
  | ind k ih =>
      cases h : S.cut s x with
      | none => exact stop s x h
      | some c =>
          obtain ⟨n, b, s'⟩ := c
          exact step s x n b s' h (ih _ (hlen ▸ S.length_drop_lt h) s' (x.drop n) rfl)

/-- Nothing is lost: the segments followed by the rest are the buffer. -/
theorem drain_flatten (S : Segmenter σ α β) (s : σ) (x : List α) :
    ((S.drain s x).segments.map Prod.snd).flatten ++ (S.drain s x).rest = x := by
  induction s, x using cut_induction S with
  | stop s x h => simp [drain_none h]
  | step s x n b s' h ih =>
      simp only [drain_some h, List.map_cons, List.flatten_cons, List.append_assoc, ih,
        List.take_append_drop]

theorem cut_drain (S : Segmenter σ α β) (s : σ) (x : List α) :
    S.cut (S.drain s x).state (S.drain s x).rest = none := by
  induction s, x using cut_induction S with
  | stop s x h => simpa [drain_none h] using h
  | step s x n b s' h ih => simpa only [drain_some h] using ih

/-! ## Input that arrives in pieces -/

/-- A decision to cut is not revised when more input arrives behind the buffer. -/
def PrefixStable (S : Segmenter σ α β) : Prop :=
  ∀ s x y c, S.cut s x = some c → S.cut s (x ++ y) = some c

/-- Go on with `y` arriving behind what `d` has left. -/
def Drained.feed (S : Segmenter σ α β) (d : Drained σ α β) (y : List α) : Drained σ α β :=
  let e := S.drain d.state (d.rest ++ y)
  ⟨d.segments ++ e.segments, e.rest, e.state⟩

theorem drain_append (hS : S.PrefixStable) (s : σ) (x y : List α) :
    S.drain s (x ++ y) = (S.drain s x).feed S y := by
  induction s, x using cut_induction S with
  | stop s x h => simp [drain_none h, Drained.feed]
  | step s x n b s' h ih =>
      have hle := S.cut_le h
      rw [drain_some (hS s x y _ h), List.drop_append_of_le_length hle,
        List.take_append_of_le_length hle, ih]
      simp only [Drained.feed, drain_some h, List.cons_append]

/-! ## The buffers at which a decision is taken -/

/-- Draining `x` from state `s` comes to look at buffer `y` in state `t`. -/
inductive Reaches (S : Segmenter σ α β) : σ → List α → σ → List α → Prop
  | here {s : σ} {x : List α} : Reaches S s x s x
  | there {s s' t : σ} {x y : List α} {n : Nat} {b : β} :
      S.cut s x = some (n, b, s') → Reaches S s' (x.drop n) t y →
      Reaches S s x t y

theorem Reaches.stop_iff (h : S.cut s x = none) : S.Reaches s x t y ↔ t = s ∧ y = x := by
  constructor
  · rintro (_ | ⟨hcut, _⟩)
    · exact ⟨rfl, rfl⟩
    · rw [h] at hcut; cases hcut
  · rintro ⟨rfl, rfl⟩; exact .here

theorem Reaches.step_iff (h : S.cut s x = some (n, b, s')) :
    S.Reaches s x t y ↔ (t = s ∧ y = x) ∨ S.Reaches s' (x.drop n) t y := by
  constructor
  · rintro (_ | ⟨hcut, hrest⟩)
    · exact .inl ⟨rfl, rfl⟩
    · rw [h] at hcut; cases hcut; exact .inr hrest
  · rintro (⟨rfl, rfl⟩ | hrest)
    · exact .here
    · exact .there h hrest

/-- A property of every buffer looked at splits into the first one and the later ones. -/
theorem Reaches.forall_step_iff (h : S.cut s x = some (n, b, s')) {P : List α → Prop} :
    (∀ t y, S.Reaches s x t y → P y) ↔ P x ∧ ∀ t y, S.Reaches s' (x.drop n) t y → P y := by
  simp only [Reaches.step_iff h]
  constructor
  · intro hall
    exact ⟨hall s x (.inl ⟨rfl, rfl⟩), fun t y hy => hall t y (.inr hy)⟩
  · rintro ⟨hx, hrest⟩ t y (⟨rfl, rfl⟩ | hy)
    · exact hx
    · exact hrest t y hy

end Segmenter
