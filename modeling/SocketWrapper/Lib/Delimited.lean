import SocketWrapper.Lib.Segmenter

/-!
# Input separated by a delimiter

`splitAfter d x` cuts `x` behind each `d`. A segmenter that cuts behind the first `d` it sees, as long
as the segment is no longer than a bound, produces the same segments from every prefix of the input.
-/

namespace Delimited

variable {α : Type*}

/-- The segments of `x` that end in `d`, in order, and what follows the last `d`. -/
def splitAfter [DecidableEq α] (d : α) : List α → List (List α) × List α
  | [] => ([], [])
  | a :: x =>
      if a = d then ([a] :: (splitAfter d x).1, (splitAfter d x).2)
      else match splitAfter d x with
        | ([], tail) => ([], a :: tail)
        | (s :: segs, tail) => ((a :: s) :: segs, tail)

/-- `x` is the segments `segs`, each ending in its only `d`, followed by `tail`, which has no `d`. -/
structure Split (d : α) (x : List α) (segs : List (List α)) (tail : List α) : Prop where
  flatten : segs.flatten ++ tail = x
  segment : ∀ s ∈ segs, ∃ p, d ∉ p ∧ s = p ++ [d]
  tail_clean : d ∉ tail

theorem split_splitAfter [DecidableEq α] (d : α) (x : List α) :
    Split d x (splitAfter d x).1 (splitAfter d x).2 := by
  induction x with
  | nil => exact ⟨rfl, by simp [splitAfter], by simp [splitAfter]⟩
  | cons a x ih =>
      simp only [splitAfter]
      split
      · rename_i had
        subst had
        refine ⟨by simp [ih.flatten], ?_, ih.tail_clean⟩
        intro s hs
        rcases List.mem_cons.mp hs with rfl | hs
        · exact ⟨[], by simp, rfl⟩
        · exact ih.segment s hs
      · rename_i had
        split
        · rename_i tail hx
          rw [hx] at ih
          refine ⟨by simpa using ih.flatten, by simp, ?_⟩
          simpa [Ne.symm had] using ih.tail_clean
        · rename_i s segs tail hx
          rw [hx] at ih
          refine ⟨by simpa using ih.flatten, ?_, ih.tail_clean⟩
          intro s' hs'
          rcases List.mem_cons.mp hs' with rfl | hs'
          · obtain ⟨p, hp, rfl⟩ := ih.segment s (by simp)
            exact ⟨a :: p, by simp [Ne.symm had, hp], rfl⟩
          · exact ih.segment s' (by simp [hs'])

/-- `s` ends in its only `d`. -/
def Line (d : α) (s : List α) : Prop := ∃ p, d ∉ p ∧ s = p ++ [d]

theorem line_iff (d : α) (s : List α) : Line d s ↔ s.getLast? = some d ∧ d ∉ s.dropLast := by
  constructor
  · rintro ⟨p, hp, rfl⟩
    simp [hp]
  · rintro ⟨hlast, hd⟩
    exact ⟨s.dropLast, hd, (List.dropLast_append_getLast? d hlast).symm⟩

instance [DecidableEq α] (d : α) (s : List α) : Decidable (Line d s) :=
  decidable_of_iff _ (line_iff d s).symm

section Lines

variable [DecidableEq α] {d : α} {p x y : List α} {segs : List (List α)}

theorem splitAfter_of_notMem (h : d ∉ x) : splitAfter d x = ([], x) := by
  induction x with
  | nil => rfl
  | cons a x ih =>
      simp only [List.mem_cons, not_or] at h
      simp [splitAfter, Ne.symm h.1, ih h.2]

theorem splitAfter_line (h : d ∉ p) (y : List α) :
    splitAfter d (p ++ d :: y) = ((p ++ [d]) :: (splitAfter d y).1, (splitAfter d y).2) := by
  induction p with
  | nil => simp [splitAfter]
  | cons a p ih =>
      simp only [List.mem_cons, not_or] at h
      simp [splitAfter, Ne.symm h.1, ih h.2]

/-- Lines in front of the input are cut off it first. -/
theorem splitAfter_flatten (h : ∀ s ∈ segs, Line d s) (y : List α) :
    splitAfter d (segs.flatten ++ y) = (segs ++ (splitAfter d y).1, (splitAfter d y).2) := by
  induction segs with
  | nil => rfl
  | cons s segs ih =>
      obtain ⟨p, hp, rfl⟩ := h s (by simp)
      have hrest := ih fun s hs => h s (by simp [hs])
      rw [List.flatten_cons, List.append_assoc, List.append_assoc, List.singleton_append,
        splitAfter_line hp, hrest]
      rfl

/-- An input that begins without a delimiter begins with less than a segment, or than what is left. -/
theorem length_lt_of_splitAfter {N : Nat} (hx : d ∉ x)
    (hsegs : ∀ s ∈ (splitAfter d (x ++ y)).1, s.length ≤ N)
    (htail : (splitAfter d (x ++ y)).2.length < N) : x.length < N := by
  by_cases hd : d ∈ y
  · obtain ⟨p, r, rfl, hp⟩ := List.eq_append_cons_of_mem hd
    have hfirst : d ∉ x ++ p := by simp [hx, hp]
    rw [← List.append_assoc, splitAfter_line hfirst] at hsegs
    have hle := hsegs ((x ++ p) ++ [d]) (by simp)
    simp only [List.length_append, List.length_singleton] at hle
    omega
  · rw [splitAfter_of_notMem (by simp [hx, hd]), List.length_append] at htail
    omega

/-- Where there is no delimiter, there is less than a segment, or than what is left. -/
theorem length_lt_of_infix {N : Nat} {w : List α} (hx : d ∉ x) (hpart : x <:+: w)
    (hsegs : ∀ s ∈ (splitAfter d w).1, s.length ≤ N) (htail : (splitAfter d w).2.length < N) :
    x.length < N := by
  obtain ⟨l, r, rfl⟩ := hpart
  have hl := split_splitAfter d l
  have hsplit : splitAfter d (l ++ x ++ r) = ((splitAfter d l).1 ++
      (splitAfter d ((splitAfter d l).2 ++ x ++ r)).1, (splitAfter d ((splitAfter d l).2 ++ x ++ r)).2) := by
    conv_lhs => rw [← hl.flatten, List.append_assoc, List.append_assoc, splitAfter_flatten hl.segment]
    rw [List.append_assoc]
  rw [hsplit] at hsegs htail
  have hlt := length_lt_of_splitAfter (x := (splitAfter d l).2 ++ x) (by simp [hl.tail_clean, hx])
    (fun s hs => hsegs s (List.mem_append_right _ hs)) htail
  rw [List.length_append] at hlt
  omega

end Lines

/-- In the states `alive` the segmenter cuts behind the first `d`, if that is within `bound`, and cuts
nothing off a buffer without `d`. Every such segment gets a tag in `tagged`. -/
structure CutsAfter {σ β : Type*} (S : Segmenter σ α β) (d : α) (bound : Nat)
    (alive : σ → Prop) (tagged : β → Prop) : Prop where
  skip : ∀ s x, alive s → d ∉ x → S.cut s x = none
  take : ∀ s p y, alive s → d ∉ p → p.length + 1 ≤ bound →
    ∃ b s', S.cut s (p ++ d :: y) = some (p.length + 1, b, s') ∧ alive s' ∧ tagged b

section Drain

variable {σ β : Type*} {S : Segmenter σ α β} {d : α} {bound : Nat}
  {alive : σ → Prop} {tagged : β → Prop}

/-- What is known of the drain of a prefix `y` of the input `x` with segments `segs` and rest `tail`. -/
structure Progress (D : Segmenter.Drained σ α β) (x y : List α) (segs : List (List α))
    (tail : List α) (bound : Nat) (alive : σ → Prop) (tagged : β → Prop) : Prop where
  alive : alive D.state
  tagged : ∀ c ∈ D.segments, tagged c.1
  segments : D.segments.map Prod.snd <+: segs
  room : D.rest.length < bound
  complete : y = x → D.segments.map Prod.snd = segs ∧ D.rest = tail

theorem prefix_append_cons {p r y : List α} (h : y <+: p ++ d :: r) :
    y <+: p ∨ ∃ y', y = p ++ d :: y' ∧ y' <+: r := by
  obtain ⟨z, hz⟩ := h
  rcases List.append_eq_append_iff.mp hz with ⟨u, hp, _⟩ | ⟨u, hy, hdr⟩
  · exact .inl ⟨u, hp.symm⟩
  · cases u with
    | nil => exact .inl ⟨[], by simp [hy]⟩
    | cons a u =>
        simp only [List.cons_append, List.cons.injEq] at hdr
        exact .inr ⟨u, by rw [hy, hdr.1], ⟨z, hdr.2.symm⟩⟩

/-- A prefix without the delimiter stays in front of it. -/
theorem prefix_of_notMem {p r y : List α} (h : y <+: p ++ d :: r) (hd : d ∉ y) : y <+: p := by
  rcases prefix_append_cons h with hp | ⟨y', rfl, -⟩
  · exact hp
  · exact absurd (by simp) hd

theorem append_cons_inj {p p' r r' : List α} (hp : d ∉ p) (hp' : d ∉ p')
    (h : p ++ d :: r = p' ++ d :: r') : p = p' ∧ r = r' := by
  have hle : p <+: p' := prefix_of_notMem (h ▸ List.prefix_append p (d :: r)) hp
  have hge : p' <+: p := prefix_of_notMem (h ▸ List.prefix_append p' (d :: r')) hp'
  obtain rfl := hle.eq_of_length (Nat.le_antisymm hle.length_le hge.length_le)
  exact ⟨rfl, by simpa using h⟩

theorem Progress.skip (hS : CutsAfter S d bound alive tagged) {s : σ} (hs : alive s)
    {x y : List α} {segs : List (List α)} {tail : List α} (hd : d ∉ y) (hroom : y.length < bound)
    (hend : y = x → segs = [] ∧ y = tail) :
    Progress (S.drain s y) x y segs tail bound alive tagged := by
  rw [Segmenter.drain_none (hS.skip s y hs hd)]
  refine ⟨hs, by simp, List.nil_prefix, hroom, ?_⟩
  intro hyx
  obtain ⟨hsegs, htail⟩ := hend hyx
  exact ⟨hsegs.symm, htail⟩

theorem progress (hS : CutsAfter S d bound alive tagged) {x : List α} {segs : List (List α)}
    {tail : List α} (hx : Split d x segs tail) (hsegs : ∀ s ∈ segs, s.length ≤ bound)
    (htail : tail.length < bound) {s : σ} (hs : alive s) {y : List α} (hy : y <+: x) :
    Progress (S.drain s y) x y segs tail bound alive tagged := by
  induction segs generalizing s x y with
  | nil =>
      have hxt : tail = x := by simpa using hx.flatten
      subst hxt
      exact .skip hS hs (fun hd => hx.tail_clean (hy.subset hd))
        (Nat.lt_of_le_of_lt hy.length_le htail) (fun hyx => ⟨rfl, hyx⟩)
  | cons seg segs ih =>
      obtain ⟨p, hp, rfl⟩ := hx.segment seg (by simp)
      have hlen : p.length + 1 ≤ bound := by simpa using hsegs (p ++ [d]) (by simp)
      have hsplit : x = p ++ d :: (segs.flatten ++ tail) := by simp [← hx.flatten]
      subst hsplit
      have hrest : Split d (segs.flatten ++ tail) segs tail :=
        ⟨rfl, fun s' hs' => hx.segment s' (by simp [hs']), hx.tail_clean⟩
      rcases prefix_append_cons hy with hyp | ⟨y', rfl, hy'⟩
      · refine .skip hS hs (fun hd => hp (hyp.subset hd)) ?_ ?_
        · exact Nat.lt_of_le_of_lt hyp.length_le hlen
        · intro hyx
          -- the whole input contains `d`, its prefix inside `p` does not
          have hd : d ∈ y := by rw [hyx]; simp
          exact absurd (hyp.subset hd) hp
      · obtain ⟨b, s', hcut, hs', hb⟩ := hS.take s p y' hs hp hlen
        have hdrop : (p ++ d :: y').drop (p.length + 1) = y' := by simp
        have htake : (p ++ d :: y').take (p.length + 1) = p ++ [d] := by
          rw [List.take_length_add_append, List.take_succ_cons, List.take_zero]
        have h := ih hrest (fun s hs => hsegs s (by simp [hs])) hs' hy'
        rw [Segmenter.drain_some hcut, hdrop, htake]
        refine ⟨h.alive, ?_, ?_, h.room, ?_⟩
        · simpa [hb] using h.tagged
        · simpa [List.prefix_cons_inj] using h.segments
        · intro hyx
          obtain ⟨hall, hr⟩ := h.complete (by simpa using hyx)
          exact ⟨by simp [hall], hr⟩

end Drain

end Delimited
