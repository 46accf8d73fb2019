import SocketWrapper.Concurrent.Lemmas.Alone
import SocketWrapper.Concurrent.Lemmas.Stopped

/-!
# A call of `processDataSendSignals` comes to its end

Each step within the call leaves less to do (`WorkerAt.cost`), and each pop takes at least one byte off
the front of the buffer.
-/

namespace SocketWrapper

open ConditionalBufferedStream

variable {S : Setup} {s s' s'' : ConditionalBufferedStream} {w w' : WorkerAt} {frames : List Frame}
  {rs rs' : List Removal}

/-- The worker after a number of steps that it takes undisturbed, if it takes so many. -/
def workerSteps (S : Setup) :
    Nat → WorkerAt × ConditionalBufferedStream → Option (WorkerAt × ConditionalBufferedStream)
  | 0, p => some p
  | n + 1, p => (workerStep S p.1 p.2).bind (workerSteps S n)

/-! ## Pops -/

/-- The segments `rs` have been taken off the front of the buffer, and none of them is empty. -/
structure Takes (s : ConditionalBufferedStream) (rs : List Removal) (s' : ConditionalBufferedStream) :
    Prop where
  ext : Extends s rs s'
  nonempty : ∀ r ∈ rs, 0 < r.segment.length

theorem Takes.of_extends (h : Extends s [] s') : Takes s [] s' := ⟨h, by simp⟩

theorem Takes.trans (h : Takes s rs s') (h' : Takes s' rs' s'') : Takes s (rs ++ rs') s'' := by
  refine ⟨h.ext.trans h'.ext, fun r hr => ?_⟩
  rcases List.mem_append.mp hr with hr | hr
  · exact h.nonempty r hr
  · exact h'.nonempty r hr

theorem Takes.sum_le (h : Takes s rs s') :
    (rs.map fun r => r.segment.length).sum ≤ s.contents.length := by
  have hlength := congrArg List.length h.ext.bytes
  rw [List.length_append, List.length_flatten, List.map_map] at hlength
  exact hlength ▸ Nat.le_add_right _ _

theorem Takes.length_le (h : Takes s rs s') : rs.length ≤ s.contents.length := by
  have hpos : ∀ n ∈ rs.map fun r => r.segment.length, 1 ≤ n := List.forall_mem_map.mpr h.nonempty
  have hle := List.length_le_sum_of_one_le _ hpos
  rw [List.length_map] at hle
  exact Nat.le_trans hle h.sum_le

theorem Takes.of_popAndQueue {fd : Fd} {v : Int32} (hv : s.stream.Valid) (hne : v ≠ 0)
    (hpop : s.popAndQueue fd v = (.returned (), s')) :
    Takes s [⟨fd, v, s.contents.take (absSize v)⟩] s' := by
  obtain ⟨hle, hext, -⟩ := of_popAndQueue_returned hv hpop
  refine ⟨hext, fun r hr => ?_⟩
  obtain rfl := List.mem_singleton.mp hr
  show 0 < (s.contents.take (absSize v)).length
  rw [List.length_take, Nat.min_eq_left hle]
  exact absSize_pos hne

/-! ## Within the call -/

/-- The worker is in a call that `frames` have made, or in one that this call has made. -/
def WorkerAt.Within (frames : List Frame) : WorkerAt → Prop
  | .dispatching all => ∃ top, top ≠ [] ∧ all = top ++ frames
  | .popping _ v _ below => v ≠ 0 ∧ frames <:+ below
  | .posting _ _ _ below => frames <:+ below
  | _ => False

theorem within_cons (frame : Frame) {below : List Frame} (h : frames <:+ below) :
    WorkerAt.Within frames (.dispatching (frame :: below)) := by
  obtain ⟨top, rfl⟩ := h
  exact ⟨frame :: top, List.cons_ne_nil _ _, rfl⟩

theorem within_recurse {v : Int32} {frame : Frame} {below : List Frame} (h : frames <:+ below) :
    (WorkerAt.recurse S v frame below).Within frames :=
  within_cons _ (h.trans (List.suffix_cons _ _))

theorem suffix_of_within {frame : Frame} {below : List Frame}
    (h : WorkerAt.Within frames (.dispatching (frame :: below))) : frames <:+ below := by
  obtain ⟨top, hne, heq⟩ := h
  cases top with
  | nil => exact absurd rfl hne
  | cons _ top =>
      obtain ⟨-, rfl⟩ := List.cons.inj heq
      exact List.suffix_append _ _

/-- A step within the call stays in it or ends it. -/
theorem WorkerMove.within (h : WorkerMove S w s w' s') (hw : w.Within frames) :
    w'.Within frames ∨ ∃ o, CallEnd frames o w' := by
  cases h with
  | filled => cases hw
  | readFailed => cases hw
  | drained =>
      obtain ⟨top, hne, heq⟩ := hw
      exact absurd (List.append_eq_nil_iff.mp heq.symm).1 hne
  | returned =>
      obtain ⟨top, heq⟩ := suffix_of_within hw
      cases top with
      | nil =>
          obtain rfl := heq
          exact .inr ⟨_, .returned⟩
      | cons frame top => exact .inl ⟨_, List.cons_ne_nil frame top, heq.symm⟩
  | refused => exact .inr ⟨_, .threw _⟩
  | skipped => exact .inl (within_cons _ (suffix_of_within hw))
  | matched hne => exact .inl ⟨hne, suffix_of_within hw⟩
  | popped => exact .inl hw.2
  | discarded => exact .inl (within_recurse hw.2)
  | popFailed => exact .inr ⟨_, .threw _⟩
  | posted => exact .inl (within_recurse hw)
  | postFailed => exact .inr ⟨_, .threw _⟩
  | _ => cases hw

theorem WorkerMove.takes (h : WorkerMove S w s w' s') (hw : w.Within frames) (hv : s.stream.Valid) :
    ∃ rs, Takes s rs s' := by
  cases h with
  | filled => cases hw
  | readFailed => cases hw
  | drained => exact ⟨[], .of_extends (.refl hv)⟩
  | returned => exact ⟨[], .of_extends (.refl hv)⟩
  | refused => exact ⟨[], .of_extends (.evaluate hv _ _)⟩
  | skipped => exact ⟨[], .of_extends (.evaluate hv _ _)⟩
  | matched => exact ⟨[], .of_extends (.evaluate hv _ _)⟩
  | popped hpop => exact ⟨_, .of_popAndQueue hv hw.1 hpop⟩
  | discarded hpop => exact ⟨_, .of_popAndQueue hv hw.1 hpop⟩
  | popFailed hpop =>
      obtain ⟨-, rfl, -⟩ := of_popAndQueue_threw hv hpop
      exact ⟨[], .of_extends (.refl hv)⟩
  | posted hpost => exact ⟨[], .of_extends (.of_post hv hpost)⟩
  | postFailed hpost => exact ⟨[], .of_extends (.of_post hv hpost)⟩
  | _ => cases hw

theorem exists_step_of_within (hw : w.Within frames) : ∃ r, workerStep S w s = some r := by
  refine exists_workerStep (fun hreading => ?_) (fun hstarted => ?_) ?_
  · subst hreading
    cases hw
  · subst hstarted
    cases hw
  · cases w with
    | ended => cases hw
    | terminated => cases hw
    | _ => rfl

/-- The call comes to its end, having taken segments off the front of the buffer. -/
theorem exists_callEnd (hw : w.Within frames) (hv : s.stream.Valid) :
    ∃ n o w' s', workerSteps S n (w, s) = some (w', s') ∧ CallEnd frames o w' ∧
      ∀ k ≤ n, ∃ p rs, workerSteps S k (w, s) = some p ∧ Takes s rs p.2 := by
  generalize hcost : w.cost S = cost
  induction cost using Nat.strongRecOn generalizing w s with
  | ind cost ih =>
      obtain ⟨⟨w₁, s₁⟩, hstep⟩ := exists_step_of_within (S := S) (s := s) hw
      have hmove := workerMove_of_step hstep
      obtain ⟨rs, htakes⟩ := hmove.takes hw hv
      have hlt := hmove.cost_lt fun hreading => by
        subst hreading
        cases hw
      have hfirst : ∀ k, workerSteps S (k + 1) (w, s) = workerSteps S k (w₁, s₁) := fun k => by
        rw [workerSteps, hstep, Option.bind_some]
      have hzero : ∃ p rs, workerSteps S 0 (w, s) = some p ∧ Takes s rs p.2 :=
        ⟨_, [], rfl, .of_extends (.refl hv)⟩
      rcases hmove.within hw with hw₁ | ⟨o, hend⟩
      · obtain ⟨n, o, w', s', hn, hend, hprefix⟩ :=
          ih (w₁.cost S) (hcost ▸ hlt) hw₁ htakes.ext.valid rfl
        refine ⟨n + 1, o, w', s', (hfirst n).trans hn, hend, fun k hk => ?_⟩
        cases k with
        | zero => exact hzero
        | succ k =>
            obtain ⟨p, rs', hp, htakes'⟩ := hprefix k (Nat.le_of_succ_le_succ hk)
            exact ⟨p, _, (hfirst k).trans hp, htakes.trans htakes'⟩
      · refine ⟨1, o, w₁, s₁, hfirst 0, hend, fun k hk => ?_⟩
        cases k with
        | zero => exact hzero
        | succ k =>
            obtain rfl : k = 0 := by omega
            exact ⟨_, _, hfirst 0, htakes⟩

end SocketWrapper
