import SocketWrapper.Conditional.Lemmas.Worker
import SocketWrapper.Lib.Segmenter

/-!
# A worker with one handler

With one handler whose condition depends on the data alone, the worker is a segmenter that is fed what
the socket hands over. Its state is the number of writes to the eventfd so far; there is none once a
write has failed.
-/

namespace SocketWrapper

/-- A handler whose condition depends on the data alone. -/
def pureHandler (condition : List Byte → Int32) (fd : Fd) : BufferEventHandler :=
  ⟨fun _ => condition, fd⟩

namespace SingleHandler

open ConditionalBufferedStream

/-- The writes after a segment with result `v` has been taken. -/
def afterSegment (S : Setup) (v : Int32) (writes : Nat) : Option Nat :=
  if 0 < v then
    match S.eventfdWrite writes with
    | none => some (writes + 1)
    | some _ => none
  else some writes

/-- One handler, as the code serves it. -/
def segmenter (S : Setup) (condition : List Byte → Int32) : Segmenter (Option Nat) Byte Int32 where
  cut state x := state.bind fun writes =>
    if condition x = 0 ∨ x.length < absSize (condition x) then none
    else some (absSize (condition x), condition x, afterSegment S (condition x) writes)
  cut_pos := by
    intro state x n v state' h
    obtain ⟨writes, -, h⟩ := Option.bind_eq_some_iff.mp h
    split at h
    · cases h
    · rename_i hcond
      cases h
      exact absSize_pos fun hzero => hcond (.inl hzero)
  cut_le := by
    intro state x n v state' h
    obtain ⟨writes, -, h⟩ := Option.bind_eq_some_iff.mp h
    split at h
    · cases h
    · rename_i hcond
      cases h
      exact Nat.not_lt.mp fun hlt => hcond (.inr hlt)

variable {S : Setup} {condition : List Byte → Int32} {fd : Fd} {s : ConditionalBufferedStream}
  {writes : Nat} {x : List Byte}

theorem cut_none (h : condition x = 0 ∨ x.length < absSize (condition x)) (state : Option Nat) :
    (segmenter S condition).cut state x = none := by
  cases state <;> simp [segmenter, h]

theorem cut_some (h : ¬ (condition x = 0 ∨ x.length < absSize (condition x))) :
    (segmenter S condition).cut (some writes) x =
      some (absSize (condition x), condition x, afterSegment S (condition x) writes) := by
  simp only [segmenter, Option.bind_some, if_neg h]

theorem drain_dead (x : List Byte) : (segmenter S condition).drain none x = ⟨[], x, none⟩ :=
  Segmenter.drain_none rfl

/-- A prefix-stable condition makes a segmenter that does not revise its cuts. -/
theorem prefixStable (h : ∀ x y, condition x ≠ 0 → condition (x ++ y) = condition x) :
    (segmenter S condition).PrefixStable := by
  intro state x y c hcut
  by_cases hcond : condition x = 0 ∨ x.length < absSize (condition x)
  · rw [cut_none hcond] at hcut
    cases hcut
  · cases state with
    | none => cases hcut
    | some writes =>
        rw [cut_some hcond] at hcut
        rw [not_or] at hcond
        have heq := h x y hcond.1
        rw [cut_some, heq]
        · exact hcut
        · rw [heq, not_or, List.length_append]
          exact ⟨hcond.1, by omega⟩

/-- The removals that the segments stand for. -/
def removalsOf (fd : Fd) (segments : List (Int32 × List Byte)) : List Removal :=
  segments.map fun c => ⟨fd, c.1, c.2⟩

theorem removalsOf_bytes (fd : Fd) (segments : List (Int32 × List Byte)) :
    ((removalsOf fd segments).map Removal.segment).flatten = (segments.map Prod.snd).flatten := by
  simp [removalsOf, List.map_map, Function.comp_def]

/-- How a call that drains the buffer to `D` ends. -/
def Ends (condition : List Byte → Int32) (D : Segmenter.Drained (Option Nat) Byte Int32)
    (r : Outcome Unit × ConditionalBufferedStream) : Prop :=
  (r.1 = .returned () ∧ D.state = some r.2.eventFds.writes) ∨
    ∃ e, r.1 = .threw e ∧ (D.state = none ∨ D.rest.length < absSize (condition D.rest))

theorem andThen_return (r : Outcome Unit × ConditionalBufferedStream) :
    Outcome.andThen r (fun _ s => (.returned (), s)) = r := by
  obtain ⟨o, s⟩ := r
  cases o <;> rfl

theorem process_eq (hS : S.handlers = [pureHandler condition fd]) (x : List Byte) :
    s.processDataSendSignals S x =
      if x = [] then (.returned (), s)
      else if x.length < absSize (condition x) then
        (.threw tooMuchData, (s.evaluate (pureHandler condition fd) x).2)
      else if condition x = 0 then (.returned (), (s.evaluate (pureHandler condition fd) x).2)
      else serve S (fun d s => s.processDataSendSignals S d) x
        (s.evaluate (pureHandler condition fd) x).2 fd (condition x) := by
  rw [processDataSendSignals_eq, hS, dispatchHandlers_cons]
  simp only [dispatchHandlers, andThen_return]
  rfl

/-- Serving the handler takes the segment; the rest is dispatched unless the write failed. -/
theorem serve_cases (fd : Fd) (v : Int32) (x : List Byte) (hv : s.stream.Valid)
    (hopened : s.eventFds.closed = []) (hle : absSize v ≤ s.contents.length)
    (recur : List Byte → ConditionalBufferedStream → Outcome Unit × ConditionalBufferedStream) :
    ∃ s', Extends s [⟨fd, v, s.contents.take (absSize v)⟩] s' ∧
      s'.contents = s.contents.drop (absSize v) ∧
      ((afterSegment S v s.eventFds.writes = some s'.eventFds.writes ∧
          serve S recur x s fd v = recur (x.drop (absSize v)) s') ∨
        (afterSegment S v s.eventFds.writes = none ∧
          ∃ e, serve S recur x s fd v = (.threw e, s'))) := by
  obtain ⟨s₁, hpop, hext, hcontents, -, heventFds⟩ := popAndQueue_of_le fd hv hle
  have hopened₁ : s₁.eventFds.closed = [] := hext.closed.trans hopened
  have hpost := Extends.post (S := S) hext.valid fd
  simp only [serve, hpop, Outcome.andThen_returned, postIfQueued, afterSegment, ← heventFds]
  by_cases hpos : 0 < v
  · simp only [hpos, ↓reduceIte]
    cases hwrite : S.eventfdWrite s₁.eventFds.writes with
    | none =>
        rw [post_of_accepted (by simp [hopened₁]) hwrite] at hpost ⊢
        exact ⟨s₁.posted fd, hext.trans hpost, hcontents, .inl ⟨rfl, rfl⟩⟩
    | some errno =>
        have hthrew := post_of_refused fd hopened₁ hwrite
        rcases hp : s₁.post S fd with ⟨o, s₂⟩
        rw [hp] at hthrew hpost
        obtain rfl : o = _ := hthrew
        obtain rfl := eq_of_post hp
        exact ⟨_, hext.trans hpost, hcontents, .inr ⟨rfl, _, rfl⟩⟩
  · simp only [hpos, ↓reduceIte, Outcome.andThen_returned]
    exact ⟨s₁, hext, hcontents, .inl ⟨rfl, rfl⟩⟩

theorem process_drain (hS : S.handlers = [pureHandler condition fd]) (state : Option Nat)
    (x : List Byte) :
    ∀ s : ConditionalBufferedStream, s.stream.Valid → s.eventFds.closed = [] → s.contents = x →
      state = some s.eventFds.writes →
      Extends s (removalsOf fd ((segmenter S condition).drain state x).segments)
        (s.processDataSendSignals S x).2 ∧
      Ends condition ((segmenter S condition).drain state x) (s.processDataSendSignals S x) := by
  induction state, x using Segmenter.cut_induction (segmenter S condition) with
  | stop state x hcut =>
      rintro s hv - rfl rfl
      have hev := Extends.evaluate hv (pureHandler condition fd) s.contents
      rw [Segmenter.drain_none hcut, process_eq hS]
      split
      · exact ⟨.refl hv, .inl ⟨rfl, rfl⟩⟩
      · split
        · rename_i hlt
          exact ⟨hev, .inr ⟨_, rfl, .inr hlt⟩⟩
        · rename_i hlt
          split
          · exact ⟨hev, .inl ⟨rfl, rfl⟩⟩
          · rename_i hzero
            rw [cut_some (not_or.mpr ⟨hzero, hlt⟩)] at hcut
            cases hcut
  | step state x n v state' hcut ih =>
      rintro s hv hopened rfl rfl
      by_cases hcond : condition s.contents = 0 ∨ s.contents.length < absSize (condition s.contents)
      · rw [cut_none hcond] at hcut
        cases hcut
      · have hdrain := Segmenter.drain_some hcut
        rw [cut_some hcond] at hcut
        cases hcut
        rw [not_or] at hcond
        have hne : s.contents ≠ [] := by
          intro hnil
          have hpos := absSize_pos hcond.1
          rw [hnil, List.length_nil, ← hnil] at hcond
          omega
        have hev := Extends.evaluate hv (pureHandler condition fd) s.contents
        obtain ⟨s', hext, hcontents, hserve⟩ := serve_cases (S := S) fd (condition s.contents)
          s.contents hev.valid (hev.closed.trans hopened)
          (Nat.not_lt.mp hcond.2) (fun d s => s.processDataSendSignals S d)
        rw [hdrain, process_eq hS, if_neg hne, if_neg hcond.2, if_neg hcond.1]
        rcases hserve with ⟨hafter, hserve⟩ | ⟨hafter, e, hserve⟩
        · obtain ⟨hext', hends⟩ := ih s' hext.valid ((hev.trans hext).closed.trans hopened)
            hcontents hafter
          rw [hserve]
          exact ⟨(hev.trans hext).trans hext', hends⟩
        · have hdead : (segmenter S condition).drain (afterSegment S (condition s.contents)
              s.eventFds.writes) (s.contents.drop (absSize (condition s.contents))) =
              ⟨[], s.contents.drop (absSize (condition s.contents)), none⟩ := by
            have hnone : afterSegment S (condition s.contents) s.eventFds.writes = none := hafter
            rw [hnone, drain_dead]
          rw [hserve, hdead]
          exact ⟨hev.trans hext, .inr ⟨e, rfl, .inl rfl⟩⟩

end SingleHandler

end SocketWrapper
