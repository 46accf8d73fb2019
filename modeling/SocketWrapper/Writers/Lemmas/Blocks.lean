import SocketWrapper.Lib.Calls
import SocketWrapper.Writers.Machine

/-!
# What the calls have put on the wire

A call has its bytes at the end of the wire as long as no other call's bytes come in between. That can
only happen where it is partway.
-/

namespace SocketWrapper

open Interleaved Transition

variable {m m' : Writers} {thread : Nat} {w : Writing} {n : Nat} {allowed : Writers → Writers.Action → Prop}

/-! ## The steps -/

namespace Writers

/-- The bytes that the kernel takes in an attempt. -/
abbrev taken (w : Writing) (count : Nat) : List Byte := w.call.offered.take count

theorem length_taken {count : Nat} (hle : count ≤ w.call.offered.length) :
    (taken w count).length = count := by
  rw [taken, List.length_take, Nat.min_eq_left hle]

inductive Move (m : Writers) : Action → Writers → Prop
  | calls {thread : Nat} {buffer : List Byte} {attempts : Nat} :
      m.threads[thread]? = some none →
      Move m (.call thread buffer attempts) { m with
        threads := m.threads.set thread (some ⟨m.begun, .start buffer attempts⟩)
        begun := m.begun + 1 }
  | fails {thread : Nat} {w : Writing} {errno : Nat} :
      m.At thread w → 0 < w.call.attempts →
      Move m (.attempt thread (.fails errno))
        (m.complete thread w (.socketError .SOCKET_WRITE errno))
  | returns {thread count : Nat} {w : Writing} :
      m.At thread w → 0 < w.call.attempts →
      w.call.totalWrittenBytes + count = w.call.buffer.length →
      Move m (.attempt thread (.accepts count))
        ({ m with wire := m.wire ++ tag w.number (taken w count) }.complete thread w (.returned ()))
  | continues {thread count : Nat} {w : Writing} :
      m.At thread w → 0 < w.call.attempts → count ≤ w.call.offered.length →
      w.call.totalWrittenBytes + count ≠ w.call.buffer.length →
      Move m (.attempt thread (.accepts count)) { m with
        wire := m.wire ++ tag w.number (taken w count)
        threads := m.threads.set thread (some ⟨w.number, ⟨w.call.buffer, w.call.attempts - 1,
          w.call.totalWrittenBytes + count⟩⟩) }
  | givesUp {thread errno : Nat} {w : Writing} :
      m.At thread w → w.call.attempts = 0 →
      Move m (.giveUp thread errno) (m.complete thread w (w.call.giveUp errno))

theorem move_of_step {a : Action} (h : m.step a = some m') : Move m a m' := by
  cases a with
  | call thread buffer attempts =>
      simp only [step] at h
      split at h
      · rename_i hthread
        cases h
        exact .calls hthread
      · cases h
  | attempt thread answer =>
      simp only [step] at h
      split at h
      · rename_i w hthread
        split at h
        · rename_i hpossible
          cases answer with
          | fails errno =>
              cases h
              simpa [WriteCall.attempt] using Move.fails hthread hpossible.1
          | accepts count =>
              by_cases hall : w.call.totalWrittenBytes + count = w.call.buffer.length
              · simp only [WriteCall.attempt, hall, ↓reduceIte] at h
                cases h
                exact .returns hthread hpossible.1 hall
              · simp only [WriteCall.attempt, hall, ↓reduceIte] at h
                cases h
                exact .continues hthread hpossible.1 hpossible.2 hall
        · cases h
      · cases h
  | giveUp thread errno =>
      simp only [step] at h
      split at h
      · rename_i hthread
        split at h
        · rename_i hzero
          cases h
          exact .givesUp hthread hzero
        · cases h
      · cases h

/-! ## Numbers -/

theorem at_of_complete {t : Nat} {w' : Writing} {o : Outcome Unit} {wire : List (Nat × Byte)}
    (h : ({ m with wire := wire }.complete thread w o).At t w') : t ≠ thread ∧ m.At t w' :=
  (Calls.of_set h).resolve_left fun heq => by cases heq.2

/-- Every call has a number of its own, and its bytes are on the wire under it. -/
structure Numbered (m : Writers) : Prop where
  begun : ∀ t w, m.At t w → w.number < m.begun
  completed : ∀ c ∈ m.completions, c.number < m.begun
  wire : ∀ p ∈ m.wire, p.1 < m.begun
  distinct : ∀ t t' w w', m.At t w → m.At t' w' → t ≠ t' → w.number ≠ w'.number
  gone : ∀ t w, m.At t w → ∀ c ∈ m.completions, c.number ≠ w.number
  unsent : ∀ t w, m.At t w → w.call.totalWrittenBytes = 0 → Without m.wire w.number
  sent : ∀ t w, m.At t w → 0 < w.call.totalWrittenBytes →
    w.call.totalWrittenBytes < w.call.buffer.length ∧ ∃ x, (w.number, x) ∈ m.wire

theorem not_at_start {threads t : Nat} : ¬ (start threads).At t w := by
  intro h
  have hmem := List.mem_of_getElem? h
  rw [start, List.mem_replicate] at hmem
  cases hmem.2

theorem numbered_start (threads : Nat) : Numbered (start threads) where
  begun _ _ h := absurd h not_at_start
  completed := nofun
  wire := nofun
  distinct _ _ _ _ h := absurd h not_at_start
  gone _ _ h := absurd h not_at_start
  unsent _ _ h := absurd h not_at_start
  sent _ _ h := absurd h not_at_start

theorem Numbered.wire_append (h : Numbered m) (hw : m.At thread w) (xs : List Byte) :
    ∀ p ∈ m.wire ++ tag w.number xs, p.1 < m.begun := by
  intro p hp
  rcases List.mem_append.mp hp with hold | hnew
  · exact h.wire p hold
  · rw [fst_of_mem_tag hnew]
    exact h.begun thread w hw

theorem Numbered.unsent_append (h : Numbered m) (hw : m.At thread w) (xs : List Byte) {t : Nat}
    {w' : Writing} (hne : t ≠ thread) (hw' : m.At t w') (hzero : w'.call.totalWrittenBytes = 0) :
    Without (m.wire ++ tag w.number xs) w'.number :=
  (h.unsent t w' hw' hzero).append (without_tag (h.distinct thread t w w' hw hw' (Ne.symm hne)))

theorem Numbered.sent_append (h : Numbered m) (xs : List Byte) (n : Nat) {t : Nat} {w' : Writing}
    (hw' : m.At t w') (hpos : 0 < w'.call.totalWrittenBytes) :
    w'.call.totalWrittenBytes < w'.call.buffer.length ∧ ∃ x, (w'.number, x) ∈ m.wire ++ tag n xs :=
  have hsent := h.sent t w' hw' hpos
  ⟨hsent.1, hsent.2.imp fun _ hx => List.mem_append_left _ hx⟩

theorem Numbered.complete (h : Numbered m) (hw : m.At thread w) (xs : List Byte) (o : Outcome Unit) :
    Numbered ({ m with wire := m.wire ++ tag w.number xs }.complete thread w o) where
  begun := fun t w' hw' => h.begun t w' (at_of_complete hw').2
  completed := fun c hc => by
    rcases List.mem_append.mp hc with hold | hnew
    · exact h.completed c hold
    · obtain rfl := List.mem_singleton.mp hnew
      exact h.begun thread w hw
  wire := h.wire_append hw xs
  distinct := fun t t' w' w'' hw' hw'' => h.distinct t t' w' w'' (at_of_complete hw').2
    (at_of_complete hw'').2
  gone := fun t w' hw' c hc => by
    obtain ⟨hne, hold'⟩ := at_of_complete hw'
    rcases List.mem_append.mp hc with hold | hnew
    · exact h.gone t w' hold' c hold
    · obtain rfl := List.mem_singleton.mp hnew
      exact h.distinct thread t w w' hw hold' (Ne.symm hne)
  unsent := fun t w' hw' hzero =>
    have hold := at_of_complete hw'
    h.unsent_append hw xs hold.1 hold.2 hzero
  sent := fun t w' hw' hpos => h.sent_append xs w.number (at_of_complete hw').2 hpos

theorem complete_eq (m : Writers) (thread : Nat) (w : Writing) (o : Outcome Unit) :
    m.complete thread w o = { m with wire := m.wire ++ tag w.number [] }.complete thread w o := by
  simp [Writers.complete]

/-- The numbers stay distinct if a thread goes on with one that no other has. -/
theorem Numbered.distinct_set (h : Numbered m) {x : Writing}
    (hx : ∀ t w, t ≠ thread → m.At t w → w.number ≠ x.number) (t t' : Nat) (w w' : Writing)
    (hw : (m.threads.set thread (some x))[t]? = some (some w))
    (hw' : (m.threads.set thread (some x))[t']? = some (some w')) (hne : t ≠ t') :
    w.number ≠ w'.number := by
  rcases Calls.of_set hw with ⟨rfl, heq⟩ | ⟨hother, hold⟩
  · cases heq
    have hold' := (Calls.of_set hw').resolve_left fun heq => hne heq.1.symm
    exact (hx t' w' hold'.1 hold'.2).symm
  · rcases Calls.of_set hw' with ⟨rfl, heq⟩ | ⟨-, hold'⟩
    · cases heq
      exact hx t w hother hold
    · exact h.distinct t t' w w' hold hold' hne

theorem Numbered.calls (h : Numbered m) (buffer : List Byte) (attempts : Nat) :
    Numbered { m with
      threads := m.threads.set thread (some ⟨m.begun, .start buffer attempts⟩)
      begun := m.begun + 1 } where
  begun := fun t w hw => by
    rcases Calls.of_set hw with ⟨-, heq⟩ | ⟨-, hold⟩
    · cases heq
      exact Nat.lt_succ_self _
    · exact Nat.lt_succ_of_lt (h.begun t w hold)
  completed := fun c hc => Nat.lt_succ_of_lt (h.completed c hc)
  wire := fun p hp => Nat.lt_succ_of_lt (h.wire p hp)
  distinct := h.distinct_set fun t w _ hw => Nat.ne_of_lt (h.begun t w hw)
  gone := fun t w hw c hc => by
    rcases Calls.of_set hw with ⟨-, heq⟩ | ⟨-, hold⟩
    · cases heq
      exact Nat.ne_of_lt (h.completed c hc)
    · exact h.gone t w hold c hc
  unsent := fun t w hw hzero => by
    rcases Calls.of_set hw with ⟨-, heq⟩ | ⟨-, hold⟩
    · cases heq
      exact fun p hp => Nat.ne_of_lt (h.wire p hp)
    · exact h.unsent t w hold hzero
  sent := fun t w hw hpos => by
    rcases Calls.of_set hw with ⟨-, heq⟩ | ⟨-, hold⟩
    · cases heq
      cases hpos
    · exact h.sent t w hold hpos

theorem Numbered.continues (h : Numbered m) {count : Nat} (hw : m.At thread w)
    (hle : count ≤ w.call.offered.length)
    (hne : w.call.totalWrittenBytes + count ≠ w.call.buffer.length) :
    Numbered { m with
      wire := m.wire ++ tag w.number (taken w count)
      threads := m.threads.set thread (some ⟨w.number, ⟨w.call.buffer, w.call.attempts - 1,
        w.call.totalWrittenBytes + count⟩⟩) } where
  begun := fun t w' hw' => by
    rcases Calls.of_set hw' with ⟨-, heq⟩ | ⟨-, hold⟩
    · cases heq
      exact h.begun thread w hw
    · exact h.begun t w' hold
  completed := h.completed
  wire := h.wire_append hw _
  distinct := h.distinct_set fun t w' hdiff hw' => h.distinct t thread w' w hw' hw hdiff
  gone := fun t w' hw' c hc => by
    rcases Calls.of_set hw' with ⟨-, heq⟩ | ⟨-, hold⟩
    · cases heq
      exact h.gone thread w hw c hc
    · exact h.gone t w' hold c hc
  unsent := fun t w' hw' hzero => by
    rcases Calls.of_set hw' with ⟨-, heq⟩ | ⟨hdiff, hold⟩
    · cases heq
      obtain ⟨hnone, rfl⟩ := Nat.add_eq_zero_iff.mp hzero
      rw [taken, List.take_zero, tag_nil, List.append_nil]
      exact h.unsent thread w hw hnone
    · exact h.unsent_append hw _ hdiff hold hzero
  sent := fun t w' hw' hpos => by
    rcases Calls.of_set hw' with ⟨-, heq⟩ | ⟨-, hold⟩
    · cases heq
      have hlen : w.call.offered.length = w.call.buffer.length - w.call.totalWrittenBytes :=
        List.length_drop
      rcases Nat.eq_zero_or_pos w.call.totalWrittenBytes with hnone | hsome
      · have hcount : 0 < count := by simpa [hnone] using hpos
        refine ⟨by simp only; omega, ?_⟩
        cases htaken : taken w count with
        | nil =>
            have hlength := length_taken hle
            rw [htaken, List.length_nil] at hlength
            omega
        | cons x xs => exact ⟨x, List.mem_append_right _ (List.mem_cons_self ..)⟩
      · obtain ⟨hlt, hx⟩ := h.sent_append (taken w count) w.number hw hsome
        exact ⟨by simp only; omega, hx⟩
    · exact h.sent_append _ _ hold hpos

theorem Numbered.of_reach {threads : Nat} (h : Reach step allowed (start threads) m) : Numbered m := by
  refine h.invariant (numbered_start threads) fun m a m' hm _ hstep => ?_
  cases move_of_step hstep with
  | calls => exact hm.calls _ _
  | fails hw => exact complete_eq _ _ _ _ ▸ hm.complete hw [] _
  | returns hw => exact hm.complete hw _ _
  | continues hw _ hle hne => exact hm.continues hw hle hne
  | givesUp hw => exact complete_eq _ _ _ _ ▸ hm.complete hw [] _

/-! ## Blocks -/

/-- Every call that has returned has its bytes in one piece, and every call that is partway has them at
the end of the wire. -/
structure Whole (m : Writers) : Prop where
  atomic : m.Atomic
  ends : ∀ t w, m.At t w → w.Partway →
    Ends m.wire w.number (w.call.buffer.take w.call.totalWrittenBytes)

theorem Whole.ends_of_attempts (h : Whole m) (hn : Numbered m) (hw : m.At thread w)
    (hattempts : 0 < w.call.attempts) :
    Ends m.wire w.number (w.call.buffer.take w.call.totalWrittenBytes) := by
  rcases Nat.eq_zero_or_pos w.call.totalWrittenBytes with hzero | hpos
  · rw [hzero, List.take_zero]
    exact (hn.unsent thread w hw hzero).ends
  · exact h.ends thread w hw ⟨hpos, hattempts⟩

/-- With the bytes taken in an attempt, the call has that much more at the end of the wire. -/
theorem Whole.ends_taken (h : Whole m) (hn : Numbered m) (hw : m.At thread w)
    (hattempts : 0 < w.call.attempts) (count : Nat) :
    Ends (m.wire ++ tag w.number (taken w count)) w.number
      (w.call.buffer.take (w.call.totalWrittenBytes + count)) := by
  rw [List.take_add]
  exact (h.ends_of_attempts hn hw hattempts).extend _

theorem Whole.atomic_taken (h : Whole m) (hn : Numbered m) (hw : m.At thread w) (xs : List Byte) :
    ∀ c ∈ m.completions, c.outcome = .returned () →
      Block (m.wire ++ tag w.number xs) c.number c.buffer := fun c hc hreturned =>
  (h.atomic c hc hreturned).append (without_tag (Ne.symm (hn.gone thread w hw c hc)))

/-- An undisturbed attempt of one thread leaves the others' bytes at the end of the wire. -/
theorem Whole.ends_other (h : Whole m) {count : Nat}
    (hundisturbed : m.Undisturbed (.attempt thread (.accepts count))) {t : Nat} {w' : Writing}
    (hne : t ≠ thread) (hw' : m.At t w') (hpartway : w'.Partway) :
    Ends (m.wire ++ tag w.number (taken w count)) w'.number
      (w'.call.buffer.take w'.call.totalWrittenBytes) := by
  rcases Nat.eq_zero_or_pos count with rfl | hpos
  · rw [taken, List.take_zero, tag_nil, List.append_nil]
    exact h.ends t w' hw' hpartway
  · exact absurd hpartway (hundisturbed hpos t w' hne hw')

theorem atomic_complete {c : Written} (h : ∀ c ∈ m.completions, c.outcome = .returned () →
      Block m.wire c.number c.buffer) (hc : c.outcome = .returned () → Block m.wire c.number c.buffer) :
    ∀ d ∈ m.completions ++ [c], d.outcome = .returned () → Block m.wire d.number d.buffer := by
  intro d hd
  rcases List.mem_append.mp hd with hold | hnew
  · exact h d hold
  · obtain rfl := List.mem_singleton.mp hnew
    exact hc

theorem Whole.move {a : Action} (h : Whole m) (hn : Numbered m) (ha : m.Undisturbed a)
    (hmove : Move m a m') : Whole m' := by
  cases hmove with
  | calls =>
      refine ⟨h.atomic, fun t w hw hpartway => ?_⟩
      rcases Calls.of_set hw with ⟨-, heq⟩ | ⟨-, hold⟩
      · cases heq
        exact absurd hpartway.1 (Nat.lt_irrefl 0)
      · exact h.ends t w hold hpartway
  | fails hw _ =>
      refine ⟨atomic_complete h.atomic nofun, fun t w' hw' hpartway => ?_⟩
      exact h.ends t w' (at_of_complete hw').2 hpartway
  | @returns thread count w hw hattempts hall =>
      have hends := h.ends_taken hn hw hattempts count
      rw [hall, List.take_length] at hends
      refine ⟨atomic_complete (h.atomic_taken hn hw _) fun _ => hends.block, ?_⟩
      intro t w' hw' hpartway
      obtain ⟨hne, hold⟩ := at_of_complete hw'
      exact h.ends_other ha hne hold hpartway
  | @continues thread count w hw hattempts hle hne =>
      refine ⟨h.atomic_taken hn hw _, fun t w' hw' hpartway => ?_⟩
      rcases Calls.of_set hw' with ⟨-, heq⟩ | ⟨hother, hold⟩
      · cases heq
        exact h.ends_taken hn hw hattempts count
      · exact h.ends_other ha hother hold hpartway
  | @givesUp thread errno w hw hzero =>
      have hempty : w.call.giveUp errno = .returned () → Block m.wire w.number w.call.buffer := by
        intro hreturned
        have hall : w.call.totalWrittenBytes = w.call.buffer.length := by
          by_contra hne
          simp [WriteCall.giveUp, hne] at hreturned
        -- only a call without bytes can have written all of them and still be in its loop
        rcases Nat.eq_zero_or_pos w.call.totalWrittenBytes with hnone | hpos
        · rw [hnone] at hall
          rw [List.eq_nil_of_length_eq_zero hall.symm]
          exact (hn.unsent thread w hw hnone).ends.block
        · exact absurd hall (Nat.ne_of_lt (hn.sent thread w hw hpos).1)
      refine ⟨atomic_complete h.atomic hempty, fun t w' hw' hpartway => ?_⟩
      exact h.ends t w' (at_of_complete hw').2 hpartway

theorem Whole.of_reach {threads : Nat}
    (h : Reach step (fun m a => m.Undisturbed a) (start threads) m) : Whole m := by
  have hstart : Whole (start threads) := ⟨nofun, fun _ _ hw => absurd hw not_at_start⟩
  exact h.invariant_of hstart (fun _ hr => Numbered.of_reach hr) fun _ _ _ hn hm ha hstep =>
    hm.move hn ha (move_of_step hstep)

/-! ## Disturbance -/

/-- A disturbing step puts bytes behind those of a call that is partway. -/
theorem disturbs_of_not_undisturbed {a : Action} (ha : ¬ m.Undisturbed a) (hmove : Move m a m') :
    ∃ thread w other w' x l, m.At thread w ∧ m.At other w' ∧ other ≠ thread ∧ w'.Partway ∧
      m'.At other w' ∧ m'.wire = m.wire ++ (w.number, x) :: l := by
  have hkept : ∀ {thread other : Nat} {w' : Writing} {x : Option Writing}, other ≠ thread →
      m.At other w' → (m.threads.set thread x)[other]? = some (some w') := by
    intro thread other w' x hne hw'
    rw [List.getElem?_set_ne (Ne.symm hne)]
    exact hw'
  cases hmove with
  | calls => exact absurd trivial ha
  | fails => exact absurd trivial ha
  | givesUp => exact absurd trivial ha
  | @returns thread count w hw _ hall =>
      simp only [Undisturbed, not_forall, not_not] at ha
      obtain ⟨hpos, other, w', hne, hw', hpartway⟩ := ha
      have hlen : w.call.offered.length = w.call.buffer.length - w.call.totalWrittenBytes :=
        List.length_drop
      have htaken : (taken w count).length = count := length_taken (by omega)
      obtain ⟨x, l, hcons⟩ := tag_eq_cons (i := w.number) (htaken.symm ▸ hpos)
      exact ⟨thread, w, other, w', x, l, hw, hw', hne, hpartway, hkept hne hw',
        congrArg (m.wire ++ ·) hcons⟩
  | @continues thread count w hw _ hle _ =>
      simp only [Undisturbed, not_forall, not_not] at ha
      obtain ⟨hpos, other, w', hne, hw', hpartway⟩ := ha
      obtain ⟨x, l, hcons⟩ := tag_eq_cons (i := w.number) ((length_taken hle).symm ▸ hpos)
      exact ⟨thread, w, other, w', x, l, hw, hw', hne, hpartway, hkept hne hw',
        congrArg (m.wire ++ ·) hcons⟩

theorem step_rest (hw : m.At thread w) (hattempts : 0 < w.call.attempts)
    (hle : w.call.totalWrittenBytes ≤ w.call.buffer.length) :
    m.step (.attempt thread (.accepts w.call.offered.length)) =
      some ({ m with wire := m.wire ++ tag w.number w.call.offered }.complete thread w (.returned ())) := by
  have hlen : w.call.offered.length = w.call.buffer.length - w.call.totalWrittenBytes :=
    List.length_drop
  have hall : w.call.totalWrittenBytes + w.call.offered.length = w.call.buffer.length := by omega
  simp [step, show m.threads[thread]? = some (some w) from hw, hattempts, WriteCall.Allows,
    WriteCall.attempt, hall]

/-- Bytes taken from another call while one is partway: if the kernel takes the rest at once, the call
returns and its bytes are not in one piece. -/
theorem not_atomic_of_disturbed (hn : Numbered m) {a : Action} (ha : ¬ m.Undisturbed a)
    (hmove : Move m a m') : ∃ m'', Reach step (fun _ _ => True) m' m'' ∧ ¬ m''.Atomic := by
  obtain ⟨thread, w, other, w', y, c, hw, hw', hne, hpartway, hkept, hwire⟩ :=
    disturbs_of_not_undisturbed ha hmove
  obtain ⟨hlt, x, hx⟩ := hn.sent other w' hw' hpartway.1
  refine ⟨_, .single trivial (step_rest hkept hpartway.2 (Nat.le_of_lt hlt)), fun hatomic => ?_⟩
  obtain ⟨before, b, hsplit⟩ := List.append_of_mem hx
  have hrest : 0 < w'.call.offered.length := by
    rw [WriteCall.offered, List.length_drop]
    omega
  obtain ⟨z, d, hcons⟩ := tag_eq_cons (i := w'.number) hrest
  have hblock := hatomic ⟨w'.number, w'.call.buffer, .returned ()⟩
    (List.mem_append_right _ (List.mem_singleton.mpr rfl)) rfl
  have hbetween : m'.wire ++ tag w'.number w'.call.offered =
      before ++ (w'.number, x) :: b ++ (w.number, y) :: c ++ (w'.number, z) :: d := by
    rw [hwire, hsplit, hcons]
  exact not_block_of_between (hn.distinct thread other w w' hw hw' (Ne.symm hne)) hbetween hblock

end Writers

end SocketWrapper
