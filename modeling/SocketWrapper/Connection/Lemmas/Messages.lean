import SocketWrapper.Connection.Lemmas.Ends
import SocketWrapper.Lib.Delimited

/-!
# Messages on the wire

Each call writes a line. If no call is disturbed and none fails partway, the wire is the lines whose calls
have returned, in the order in which they have, and the beginning of one more.
-/

namespace SocketWrapper

open Transition

namespace Writers

variable {m m' : Writers} {d : Byte} {N thread threads : Nat} {w : Writing}
  {allowed : Writers → Action → Prop}

/-- Every message is a line of at most `N` bytes, the kernel takes the bytes of a call while no other is
partway, and once it has taken some of them it takes the rest before the attempts are over. -/
def Orderly (d : Byte) (N : Nat) (m : Writers) : Action → Prop
  | .call _ buffer _ => Delimited.Line d buffer ∧ buffer.length ≤ N
  | .attempt thread (.accepts count) =>
      m.Undisturbed (.attempt thread (.accepts count)) ∧ ∀ w, m.At thread w → w.call.attempts = 1 →
        w.call.totalWrittenBytes + count = 0 ∨ w.call.totalWrittenBytes + count = w.call.buffer.length
  | .attempt thread (.fails _) => ∀ w, m.At thread w → w.call.totalWrittenBytes = 0
  | .giveUp _ _ => True

instance (d : Byte) (N : Nat) (m : Writers) (a : Action) : Decidable (m.Orderly d N a) :=
  match a with
  | .call _ buffer _ => inferInstanceAs (Decidable (Delimited.Line d buffer ∧ buffer.length ≤ N))
  | .attempt thread (.accepts count) =>
      decidable_of_iff (m.Undisturbed (.attempt thread (.accepts count)) ∧
        ∀ w ∈ (m.threads[thread]?).join, w.call.attempts = 1 →
          w.call.totalWrittenBytes + count = 0 ∨ w.call.totalWrittenBytes + count = w.call.buffer.length)
        (and_congr_right fun _ => forall_congr' fun _ => by simp [Option.mem_def, Option.join_eq_some_iff])
  | .attempt thread (.fails _) =>
      decidable_of_iff (∀ w ∈ (m.threads[thread]?).join, w.call.totalWrittenBytes = 0)
        (forall_congr' fun _ => by simp [Option.mem_def, Option.join_eq_some_iff])
  | .giveUp _ _ => inferInstanceAs (Decidable True)

/-- The messages whose calls have returned, in the order in which they have. -/
def accepted (m : Writers) : List (List Byte) :=
  (m.completions.filter fun c => c.outcome = .returned ()).map Written.buffer

/-- No call has a part of its bytes on the wire. -/
def Clear (m : Writers) : Prop := ∀ t w, m.At t w → w.call.totalWrittenBytes = 0

/-- The one call that has, and what that part is. -/
structure Amid (m : Writers) (thread : Nat) (w : Writing) (part : List Byte) : Prop where
  writing : m.At thread w
  partway : w.Partway
  unfinished : w.call.totalWrittenBytes < w.call.buffer.length
  part : part = w.call.buffer.take w.call.totalWrittenBytes
  others : ∀ t w', t ≠ thread → m.At t w' → w'.call.totalWrittenBytes = 0

/-- The wire has the accepted messages and `part`, the beginning of at most one more. -/
structure InTurn (d : Byte) (N : Nat) (m : Writers) (part : List Byte) : Prop where
  writing : ∀ t w, m.At t w → Delimited.Line d w.call.buffer ∧ w.call.buffer.length ≤ N
  accepted : ∀ s ∈ m.accepted, Delimited.Line d s ∧ s.length ≤ N
  wire : m.wire.map Prod.snd = m.accepted.flatten ++ part
  amid : (part = [] ∧ m.Clear) ∨ ∃ thread w, m.Amid thread w part

/-! ## The steps -/

variable {part : List Byte}

@[simp] theorem accepted_set (x : Option Writing) (wire : List (Nat × Byte)) (begun : Nat) :
    accepted { m with threads := m.threads.set thread x, wire := wire, begun := begun } = m.accepted := rfl

theorem accepted_returned (wire : List (Nat × Byte)) :
    ({ m with wire := wire }.complete thread w (.returned ())).accepted = m.accepted ++ [w.call.buffer] := by
  simp [accepted, complete]

theorem accepted_threw (wire : List (Nat × Byte)) (e : Exception) :
    ({ m with wire := wire }.complete thread w (.threw e)).accepted = m.accepted := by
  simp [accepted, complete]

theorem length_pos_of_line {x : List Byte} (h : Delimited.Line d x) : 0 < x.length := by
  obtain ⟨p, -, rfl⟩ := h
  simp

/-- A call without bytes on the wire is not the one that is amid its own. -/
theorem Amid.ne {t : Nat} {w' : Writing} (h : m.Amid t w' part) (hw : m.At thread w)
    (hzero : w.call.totalWrittenBytes = 0) : t ≠ thread := by
  rintro rfl
  obtain rfl : w = w' := by simpa using hw.symm.trans h.writing
  exact absurd hzero (Nat.ne_of_gt h.partway.1)

/-- The thread leaves its call while the others stay where they are. -/
theorem clear_complete (wire : List (Nat × Byte)) {o : Outcome Unit}
    (h : ∀ t w', t ≠ thread → m.At t w' → w'.call.totalWrittenBytes = 0) :
    ({ m with wire := wire }.complete thread w o).Clear := fun t w' hw' =>
  have hold := at_of_complete hw'
  h t w' hold.1 hold.2

theorem Amid.complete {t : Nat} {w' : Writing} (h : m.Amid t w' part) (hne : t ≠ thread) (wire : List (Nat × Byte))
    (o : Outcome Unit) : ({ m with wire := wire }.complete thread w o).Amid t w' part where
  writing := by simpa [At, Writers.complete, Ne.symm hne] using h.writing
  partway := h.partway
  unfinished := h.unfinished
  part := h.part
  others t' w'' ht' hw'' := h.others t' w'' ht' (at_of_complete hw'').2

/-- A call that is given bytes while another is amid its own would disturb it. -/
theorem Amid.eq_of_undisturbed {t count : Nat} {w' : Writing} (h : m.Amid t w' part)
    (hundisturbed : m.Undisturbed (.attempt thread (.accepts count))) (hpos : 0 < count) : t = thread := by
  by_contra hne
  exact hundisturbed hpos t w' hne h.writing h.partway

theorem InTurn.calls {buffer : List Byte} {attempts : Nat} (h : InTurn d N m part)
    (hthread : m.threads[thread]? = some none) (hline : Delimited.Line d buffer) (hle : buffer.length ≤ N) :
    InTurn d N { m with
      threads := m.threads.set thread (some ⟨m.begun, .start buffer attempts⟩)
      begun := m.begun + 1 } part where
  writing t w hw := by
    rcases Calls.of_set hw with ⟨-, heq⟩ | ⟨-, hold⟩
    · cases heq
      exact ⟨hline, hle⟩
    · exact h.writing t w hold
  accepted := h.accepted
  wire := h.wire
  amid := by
    rcases h.amid with ⟨hnil, hclear⟩ | ⟨t₀, w₀, hamid⟩
    · refine .inl ⟨hnil, fun t w hw => ?_⟩
      rcases Calls.of_set hw with ⟨-, heq⟩ | ⟨-, hold⟩
      · cases heq
        rfl
      · exact hclear t w hold
    · have hne : t₀ ≠ thread := by
        rintro rfl
        simp [hamid.writing] at hthread
      refine .inr ⟨t₀, w₀, ⟨?_, hamid.partway, hamid.unfinished, hamid.part, ?_⟩⟩
      · simpa [At, List.getElem?_set_ne (Ne.symm hne)] using hamid.writing
      · intro t w ht hw
        rcases Calls.of_set hw with ⟨-, heq⟩ | ⟨-, hold⟩
        · cases heq
          rfl
        · exact hamid.others t w ht hold

/-- A call without bytes on the wire throws. -/
theorem InTurn.throws (h : InTurn d N m part) (hw : m.At thread w)
    (hzero : w.call.totalWrittenBytes = 0) (e : Exception) :
    InTurn d N (m.complete thread w (.threw e)) part where
  writing t w' hw' := by
    have hsame : ({ m with wire := m.wire }.complete thread w (.threw e)).At t w' := hw'
    exact h.writing t w' (at_of_complete hsame).2
  accepted := by
    rw [show (m.complete thread w (.threw e)).accepted = m.accepted from accepted_threw m.wire e]
    exact h.accepted
  wire := by
    rw [show (m.complete thread w (.threw e)).accepted = m.accepted from accepted_threw m.wire e]
    exact h.wire
  amid := by
    rcases h.amid with ⟨hnil, hclear⟩ | ⟨t₀, w₀, hamid⟩
    · exact .inl ⟨hnil, clear_complete m.wire fun t w' _ hw' => hclear t w' hw'⟩
    · exact .inr ⟨t₀, w₀, hamid.complete (hamid.ne hw hzero) m.wire _⟩

/-- What a call has on the wire is all that is there behind the accepted messages. -/
theorem InTurn.part_eq {count : Nat} (h : InTurn d N m part) (hw : m.At thread w)
    (hundisturbed : m.Undisturbed (.attempt thread (.accepts count)))
    (hpos : 0 < w.call.totalWrittenBytes + count) :
    part = w.call.buffer.take w.call.totalWrittenBytes ∧
      ∀ t w', t ≠ thread → m.At t w' → w'.call.totalWrittenBytes = 0 := by
  rcases h.amid with ⟨rfl, hclear⟩ | ⟨t₀, w₀, hamid⟩
  · exact ⟨by rw [hclear thread w hw, List.take_zero], fun t w' _ hw' => hclear t w' hw'⟩
  · have heq : t₀ = thread := by
      by_contra hne
      have hcount : 0 < count := by
        have hzero := hamid.others thread w (Ne.symm hne) hw
        omega
      exact hne (hamid.eq_of_undisturbed hundisturbed hcount)
    subst heq
    obtain rfl : w = w₀ := by simpa using hw.symm.trans hamid.writing
    exact ⟨hamid.part, hamid.others⟩

theorem take_append_taken (w : Writing) (count : Nat) :
    w.call.buffer.take w.call.totalWrittenBytes ++ taken w count =
      w.call.buffer.take (w.call.totalWrittenBytes + count) := by
  rw [List.take_add]
  rfl

theorem InTurn.returns {count : Nat} (h : InTurn d N m part) (hw : m.At thread w)
    (hundisturbed : m.Undisturbed (.attempt thread (.accepts count)))
    (hall : w.call.totalWrittenBytes + count = w.call.buffer.length) :
    InTurn d N ({ m with wire := m.wire ++ Interleaved.tag w.number (taken w count) }.complete thread w
      (.returned ())) [] := by
  obtain ⟨hline, hle⟩ := h.writing thread w hw
  obtain ⟨hpart, hothers⟩ := h.part_eq hw hundisturbed (hall ▸ length_pos_of_line hline)
  refine ⟨fun t w' hw' => h.writing t w' (at_of_complete hw').2, ?_, ?_, .inl ⟨rfl, clear_complete _ hothers⟩⟩
  · intro s hs
    rw [accepted_returned] at hs
    rcases List.mem_append.mp hs with hs | hs
    · exact h.accepted s hs
    · obtain rfl := List.mem_singleton.mp hs
      exact ⟨hline, hle⟩
  · rw [accepted_returned, List.flatten_append, List.flatten_singleton, List.append_nil]
    calc (m.wire ++ Interleaved.tag w.number (taken w count)).map Prod.snd
        = m.accepted.flatten ++ (part ++ taken w count) := by
          rw [List.map_append, h.wire, Interleaved.map_snd_tag, List.append_assoc]
      _ = m.accepted.flatten ++ w.call.buffer := by
          rw [hpart, take_append_taken, hall, List.take_length]

theorem InTurn.continues {count : Nat} (h : InTurn d N m part) (hn : Numbered m) (hw : m.At thread w)
    (hattempts : 0 < w.call.attempts) (hle : count ≤ w.call.offered.length)
    (hmore : w.call.totalWrittenBytes + count ≠ w.call.buffer.length)
    (hundisturbed : m.Undisturbed (.attempt thread (.accepts count)))
    (hlast : w.call.attempts = 1 → w.call.totalWrittenBytes + count = 0) :
    ∃ part', InTurn d N { m with
      wire := m.wire ++ Interleaved.tag w.number (taken w count)
      threads := m.threads.set thread (some ⟨w.number, ⟨w.call.buffer, w.call.attempts - 1,
        w.call.totalWrittenBytes + count⟩⟩) } part' := by
  have hmessages := h.writing thread w hw
  have hwriting : ∀ t w', At { m with
      wire := m.wire ++ Interleaved.tag w.number (taken w count)
      threads := m.threads.set thread (some ⟨w.number, ⟨w.call.buffer, w.call.attempts - 1,
        w.call.totalWrittenBytes + count⟩⟩) } t w' →
      Delimited.Line d w'.call.buffer ∧ w'.call.buffer.length ≤ N := by
    intro t w' hw'
    rcases Calls.of_set hw' with ⟨-, heq⟩ | ⟨-, hold⟩
    · cases heq
      exact hmessages
    · exact h.writing t w' hold
  by_cases hzero : w.call.totalWrittenBytes + count = 0
  · -- nothing has been taken from this call
    obtain ⟨htotal, rfl⟩ := Nat.add_eq_zero_iff.mp hzero
    refine ⟨part, hwriting, h.accepted, ?_, ?_⟩
    · simpa [taken] using h.wire
    · rcases h.amid with ⟨hnil, hclear⟩ | ⟨t₀, w₀, hamid⟩
      · refine .inl ⟨hnil, fun t w' hw' => ?_⟩
        rcases Calls.of_set hw' with ⟨-, heq⟩ | ⟨-, hold⟩
        · cases heq
          exact hzero
        · exact hclear t w' hold
      · have hne := hamid.ne hw htotal
        refine .inr ⟨t₀, w₀, ⟨?_, hamid.partway, hamid.unfinished, hamid.part, ?_⟩⟩
        · simpa [At, List.getElem?_set_ne (Ne.symm hne)] using hamid.writing
        · intro t w' ht hw'
          rcases Calls.of_set hw' with ⟨-, heq⟩ | ⟨-, hold⟩
          · cases heq
            exact hzero
          · exact hamid.others t w' ht hold
  · obtain ⟨hpart, hothers⟩ := h.part_eq hw hundisturbed (Nat.pos_of_ne_zero hzero)
    have htotal : w.call.totalWrittenBytes ≤ w.call.buffer.length := by
      rcases Nat.eq_zero_or_pos w.call.totalWrittenBytes with hnone | hsome
      · omega
      · exact (hn.sent thread w hw hsome).1.le
    have hoffered : w.call.offered.length = w.call.buffer.length - w.call.totalWrittenBytes :=
      List.length_drop
    have hlt : thread < m.threads.length := (List.getElem?_eq_some_iff.mp hw).1
    have hattempts' : 0 < w.call.attempts - 1 := by
      have hne : w.call.attempts ≠ 1 := fun hone => hzero (hlast hone)
      omega
    refine ⟨_, hwriting, h.accepted, ?_, .inr ⟨thread, ⟨w.number, ⟨w.call.buffer, w.call.attempts - 1,
      w.call.totalWrittenBytes + count⟩⟩, ⟨?_, ⟨Nat.pos_of_ne_zero hzero, hattempts'⟩, ?_, rfl, ?_⟩⟩⟩
    · calc (m.wire ++ Interleaved.tag w.number (taken w count)).map Prod.snd
          = m.accepted.flatten ++ (part ++ taken w count) := by
            rw [List.map_append, h.wire, Interleaved.map_snd_tag, List.append_assoc]
        _ = m.accepted.flatten ++ w.call.buffer.take (w.call.totalWrittenBytes + count) := by
            rw [hpart, take_append_taken]
    · simp [At, hlt]
    · show w.call.totalWrittenBytes + count < w.call.buffer.length
      omega
    · intro t w' ht hw'
      rcases Calls.of_set hw' with ⟨heq, -⟩ | ⟨-, hold⟩
      · exact absurd heq ht
      · exact hothers t w' ht hold

theorem InTurn.move {a : Action} (h : InTurn d N m part) (hn : Numbered m) (ha : m.Orderly d N a)
    (hmove : Move m a m') : ∃ part', InTurn d N m' part' := by
  cases hmove with
  | calls hthread => exact ⟨part, h.calls hthread ha.1 ha.2⟩
  | fails hw hattempts => exact ⟨part, h.throws hw (ha _ hw) _⟩
  | returns hw hattempts hall => exact ⟨[], h.returns hw ha.1 hall⟩
  | continues hw hattempts hle hmore =>
      refine h.continues hn hw hattempts hle hmore ha.1 fun hone => ?_
      rcases ha.2 _ hw hone with hnone | hall
      · exact hnone
      · exact absurd hall hmore
  | @givesUp thread errno w hw hzero =>
      have hnone : w.call.totalWrittenBytes = 0 := by
        rcases h.amid with ⟨-, hclear⟩ | ⟨t₀, w₀, hamid⟩
        · exact hclear thread w hw
        · by_cases heq : thread = t₀
          · subst heq
            obtain rfl : w = w₀ := by simpa using hw.symm.trans hamid.writing
            exact absurd hamid.partway.2 (by rw [hzero]; exact Nat.lt_irrefl 0)
          · exact hamid.others thread w heq hw
      have hsome := length_pos_of_line (h.writing thread w hw).1
      have hne : w.call.totalWrittenBytes ≠ w.call.buffer.length := by omega
      rw [WriteCall.giveUp, if_pos hne]
      exact ⟨part, h.throws hw hnone _⟩

theorem InTurn.start (threads : Nat) : InTurn d N (Writers.start threads) [] where
  writing _ _ hw := absurd hw not_at_start
  accepted s hs := absurd hs (List.not_mem_nil (a := s))
  wire := rfl
  amid := .inl ⟨rfl, fun _ _ hw => absurd hw not_at_start⟩

theorem InTurn.of_reach (h : Reach step (Orderly d N) (Writers.start threads) m) :
    ∃ part, InTurn d N m part :=
  h.invariant_of (P := fun m => ∃ part, InTurn d N m part) ⟨[], .start threads⟩
    (fun _ hr => Numbered.of_reach hr) fun _ _ _ hn ⟨_, hturn⟩ ha hstep => hturn.move hn ha (move_of_step hstep)

/-- What is behind the accepted messages is shorter than a message, and no line. -/
theorem InTurn.part_clean (h : InTurn d N m part) : d ∉ part ∧ (part = [] ∨ part.length < N) := by
  rcases h.amid with ⟨rfl, -⟩ | ⟨t₀, w₀, hamid⟩
  · exact ⟨List.not_mem_nil, .inl rfl⟩
  · obtain ⟨⟨p, hp, hline⟩, hle⟩ := h.writing t₀ w₀ hamid.writing
    have hshort : w₀.call.totalWrittenBytes ≤ p.length := by
      have hlt := hamid.unfinished
      rw [hline, List.length_append, List.length_singleton] at hlt
      omega
    rw [hamid.part]
    constructor
    · rw [hline, List.take_append_of_le_length hshort]
      exact fun hd => hp (List.mem_of_mem_take hd)
    · refine .inr (Nat.lt_of_lt_of_le ?_ hle)
      rw [List.length_take]
      exact Nat.lt_of_le_of_lt (Nat.min_le_left _ _) hamid.unfinished

/-- The lines on the wire are the accepted messages. -/
theorem InTurn.splitAfter (h : InTurn d N m part) :
    Delimited.splitAfter d (m.wire.map Prod.snd) = (m.accepted, part) := by
  rw [h.wire, Delimited.splitAfter_flatten (fun s hs => (h.accepted s hs).1),
    Delimited.splitAfter_of_notMem h.part_clean.1, List.append_nil]

end Writers

end SocketWrapper
