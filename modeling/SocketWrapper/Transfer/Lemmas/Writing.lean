import SocketWrapper.Transfer.Writing

/-!
# What a call of `Stream::write` hands to the kernel

The bytes are counted from `total`, what the earlier tries have handed over.
-/

namespace SocketWrapper

variable {buffer : List Byte} {errno total : Nat} {answers : List WriteAnswer} {attempts : Int}

namespace WriteResult

variable {t : WriteTry} {r : WriteResult}

@[simp] theorem outcome_after : (after t r).outcome = r.outcome := rfl

@[simp] theorem tries_after : (after t r).tries = t :: r.tries := rfl

@[simp] theorem taken_after : (after t r).taken = t.taken ++ r.taken := by
  simp [taken]

@[simp] theorem taken_nil {o : Outcome Unit} : (WriteResult.mk o []).taken = [] := rfl

end WriteResult

namespace Stream

/-! ## The loop -/

theorem writeLoop_zero : writeLoop buffer errno answers 0 total =
    if total ≠ buffer.length then ⟨.threw (.socket ⟨.SOCKET_WRITE_PARTIAL, errno, total⟩), []⟩
    else ⟨.returned (), []⟩ := by
  rw [writeLoop.eq_def]
  exact if_pos rfl

theorem writeLoop_nil (h : attempts ≠ 0) : writeLoop buffer errno [] attempts total = ⟨.waiting, []⟩ := by
  rw [writeLoop.eq_def]
  exact if_neg h

theorem writeLoop_fails {cError : Nat} (h : attempts ≠ 0) :
    writeLoop buffer errno (.fails cError :: answers) attempts total =
      ⟨.socketError .SOCKET_WRITE cError, [⟨buffer.drop total, []⟩]⟩ := by
  rw [writeLoop.eq_def]
  exact if_neg h

theorem writeLoop_accepts {count : Nat} (h : attempts ≠ 0) :
    writeLoop buffer errno (.accepts count :: answers) attempts total =
      .after ⟨buffer.drop total, (buffer.drop total).take count⟩
        (if total + ((buffer.drop total).take count).length = buffer.length then ⟨.returned (), []⟩
        else writeLoop buffer errno answers (attempts - 1)
          (total + ((buffer.drop total).take count).length)) := by
  rw [writeLoop.eq_def]
  exact if_neg h

/-- The loop goes from one attempt to the next, as threads that write at the same time do. -/
theorem writeLoop_attempt {w : WriteCall} {a : WriteAnswer} (hsome : 0 < w.attempts) (hallows : w.Allows a) :
    writeLoop w.buffer errno (a :: answers) w.attempts w.totalWrittenBytes =
      .after ⟨w.offered, (w.attempt a).1⟩
        (match w.attempt a with
        | (_, some outcome, _) => ⟨outcome, []⟩
        | (_, none, w') => writeLoop w'.buffer errno answers w'.attempts w'.totalWrittenBytes) := by
  have hne : (w.attempts : Int) ≠ 0 := by omega
  cases a with
  | fails cError =>
      rw [writeLoop_fails hne]
      rfl
  | accepts count =>
      have hlen : ((w.buffer.drop w.totalWrittenBytes).take count).length = count := by
        rw [List.length_take]
        exact Nat.min_eq_left hallows
      have hless : (w.attempts : Int) - 1 = (w.attempts - 1 : Nat) := by omega
      rw [writeLoop_accepts hne, hlen, hless]
      by_cases hall : w.totalWrittenBytes + count = w.buffer.length
      · simp only [WriteCall.attempt, hall, if_true, WriteCall.offered]
      · simp only [WriteCall.attempt, hall, if_false, WriteCall.offered]

theorem writeLoop_giveUp {w : WriteCall} (h : w.attempts = 0) :
    writeLoop w.buffer errno answers w.attempts w.totalWrittenBytes = ⟨w.giveUp errno, []⟩ := by
  rw [h, Int.natCast_zero, writeLoop_zero, WriteCall.giveUp]
  split <;> rfl

/-! ## Whatever the kernel does -/

/-- How a call can end, after `count` bytes. Only `SOCKET_WRITE_PARTIAL` carries the count. -/
def WriteEnds (size count errno : Nat) : Outcome Unit → Prop
  | .returned () => count = size
  | .threw e => (∃ cError, e = .socket (.withErrno .SOCKET_WRITE cError)) ∨
      e = .socket ⟨.SOCKET_WRITE_PARTIAL, errno, count⟩ ∧ count < size
  | .waiting => True

/-- The tries offer what is left of the buffer, one after the other. -/
structure Writes (buffer : List Byte) (errno total : Nat) (r : WriteResult) : Prop where
  offered : ∀ pre t post, r.tries = pre ++ t :: post →
    t.offered = buffer.drop (total + (pre.map WriteTry.taken).flatten.length) ∧ t.taken <+: t.offered
  taken : r.taken <+: buffer.drop total
  ends : WriteEnds buffer.length (total + r.taken.length) errno r.outcome

theorem Writes.stay {o : Outcome Unit} (h : WriteEnds buffer.length total errno o) :
    Writes buffer errno total ⟨o, []⟩ where
  offered pre t post htries := by simp at htries
  taken := List.nil_prefix
  ends := h

theorem Writes.after {count : Nat} {r : WriteResult}
    (h : Writes buffer errno (total + ((buffer.drop total).take count).length) r) :
    Writes buffer errno total (.after ⟨buffer.drop total, (buffer.drop total).take count⟩ r) where
  offered pre t post htries := by
    cases pre with
    | nil =>
        simp only [WriteResult.tries_after, List.nil_append, List.cons.injEq] at htries
        obtain ⟨rfl, -⟩ := htries
        exact ⟨rfl, List.take_prefix _ _⟩
    | cons t' pre =>
        simp only [WriteResult.tries_after, List.cons_append, List.cons.injEq] at htries
        obtain ⟨rfl, hrest⟩ := htries
        have ht := h.offered pre t post hrest
        rwa [Nat.add_assoc, ← List.length_append] at ht
  taken := by
    rw [WriteResult.taken_after]
    obtain ⟨rest, hrest⟩ := h.taken
    refine ⟨rest, ?_⟩
    rw [List.append_assoc, hrest, ← List.drop_drop]
    exact List.prefix_iff_eq_append.mp (List.take_prefix _ _)
  ends := by
    rw [WriteResult.taken_after, List.length_append, ← Nat.add_assoc]
    exact h.ends

theorem writes_zero (htotal : total ≤ buffer.length) :
    Writes buffer errno total (writeLoop buffer errno answers 0 total) := by
  rw [writeLoop_zero]
  split
  · exact .stay (Or.inr ⟨rfl, by omega⟩)
  · rename_i hall
    exact .stay (not_not.mp hall)

theorem writes (answers : List WriteAnswer) (attempts : Int) (htotal : total ≤ buffer.length) :
    Writes buffer errno total (writeLoop buffer errno answers attempts total) := by
  induction answers generalizing attempts total with
  | nil =>
      by_cases hnone : attempts = 0
      · subst hnone
        exact writes_zero htotal
      · rw [writeLoop_nil hnone]
        exact .stay trivial
  | cons a answers ih =>
      by_cases hnone : attempts = 0
      · subst hnone
        exact writes_zero htotal
      · cases a with
        | fails cError =>
            rw [writeLoop_fails hnone]
            have hends : Writes buffer errno (total + ((buffer.drop total).take 0).length)
                ⟨.socketError .SOCKET_WRITE cError, []⟩ := .stay (Or.inl ⟨cError, rfl⟩)
            exact hends.after
        | accepts count =>
            rw [writeLoop_accepts hnone]
            refine .after ?_
            split
            · rename_i hall
              exact .stay hall
            · refine ih _ ?_
              rw [List.length_take, List.length_drop]
              omega

/-! ## Systems without errors -/

@[simp] theorem room_nil : room [] = 0 := rfl

@[simp] theorem room_cons (t : Option Nat) (tries : List (Option Nat)) :
    room (t :: tries) = t.getD 0 + room tries := by
  simp [room]

theorem length_take_drop {count : Nat} :
    ((buffer.drop total).take count).length = min count (buffer.length - total) := by
  rw [List.length_take, List.length_drop]

/-- How a call ends that the kernel offers room for `count` bytes. -/
def finished (size count errno : Nat) : Outcome Unit :=
  if size ≤ count then .returned () else .threw (.socket ⟨.SOCKET_WRITE_PARTIAL, errno, count⟩)

theorem outcome_of_never_blocks {attempts : Nat} {tries : List (Option Nat)} (hlt : total < buffer.length)
    (htries : attempts ≤ tries.length)
    (hnever : ∀ k < attempts, tries[k]? = some none → buffer.length ≤ total + room (tries.take k)) :
    (writeLoop buffer errno (tries.map tryOf) attempts total).outcome =
      finished buffer.length (total + room (tries.take attempts)) errno := by
  induction tries generalizing attempts total with
  | nil =>
      obtain rfl : attempts = 0 := by simpa using htries
      simp [writeLoop_zero, finished, Nat.ne_of_lt hlt, Nat.not_le.mpr hlt]
  | cons t tries ih =>
      cases attempts with
      | zero => simp [writeLoop_zero, finished, Nat.ne_of_lt hlt, Nat.not_le.mpr hlt]
      | succ attempts =>
          have hsome : ((attempts + 1 : Nat) : Int) ≠ 0 := by omega
          have hless : ((attempts + 1 : Nat) : Int) - 1 = attempts := by omega
          cases t with
          | none =>
              have hall := hnever 0 (by omega) rfl
              simp only [List.take_zero, room_nil] at hall
              omega
          | some count =>
              simp only [List.map_cons, tryOf, writeLoop_accepts hsome, hless, WriteResult.outcome_after,
                length_take_drop, List.take_succ_cons, room_cons, Option.getD_some, ← Nat.add_assoc]
              by_cases hall : buffer.length - total ≤ count
              · rw [Nat.min_eq_right hall, if_pos (by omega), finished, if_pos (by omega)]
              · rw [Nat.min_eq_left (by omega), if_neg (by omega)]
                refine ih (by omega) (by simpa using htries) fun k hk hblock => ?_
                have hbefore := hnever (k + 1) (by omega) (by simpa using hblock)
                simpa [Nat.add_assoc] using hbefore

theorem outcome_of_blocks {attempts k : Nat} {tries : List (Option Nat)}
    (hlt : total + room (tries.take k) < buffer.length) (hk : k < attempts) (hblock : tries[k]? = some none) :
    (writeLoop buffer errno (tries.map tryOf) attempts total).outcome = .socketError .SOCKET_WRITE 11 := by
  induction tries generalizing attempts total k with
  | nil => simp at hblock
  | cons t tries ih =>
      obtain ⟨attempts, rfl⟩ : ∃ n, attempts = n + 1 := ⟨attempts - 1, by omega⟩
      have hsome : ((attempts + 1 : Nat) : Int) ≠ 0 := by omega
      have hless : ((attempts + 1 : Nat) : Int) - 1 = attempts := by omega
      cases t with
      | none => simp only [List.map_cons, tryOf, writeLoop_fails hsome]
      | some count =>
          cases k with
          | zero => simp at hblock
          | succ k =>
              simp only [List.take_succ_cons, room_cons, Option.getD_some, ← Nat.add_assoc] at hlt
              simp only [List.map_cons, tryOf, writeLoop_accepts hsome, hless, WriteResult.outcome_after,
                length_take_drop]
              rw [Nat.min_eq_left (by omega), if_neg (by omega)]
              exact ih hlt (by omega) (by simpa using hblock)

/-! ## The whole call -/

theorem length_tries_le (answers : List WriteAnswer) (attempts : Nat) :
    (writeLoop buffer errno answers attempts total).tries.length ≤ attempts := by
  induction answers generalizing attempts total with
  | nil =>
      cases attempts with
      | zero =>
          rw [Int.natCast_zero, writeLoop_zero]
          split <;> exact Nat.zero_le _
      | succ attempts =>
          rw [writeLoop_nil (by omega)]
          exact Nat.zero_le _
  | cons a answers ih =>
      cases attempts with
      | zero =>
          rw [Int.natCast_zero, writeLoop_zero]
          split <;> exact Nat.zero_le _
      | succ attempts =>
          have hsome : ((attempts + 1 : Nat) : Int) ≠ 0 := by omega
          have hless : ((attempts + 1 : Nat) : Int) - 1 = attempts := by omega
          cases a with
          | fails cError =>
              rw [writeLoop_fails hsome]
              exact Nat.succ_le_succ (Nat.zero_le _)
          | accepts count =>
              rw [writeLoop_accepts hsome, hless, WriteResult.tries_after, List.length_cons]
              split
              · exact Nat.succ_le_succ (Nat.zero_le _)
              · exact Nat.succ_le_succ (ih attempts)

/-- An empty buffer is handed over with the first try. -/
theorem outcome_write_empty {attempts : Nat} {t : Option Nat} {tries : List (Option Nat)}
    (hpos : 0 < attempts) :
    (write [] attempts errno ((t :: tries).map tryOf)).outcome =
      if t = none then .socketError .SOCKET_WRITE 11 else .returned () := by
  have hsome : (attempts : Int) ≠ 0 := by omega
  cases t with
  | none => simp [write, tryOf, writeLoop_fails hsome]
  | some count => simp [write, tryOf, writeLoop_accepts hsome]

theorem outcome_write_of_never_blocks {attempts : Nat} {tries : List (Option Nat)} (hbuffer : buffer ≠ [])
    (htries : attempts ≤ tries.length) (h : NeverBlocks buffer attempts tries) :
    (write buffer attempts errno (tries.map tryOf)).outcome =
      finished buffer.length (room (tries.take attempts)) errno := by
  refine (outcome_of_never_blocks (List.length_pos_iff.mpr hbuffer) htries fun k hk hblock => ?_).trans ?_
  · rw [Nat.zero_add]
    exact (h k hk hblock).2
  · rw [Nat.zero_add]

theorem coversFull_of_outcome {attempts : Nat} {tries : List (Option Nat)}
    (h : (write buffer attempts errno (tries.map tryOf)).outcome =
      finished buffer.length (room (tries.take attempts)) errno) :
    CoversFull buffer attempts errno tries := by
  simp only [CoversFull, h, finished]
  split
  · rfl
  · exact ⟨_, rfl, rfl, rfl⟩

theorem coversFull_iff {attempts : Nat} {tries : List (Option Nat)} (hpos : 0 < attempts)
    (htries : attempts ≤ tries.length) :
    CoversFull buffer attempts errno tries ↔ NeverBlocks buffer attempts tries := by
  by_cases hnil : buffer = []
  · subst hnil
    cases tries with
    | nil => exact absurd htries (Nat.not_le.mpr hpos)
    | cons t tries =>
        simp only [CoversFull, outcome_write_empty hpos, List.length_nil, Nat.zero_le, if_true]
        cases t with
        | none =>
            refine iff_of_false (by simp) fun h => ?_
            exact absurd (h 0 hpos rfl).1 (Nat.lt_irrefl 0)
        | some count =>
            refine iff_of_true (by simp) fun k _ hblock => ⟨?_, Nat.zero_le _⟩
            cases k with
            | zero => simp at hblock
            | succ k => omega
  · refine ⟨fun h k hk hblock => ?_, fun h => coversFull_of_outcome ?_⟩
    · by_contra hcomes
      have hlt : 0 + room (tries.take k) < buffer.length := by
        cases k with
        | zero => simpa using List.length_pos_iff.mpr hnil
        | succ k => omega
      have hout : (write buffer attempts errno (tries.map tryOf)).outcome = .socketError .SOCKET_WRITE 11 :=
        outcome_of_blocks hlt hk hblock
      simp only [CoversFull, hout] at h
      split at h
      · cases h
      · obtain ⟨ex, hex, htype, -⟩ := h
        cases hex
        cases htype
    · exact outcome_write_of_never_blocks hnil htries h

theorem map_accepts (counts : List Nat) :
    counts.map WriteAnswer.accepts = (counts.map some).map tryOf := by
  simp [tryOf]

theorem room_some (counts : List Nat) : room (counts.map some) = counts.sum := by
  simp [room, Function.comp_def]

theorem outcome_write_accepts {attempts : Nat} {counts : List Nat} (hanswers : attempts ≤ counts.length) :
    (write buffer attempts errno (counts.map .accepts)).outcome =
      finished buffer.length (counts.take attempts).sum errno := by
  have htries : attempts ≤ (counts.map some).length := by rwa [List.length_map]
  rw [map_accepts, ← room_some, List.map_take]
  cases attempts with
  | zero =>
      rw [write, Int.natCast_zero, writeLoop_zero]
      cases buffer <;> simp [finished]
  | succ attempts =>
      by_cases hnil : buffer = []
      · subst hnil
        cases counts with
        | nil => simp at hanswers
        | cons count counts =>
            rw [List.map_cons, outcome_write_empty (Nat.succ_pos _)]
            simp [finished]
      · refine outcome_write_of_never_blocks hnil htries fun k _ hblock => ?_
        simp at hblock

theorem taken_write_accepts {attempts : Nat} {counts : List Nat} (hanswers : attempts ≤ counts.length) :
    (write buffer attempts errno (counts.map .accepts)).taken =
      buffer.take (counts.take attempts).sum := by
  have hwrites : Writes buffer errno 0 (write buffer attempts errno (counts.map .accepts)) :=
    writes (counts.map .accepts) attempts (Nat.zero_le _)
  have htaken := hwrites.taken
  have hends := hwrites.ends
  rw [outcome_write_accepts hanswers, finished, Nat.zero_add] at hends
  rw [List.drop_zero, List.prefix_iff_eq_take] at htaken
  split at hends
  · rename_i hall
    have hcount : _ = buffer.length := hends
    rw [htaken, hcount, List.take_length, List.take_of_length_le hall]
  · have hcount : (write buffer attempts errno (counts.map .accepts)).taken.length =
        (counts.take attempts).sum := by
      rcases hends with ⟨cError, hex⟩ | ⟨hex, -⟩
      · cases hex
      · have hbytes : ((counts.take attempts).sum : Int) = _ := congrArg SocketException.processedBytes
          (Exception.socket.inj hex)
        exact (Int.natCast_inj.mp hbytes).symm
    rw [htaken, hcount]

theorem write_fails_after {counts : List Nat} {cError : Nat}
    (hattempts : attempts < 0 ∨ (counts.length : Nat) < attempts)
    (hlt : total + counts.sum < buffer.length) :
    let r := writeLoop buffer errno (counts.map .accepts ++ .fails cError :: answers) attempts total
    r.outcome = .socketError .SOCKET_WRITE cError ∧ r.taken.length = counts.sum := by
  induction counts generalizing attempts total with
  | nil =>
      have hsome : attempts ≠ 0 := by
        simp only [List.length_nil] at hattempts
        omega
      simp [writeLoop_fails hsome, WriteResult.taken]
  | cons count counts ih =>
      rw [List.length_cons] at hattempts
      rw [List.sum_cons, ← Nat.add_assoc] at hlt
      have hsome : attempts ≠ 0 := by omega
      have hrest : attempts - 1 < 0 ∨ (counts.length : Nat) < attempts - 1 := by omega
      obtain ⟨hout, htaken⟩ := ih hrest hlt
      simp only [List.map_cons, List.cons_append, writeLoop_accepts hsome, length_take_drop,
        WriteResult.outcome_after, WriteResult.taken_after, List.length_append]
      rw [Nat.min_eq_left (by omega), if_neg (by omega)]
      exact ⟨hout, by rw [htaken, List.sum_cons]⟩

end Stream

end SocketWrapper
