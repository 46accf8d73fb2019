import SocketWrapper.Base.Lemmas.Buffer
import SocketWrapper.Transfer.Reading

/-!
# What a call of `Stream::read` takes and what it stores

The bytes are counted from `stored`, what the earlier rounds have read.
-/

namespace SocketWrapper

open FlatMemory

namespace Stream

variable {most least stopEvent : Nat} {timeoutMs : Int} {answers : List Answer} {socket : Socket}
  {stored buffer : List Byte}

/-! ## The caller's block -/

theorem readToLoop_done {readBytes : Nat} (h : least ≤ readBytes) :
    readToLoop most least timeoutMs stopEvent answers socket buffer readBytes =
      ⟨.returned readBytes, buffer, ⟨socket, stopEvent, answers⟩⟩ := by
  rw [readToLoop.eq_def]
  exact if_pos h

/-- The block has what the call has stored at its front, and is left alone behind it. -/
theorem Rounds.readToLoop_eq {r : ReadResult}
    (h : Rounds most least timeoutMs stopEvent answers socket stored r) :
    readToLoop most least timeoutMs stopEvent answers socket (store buffer 0 stored) stored.length =
      ⟨r.outcome, store buffer 0 r.stored, r.stream⟩ := by
  induction h with
  | done hdone => rw [readToLoop_done hdone]
  | waits hlt hstop => simp [readToLoop, Nat.not_le.mpr hlt, hstop]
  | stopped hlt hstop => simp [readToLoop, Nat.not_le.mpr hlt, hstop]
  | fails hlt hfails =>
      cases hfails with
      | poll => simp [readToLoop, Nat.not_le.mpr hlt]
      | read => simp [readToLoop, Nat.not_le.mpr hlt]
      | stopped hstop => simp [readToLoop, Nat.not_le.mpr hlt, hstop]
      | expired hstop htime => simp [readToLoop, Nat.not_le.mpr hlt, hstop, Int.not_lt.mpr htime]
  | closed hlt hnil => simp [readToLoop, Nat.not_le.mpr hlt, hnil]
  | more hlt hne _ ih =>
      simp [readToLoop, Nat.not_le.mpr hlt, hne, store_append, ← List.length_append, ih]
  | again hlt hstop htime _ ih =>
      have hnone : ¬ 0 < stopEvent := Nat.not_lt.mpr (Nat.le_of_eq hstop)
      simp [readToLoop, Nat.not_le.mpr hlt, hnone, htime, ih]

theorem readTo_eq (s : Stream) : s.readTo buffer most least timeoutMs =
    let r := s.read most least timeoutMs
    ⟨r.outcome, store buffer 0 r.stored, r.stream⟩ := by
  have hblock : readToLoop most least timeoutMs s.stopEvent s.answers s.socket (store buffer 0 [])
      ([] : List Byte).length = _ := rounds.readToLoop_eq
  rwa [store_nil] at hblock

/-! ## What is taken from the socket -/

@[simp] theorem gotten_nil : gotten [] = [] := rfl

@[simp] theorem gotten_cons (c : ReadCall) (calls : List ReadCall) :
    gotten (c :: calls) = c.bytes ++ gotten calls := by
  simp [gotten]

/-- How a call can end: it returns what it has counted, or throws with no count at all. -/
def Ends (least count : Nat) : Outcome Nat → Prop
  | .returned n => n = count ∧ least ≤ n
  | .threw e => ∃ t errno, e = .socket (.withErrno t errno)
  | .waiting => True

/-- The loop makes these calls of `::read`, each for what is left of the caller's maximum. -/
structure Reads (most least : Nat) (socket : Socket) (stored : List Byte) (calls : List ReadCall)
    (r : ReadResult) : Prop where
  made : r.stream.socket.calls = socket.calls ++ calls
  keeps : r.stored = stored ++ gotten calls
  unread : socket.unread = gotten calls ++ r.stream.socket.unread
  requests : ∀ pre c post, calls = pre ++ c :: post →
    c.requested = most - (stored ++ gotten pre).length ∧ 0 < c.requested
  fits : stored.length ≤ most → r.stored.length ≤ most
  ends : Ends least r.stored.length r.outcome

theorem Reads.stay {o : Outcome Nat} (hends : Ends least stored.length o) :
    Reads most least socket stored [] ⟨o, stored, ⟨socket, stopEvent, answers⟩⟩ where
  made := (List.append_nil _).symm
  keeps := (List.append_nil _).symm
  unread := rfl
  requests pre c post h := by simp at h
  fits h := h
  ends := hends

/-- A round that gets bytes, and then the rest of the loop. -/
theorem Reads.round {available : Nat} {calls : List ReadCall} {r : ReadResult} (hlt : stored.length < most)
    (h : Reads most least (socket.read (most - stored.length) available).2
      (stored ++ (socket.read (most - stored.length) available).1) calls r) :
    Reads most least socket stored
      (⟨most - stored.length, (socket.read (most - stored.length) available).1⟩ :: calls) r where
  made := by
    rw [h.made]
    simp [Socket.read]
  keeps := by rw [h.keeps, gotten_cons, List.append_assoc]
  unread := by
    rw [gotten_cons, List.append_assoc, ← h.unread]
    exact (List.take_append_drop _ _).symm
  requests pre c post hcalls := by
    cases pre with
    | nil =>
        simp only [List.nil_append, List.cons.injEq] at hcalls
        obtain ⟨rfl, rfl⟩ := hcalls
        simp only [gotten_nil, List.append_nil, true_and]
        omega
    | cons c' pre =>
        simp only [List.cons_append, List.cons.injEq] at hcalls
        obtain ⟨rfl, hrest⟩ := hcalls
        have hc := h.requests pre c post hrest
        rwa [List.append_assoc] at hc
  fits hle := by
    refine h.fits ?_
    simp only [Socket.read, List.length_append, List.length_take]
    omega
  ends := h.ends

theorem Reads.returned {calls : List ReadCall} {r : ReadResult} {n : Nat}
    (h : Reads most least socket [] calls r) (hn : r.outcome = .returned n) :
    (least ≤ n ∧ n ≤ most) ∧ store buffer 0 r.stored = socket.unread.take n ++ buffer.drop n ∧
      gotten calls = socket.unread.take n ∧ (gotten calls).length = n ∧
      r.stream.socket.unread = socket.unread.drop n := by
  have hkeeps := h.keeps
  rw [List.nil_append] at hkeeps
  have hends := h.ends
  rw [hn, hkeeps] at hends
  obtain ⟨hcount, hleast⟩ := hends
  have hfits := h.fits (Nat.zero_le _)
  rw [hkeeps] at hfits
  have htake : gotten calls = socket.unread.take n := by rw [h.unread, hcount, List.take_left]
  refine ⟨⟨hleast, by omega⟩, ?_, htake, hcount.symm, ?_⟩
  · rw [hkeeps, store, Nat.zero_add, ← hcount, List.take_zero, List.nil_append, htake]
  · rw [h.unread, hcount, List.drop_left]

theorem Rounds.reads {r : ReadResult} (h : Rounds most least timeoutMs stopEvent answers socket stored r)
    (hle : least ≤ most) : ∃ calls, Reads most least socket stored calls r := by
  induction h with
  | done hdone => exact ⟨[], .stay ⟨rfl, hdone⟩⟩
  | waits => exact ⟨[], .stay trivial⟩
  | stopped => exact ⟨[], .stay ⟨_, _, rfl⟩⟩
  | fails => exact ⟨[], .stay ⟨_, _, rfl⟩⟩
  | @closed available answers socket stored hlt hnil =>
      have hclosed : Reads most least (socket.read (most - stored.length) available).2
          (stored ++ (socket.read (most - stored.length) available).1) []
          ⟨.socketError .SOCKET_CLOSED 0, stored,
            ⟨(socket.read (most - stored.length) available).2, stopEvent, answers⟩⟩ := by
        rw [hnil, List.append_nil]
        exact .stay ⟨_, _, rfl⟩
      exact ⟨_, .round (Nat.lt_of_lt_of_le hlt hle) hclosed⟩
  | more hlt _ _ ih =>
      obtain ⟨calls, hcalls⟩ := ih
      exact ⟨_, .round (Nat.lt_of_lt_of_le hlt hle) hcalls⟩
  | again _ _ _ _ ih => exact ih

/-! ## Where a call is cut short -/

/-- Wherever the call would be cut short, `P` holds of the number of bytes that have arrived. -/
def CutAll (unread : List Byte) (stopEvent : Nat) (timeoutMs : Int) (answers : List Answer)
    (P : Nat → Prop) : Prop :=
  ∀ k ≤ answers.length, (∀ a ∈ answers.take k, GoesOn stopEvent timeoutMs a) →
    CutShort unread stopEvent timeoutMs answers k → P (min (arrived answers k) unread.length)

section

variable {unread : List Byte} {P : Nat → Prop}

@[simp] theorem arrived_zero : arrived answers 0 = 0 := by simp [arrived]

@[simp] theorem arrived_readable {available k : Nat} :
    arrived (.readable available :: answers) (k + 1) = available + 1 + arrived answers k := by
  simp [arrived]

@[simp] theorem arrived_quiet {k : Nat} : arrived (.quiet :: answers) (k + 1) = arrived answers k := by
  simp [arrived]

theorem cutAll_nil : CutAll unread stopEvent timeoutMs [] P ↔ (0 < stopEvent → P 0) := by
  simp [CutAll, CutShort]

/-- Nothing more is looked at after a poll that ends the call. -/
theorem cutAll_ends {a : Answer} (ha : ¬ GoesOn stopEvent timeoutMs a) :
    CutAll unread stopEvent timeoutMs (a :: answers) P ↔ P 0 := by
  have hcut : CutShort unread stopEvent timeoutMs (a :: answers) 0 := by
    cases a with
    | readable available => exact absurd trivial ha
    | pollFails errno => exact ha
    | readFails errno => exact ha
    | quiet => exact ha
  constructor
  · intro h
    simpa using h 0 (Nat.zero_le _) (by simp) hcut
  · intro h k _ hgoes _
    cases k with
    | zero => simpa using h
    | succ k => exact absurd (hgoes a (by simp)) ha

theorem cutAll_quiet (hgoes : GoesOn stopEvent timeoutMs .quiet) :
    CutAll unread stopEvent timeoutMs (.quiet :: answers) P ↔
      CutAll unread stopEvent timeoutMs answers P := by
  constructor
  · intro h k hk hbefore hcut
    have hafter := h (k + 1) (by simpa using hk) (by simpa [hgoes] using hbefore)
    simp only [arrived_quiet] at hafter
    refine hafter ?_
    simpa [CutShort] using hcut
  · intro h k hk hbefore hcut
    cases k with
    | zero => exact absurd hgoes hcut
    | succ k =>
        have hafter := h k (by simpa using hk) (fun a ha => hbefore a (by simp [ha]))
        simp only [arrived_quiet]
        refine hafter ?_
        simpa [CutShort] using hcut

theorem cutAll_closed {available : Nat} :
    CutAll [] stopEvent timeoutMs (.readable available :: answers) P ↔ P 0 := by
  constructor
  · intro h
    simpa using h 0 (Nat.zero_le _) (by simp) (Nat.zero_le _)
  · intro h k _ _ _
    simpa using h

theorem cutAll_readable {available : Nat} (hne : unread ≠ []) :
    CutAll unread stopEvent timeoutMs (.readable available :: answers) P ↔
      CutAll (unread.drop (available + 1)) stopEvent timeoutMs answers
        fun n => P (min (available + 1) unread.length + n) := by
  have hlen : 0 < unread.length := List.length_pos_iff.mpr hne
  have hcount : ∀ k, min (available + 1) unread.length +
      min (arrived answers k) (unread.drop (available + 1)).length =
      min (available + 1 + arrived answers k) unread.length := by
    intro k
    rw [List.length_drop]
    omega
  have hcut : ∀ k, CutShort unread stopEvent timeoutMs (.readable available :: answers) (k + 1) ↔
      CutShort (unread.drop (available + 1)) stopEvent timeoutMs answers k := by
    intro k
    simp only [CutShort, List.getElem?_cons_succ, arrived_readable, List.length_drop]
    split
    · rfl
    · omega
    · rfl
  constructor
  · intro h k hk hbefore hafter
    have hp := h (k + 1) (by simpa using hk) (by simpa [GoesOn] using hbefore) ((hcut k).mpr hafter)
    rwa [arrived_readable, ← hcount k] at hp
  · intro h k hk hbefore hnow
    cases k with
    | zero =>
        have hnone : unread.length ≤ 0 := by simpa [CutShort] using hnow
        omega
    | succ k =>
        rw [arrived_readable, ← hcount k]
        exact h k (by simpa using hk) (fun a ha => hbefore a (by simp [ha])) ((hcut k).mp hnow)

end

theorem not_goesOn_of_fails {a : Answer} {t : SocketExceptionType} {errno : Nat}
    (h : a.Fails stopEvent timeoutMs t errno) : ¬ GoesOn stopEvent timeoutMs a := by
  cases h with
  | poll => exact id
  | read => exact id
  | stopped hstop => exact fun hgoes => absurd hgoes.1 (Nat.ne_of_gt hstop)
  | expired _ htime => exact fun hgoes => absurd hgoes.2 (Int.not_lt.mpr htime)

/-- A call that throws has stored nothing exactly if, wherever it would be cut short, no byte has arrived
or as many as it needs. -/
theorem Rounds.nothing_stored_iff {r : ReadResult}
    (h : Rounds most least timeoutMs stopEvent answers socket stored r) (hle : least ≤ most)
    (hfits : stored.length ≤ most) :
    ((∃ e, r.outcome = .threw e) → r.stored = []) ↔
      CutAll socket.unread stopEvent timeoutMs answers
        fun n => stored.length + n = 0 ∨ least ≤ stored.length + n := by
  induction h with
  | done hdone => exact iff_of_true (by simp) fun k _ _ _ => .inr (by omega)
  | waits _ hstop => simp [cutAll_nil, hstop]
  | stopped hlt hstop => simp [cutAll_nil, hstop, Nat.not_le.mpr hlt]
  | fails hlt hfails =>
      rw [cutAll_ends (not_goesOn_of_fails hfails)]
      simp [Nat.not_le.mpr hlt]
  | @closed _ _ socket _ hlt hnil =>
      have hunread : socket.unread = [] := by
        refine (Socket.read_eq_nil_iff.mp hnil).resolve_left ?_
        omega
      rw [hunread, cutAll_closed]
      simp [Nat.not_le.mpr hlt]
  | @more available _ socket stored _ hlt hne hrest ih =>
      have hnil : socket.unread ≠ [] := fun h => hne (Socket.read_eq_nil_iff.mpr (.inr h))
      have hgot : (socket.read (most - stored.length) available).1.length =
          min (min (most - stored.length) (available + 1)) socket.unread.length := List.length_take
      rw [cutAll_readable hnil]
      by_cases hcap : most - stored.length < min (available + 1) socket.unread.length
      · -- the caller's maximum cuts the read, and the call has all it may take
        have hdone : least ≤ (stored ++ (socket.read (most - stored.length) available).1).length := by
          rw [List.length_append, hgot]
          omega
        rw [hrest.eq_of_done hdone]
        exact iff_of_true (by simp) fun k _ _ _ => .inr (by omega)
      · have hunread : (socket.read (most - stored.length) available).2.unread =
            socket.unread.drop (available + 1) := by
          show socket.unread.drop (min (most - stored.length) (available + 1)) = _
          rcases Nat.lt_or_ge (most - stored.length) (available + 1) with h | h
          · rw [List.drop_of_length_le (by omega), List.drop_of_length_le (by omega)]
          · rw [Nat.min_eq_right h]
        have hcount : (stored ++ (socket.read (most - stored.length) available).1).length =
            stored.length + min (available + 1) socket.unread.length := by
          rw [List.length_append, hgot]
          omega
        rw [ih (by omega), hunread, hcount]
        simp only [Nat.add_assoc]
  | again _ hstop htime _ ih => rw [ih hfits, cutAll_quiet ⟨hstop, htime⟩]

/-! ## The whole call -/

variable {s : Stream}

theorem reads_read (s : Stream) (timeoutMs : Int) (hle : least ≤ most) :
    ∃ calls, Reads most least s.socket [] calls (s.read most least timeoutMs) :=
  rounds.reads hle

theorem nothing_stored_read_iff (s : Stream) (timeoutMs : Int) (hle : least ≤ most) :
    ((∃ e, (s.read most least timeoutMs).outcome = .threw e) →
      (s.read most least timeoutMs).stored = []) ↔
    CutWhole s.socket.unread s.stopEvent timeoutMs s.answers least := by
  have hfits : ([] : List Byte).length ≤ most := Nat.zero_le most
  refine (rounds.nothing_stored_iff hle hfits).trans ?_
  simp only [List.length_nil, Nat.zero_add]
  rfl

theorem reportsTaken_iff (hle : least ≤ most) :
    s.ReportsTaken buffer most least timeoutMs ↔
      CutWhole s.socket.unread s.stopEvent timeoutMs s.answers least := by
  rw [← nothing_stored_read_iff s timeoutMs hle]
  obtain ⟨calls, hreads⟩ := reads_read s timeoutMs hle
  have hunread := hreads.unread
  have hends := hreads.ends
  have hkeeps := hreads.keeps
  rw [List.nil_append] at hkeeps
  rw [← hkeeps] at hunread
  simp only [ReportsTaken, readTo_eq]
  constructor
  · rintro h ⟨e, he⟩
    rcases h e he with hsame | ⟨ex, n, rfl, hcount, -⟩
    · rw [hsame] at hunread
      exact List.self_eq_append_left.mp hunread
    · rw [he] at hends
      obtain ⟨t, errno, hex⟩ := hends
      cases hex
      simp only [SocketException.withErrno] at hcount
      omega
  · intro h e he
    rw [h ⟨e, he⟩, List.nil_append] at hunread
    exact .inl hunread.symm

end Stream

end SocketWrapper
