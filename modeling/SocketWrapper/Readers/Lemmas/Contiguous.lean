import SocketWrapper.Base.Lemmas.Buffer
import SocketWrapper.Readers.Machine

/-!
# What the calls of `Stream::read` have stored

A call has its bytes at the end of what has been received as long as no other call receives any. That can
only happen where it is partway.
-/

namespace SocketWrapper

open Interleaved Transition

/-! ## A round -/

/-- `Stream::read` is a loop of rounds. -/
theorem Stream.readLoop_cons (call : StreamRead) (stopEvent : Nat) (answer : Answer)
    (answers : List Answer) (socket : Socket) :
    Stream.readLoop call.maxBytesToRead call.minBytesToRead call.timeoutMs stopEvent (answer :: answers) socket
        call.stored =
      if call.minBytesToRead ≤ call.stored.length then
        ⟨.returned call.stored.length, call.stored, ⟨socket, stopEvent, answer :: answers⟩⟩
      else
        match call.round stopEvent answer socket with
        | (some outcome, _, socket) => ⟨outcome, call.stored, ⟨socket, stopEvent, answers⟩⟩
        | (none, bytes, socket) => Stream.readLoop call.maxBytesToRead call.minBytesToRead call.timeoutMs
            stopEvent answers socket (call.stored ++ bytes) := by
  rw [Stream.readLoop.eq_def]
  refine ite_congr rfl (fun _ => rfl) fun _ => ?_
  cases answer with
  | pollFails => rfl
  | readFails => rfl
  | readable available =>
      simp only [StreamRead.round]
      split <;> rfl
  | quiet =>
      simp only [StreamRead.round]
      by_cases hstop : 0 < stopEvent
      · simp [hstop]
      · by_cases htime : call.timeoutMs < 0 <;> simp [hstop, htime]

inductive StreamRead.Rounds (call : StreamRead) (s : Socket) :
    Answer → Option (Outcome Nat) × List Byte × Socket → Prop
  | stores {available : Nat} {bytes : List Byte} {socket : Socket} :
      bytes ≠ [] → s.read (call.maxBytesToRead - call.stored.length) available = (bytes, socket) →
      Rounds call s (.readable available) (none, bytes, socket)
  | waits : Rounds call s .quiet (none, [], s)
  | fails {answer : Answer} {socket : Socket} {outcome : Outcome Nat} :
      socket.unread = s.unread → (∀ count, outcome ≠ .returned count) →
      (∀ available, answer = .readable available →
        (s.read (call.maxBytesToRead - call.stored.length) available).1 = []) →
      Rounds call s answer (some outcome, [], socket)

theorem StreamRead.rounds (call : StreamRead) (stopEvent : Nat) (answer : Answer) (s : Socket) :
    call.Rounds s answer (call.round stopEvent answer s) := by
  cases answer with
  | pollFails errno => exact .fails rfl nofun nofun
  | readFails errno => exact .fails rfl nofun nofun
  | readable available =>
      have happend := s.read_append (call.maxBytesToRead - call.stored.length) available
      simp only [StreamRead.round]
      cases hread : s.read (call.maxBytesToRead - call.stored.length) available with
      | mk bytes socket =>
          rw [hread] at happend
          by_cases hnil : bytes = []
          · subst hnil
            simp only [if_pos]
            refine .fails happend nofun fun count heq => ?_
            cases heq
            rw [hread]
          · simp only [hnil, if_false]
            exact .stores hnil hread
  | quiet =>
      simp only [StreamRead.round]
      by_cases hstop : 0 < stopEvent
      · simp only [hstop, if_true]
        exact .fails rfl nofun nofun
      · by_cases htime : call.timeoutMs < 0
        · simp only [hstop, htime, if_true, if_false]
          exact .waits
        · simp only [hstop, htime, if_false]
          exact .fails rfl nofun nofun

namespace StreamReaders

variable {m m' : StreamReaders} {sent : List Byte} {thread number : Nat} {call : StreamRead}
  {allowed : StreamReaders → Action → Prop}

/-! ## The steps -/

inductive Moves (m : StreamReaders) : Action → StreamReaders → Prop
  | calls {thread maxBytesToRead minBytesToRead : Nat} {timeoutMs : Int} :
      Moves m (.call thread maxBytesToRead minBytesToRead timeoutMs)
        { m with calls := m.calls.enter thread ⟨maxBytesToRead, minBytesToRead, timeoutMs, []⟩ }
  | stores {thread number available : Nat} {call : StreamRead} {bytes : List Byte} {socket : Socket} :
      m.calls.At thread number call → call.stored.length < call.minBytesToRead → bytes ≠ [] →
      m.socket.read (call.maxBytesToRead - call.stored.length) available = (bytes, socket) →
      Moves m (.round thread (.readable available)) { m with
        socket := socket
        taken := m.taken ++ tag number bytes
        calls := m.calls.goOn thread number { call with stored := call.stored ++ bytes } }
  | waits {thread : Nat} : Moves m (.round thread .quiet) m
  | fails {thread number : Nat} {call : StreamRead} {answer : Answer} {socket : Socket}
      {outcome : Outcome Nat} :
      m.calls.At thread number call → socket.unread = m.socket.unread →
      (∀ count, outcome ≠ .returned count) →
      (∀ available, answer = .readable available →
        (m.socket.read (call.maxBytesToRead - call.stored.length) available).1 = []) →
      Moves m (.round thread answer) ({ m with socket := socket }.complete thread number call outcome)
  | finishes {thread number : Nat} {call : StreamRead} :
      m.calls.At thread number call → call.minBytesToRead ≤ call.stored.length →
      Moves m (.finish thread) (m.complete thread number call (.returned call.stored.length))
  | stops : Moves m .stopReads { m with stopEvent := m.stopEvent + 65535 }

theorem moves_of_step {a : Action} (h : m.step a = some m') : Moves m a m' := by
  cases a with
  | call thread maxBytesToRead minBytesToRead timeoutMs =>
      simp only [step] at h
      split at h
      · cases h
        exact .calls
      · cases h
  | round thread answer =>
      simp only [step] at h
      split at h
      · rename_i number call hat
        have hat := Calls.call?_eq_some.mp hat
        split at h
        · rename_i hlt
          have hround := call.rounds m.stopEvent answer m.socket
          generalize call.round m.stopEvent answer m.socket = r at h hround
          cases hround with
          | stores hbytes hread =>
              cases h
              exact .stores hat hlt hbytes hread
          | waits =>
              simp only [tag_nil, List.append_nil, hat.goOn_self] at h
              cases h
              exact .waits
          | fails hunread houtcome hnone =>
              simp only [tag_nil, List.append_nil] at h
              cases h
              exact .fails hat hunread houtcome hnone
        · cases h
      · cases h
  | finish thread =>
      simp only [step] at h
      split at h
      · rename_i hat
        have hat := Calls.call?_eq_some.mp hat
        split at h
        · rename_i hle
          cases h
          exact .finishes hat hle
        · cases h
      · cases h
  | stopReads =>
      cases h
      exact .stops

/-! ## Whatever the threads do -/

abbrev gone (m : StreamReaders) : List Nat := m.completions.map StreamReadDone.number

structure Sound (sent : List Byte) (m : StreamReaders) : Prop where
  inOrder : m.taken.map Prod.snd ++ m.socket.unread = sent
  distinct : Calls.Distinct m.calls m.gone
  begun : ∀ p ∈ m.taken, p.1 < m.calls.begun
  none : ∀ {t n call}, m.calls.At t n call → call.stored = [] → Without m.taken n
  some : ∀ {t n call}, m.calls.At t n call → call.stored ≠ [] → ∃ x, (n, x) ∈ m.taken
  fits : ∀ {t n call}, m.calls.At t n call → call.stored.length ≤ call.maxBytesToRead

theorem sound_start (sent : List Byte) (threads : Nat) : Sound sent (start sent threads) where
  inOrder := rfl
  distinct := Calls.distinct_start threads
  begun := nofun
  none hat := absurd hat Calls.not_at_start
  some hat := absurd hat Calls.not_at_start
  fits hat := absurd hat Calls.not_at_start

theorem Sound.complete (h : Sound sent m) (hat : m.calls.At thread number call) {socket : Socket}
    (hsocket : socket.unread = m.socket.unread) (outcome : Outcome Nat) :
    Sound sent ({ m with socket := socket }.complete thread number call outcome) where
  inOrder := (congrArg (m.taken.map Prod.snd ++ ·) hsocket).trans h.inOrder
  distinct := h.distinct.leave hat rfl
  begun := h.begun
  none hother := h.none (Calls.of_leave hother).2
  some hother := h.some (Calls.of_leave hother).2
  fits hother := h.fits (Calls.of_leave hother).2

theorem Sound.stores (h : Sound sent m) (hat : m.calls.At thread number call) {available : Nat}
    {bytes : List Byte} {socket : Socket} (hnil : bytes ≠ [])
    (hread : m.socket.read (call.maxBytesToRead - call.stored.length) available = (bytes, socket)) :
    Sound sent { m with
      socket := socket
      taken := m.taken ++ tag number bytes
      calls := m.calls.goOn thread number { call with stored := call.stored ++ bytes } } where
  inOrder := by
    have happend := m.socket.read_append (call.maxBytesToRead - call.stored.length) available
    rw [hread] at happend
    rw [List.map_append, map_snd_tag, List.append_assoc, ← h.inOrder]
    exact congrArg (m.taken.map Prod.snd ++ ·) happend
  distinct := h.distinct.goOn hat _
  begun p hp := by
    rcases List.mem_append.mp hp with hold | hnew
    · exact h.begun p hold
    · rw [fst_of_mem_tag hnew]
      exact h.distinct.begun hat
  none hother hempty := by
    rcases Calls.of_goOn hother with ⟨-, -, rfl⟩ | ⟨hne, hold⟩
    · exact absurd (List.append_eq_nil_iff.mp hempty).2 hnil
    · exact (h.none hold hempty).append (without_tag (h.distinct.distinct hat hold (Ne.symm hne)))
  some hother hsome := by
    rcases Calls.of_goOn hother with ⟨-, hnumber, -⟩ | ⟨-, hold⟩
    · obtain ⟨x, l, hcons⟩ := tag_eq_cons (i := number) (List.length_pos_iff.mpr hnil)
      rw [hnumber]
      exact ⟨x, List.mem_append_right _ (hcons ▸ List.mem_cons_self ..)⟩
    · exact (h.some hold hsome).imp fun _ hx => List.mem_append_left _ hx
  fits hother := by
    rcases Calls.of_goOn hother with ⟨-, -, rfl⟩ | ⟨-, hold⟩
    · have hle := m.socket.length_read_le (call.maxBytesToRead - call.stored.length) available
      have hfits := h.fits hat
      rw [hread] at hle
      simp only [List.length_append] at hle ⊢
      omega
    · exact h.fits hold

theorem Sound.move {a : Action} (h : Sound sent m) (hmoves : Moves m a m') : Sound sent m' := by
  cases hmoves with
  | calls =>
      refine ⟨h.inOrder, h.distinct.enter _ _, fun p hp => Nat.lt_succ_of_lt (h.begun p hp),
        fun hat hempty => ?_, fun hat hsome => ?_, fun hat => ?_⟩
      · rcases Calls.of_enter hat with ⟨-, rfl, -⟩ | ⟨-, hold⟩
        · exact fun p hp => Nat.ne_of_lt (h.begun p hp)
        · exact h.none hold hempty
      · rcases Calls.of_enter hat with ⟨-, -, rfl⟩ | ⟨-, hold⟩
        · exact absurd rfl hsome
        · exact h.some hold hsome
      · rcases Calls.of_enter hat with ⟨-, -, rfl⟩ | ⟨-, hold⟩
        · exact Nat.zero_le _
        · exact h.fits hold
  | stores hat _ hnil hread => exact h.stores hat hnil hread
  | waits => exact h
  | fails hat hsocket _ _ => exact h.complete hat hsocket _
  | finishes hat _ => exact h.complete hat rfl _
  | stops => exact ⟨h.inOrder, h.distinct, h.begun, h.none, h.some, h.fits⟩

theorem Sound.of_reach {threads : Nat} (h : Reach step allowed (start sent threads) m) : Sound sent m :=
  h.invariant (sound_start sent threads) fun _ _ _ hm _ hstep => hm.move (moves_of_step hstep)

/-! ## As long as no call is disturbed -/

/-- Every call that has returned has one piece, and so has every other that can still return; those that
are partway have it at the end. -/
structure Whole (m : StreamReaders) : Prop where
  piece : ∀ c ∈ m.completions, ∀ count, c.outcome = .returned count →
    c.stored.length = count ∧ Block m.taken c.number c.stored
  full : ∀ {t n call}, m.calls.At t n call → call.minBytesToRead ≤ call.stored.length →
    Block m.taken n call.stored
  ends : ∀ {t n call}, m.calls.At t n call → call.Partway → call.CanFinish m.socket.unread.length →
    Ends m.taken n call.stored

theorem Whole.ends_of_lt (h : Whole m) (hs : Sound sent m) (hat : m.calls.At thread number call)
    (hlt : call.stored.length < call.minBytesToRead) (hcan : call.CanFinish m.socket.unread.length) :
    Ends m.taken number call.stored := by
  by_cases hempty : call.stored = []
  · rw [hempty]
    exact (hs.none hat hempty).ends
  · exact h.ends hat ⟨hempty, hlt⟩ hcan

theorem Whole.stores (h : Whole m) (hs : Sound sent m) {available : Nat}
    (ha : m.Undisturbed (.round thread (.readable available))) (hat : m.calls.At thread number call)
    (hlt : call.stored.length < call.minBytesToRead) {bytes : List Byte} {socket : Socket}
    (hnil : bytes ≠ [])
    (hread : m.socket.read (call.maxBytesToRead - call.stored.length) available = (bytes, socket)) :
    Whole { m with
      socket := socket
      taken := m.taken ++ tag number bytes
      calls := m.calls.goOn thread number { call with stored := call.stored ++ bytes } } := by
  have happend := m.socket.read_append (call.maxBytesToRead - call.stored.length) available
  rw [hread] at happend
  have hlen := congrArg List.length happend
  rw [List.length_append] at hlen
  -- what the call still needs is what it needed before, less what it has received
  have hown (hle : call.minBytesToRead ≤ call.maxBytesToRead)
      (henough : call.minBytesToRead ≤ (call.stored ++ bytes).length + socket.unread.length) :
      Ends (m.taken ++ tag number bytes) number (call.stored ++ bytes) := by
    rw [List.length_append] at henough
    exact (h.ends_of_lt hs hat hlt ⟨hle, by simp only at hlen; omega⟩).extend bytes
  refine ⟨fun c hc count hcount => ?_, fun hother hfull => ?_, fun hother hpartway hcan => ?_⟩
  · obtain ⟨hcountLen, hblock⟩ := h.piece c hc count hcount
    refine ⟨hcountLen, hblock.append (without_tag ?_)⟩
    rintro rfl
    exact hs.distinct.not_gone hat (List.mem_map_of_mem hc)
  · rcases Calls.of_goOn hother with ⟨-, rfl, rfl⟩ | ⟨hne, hold⟩
    · have hfits := (hs.stores hat hnil hread).fits hother
      exact (hown (Nat.le_trans hfull hfits) (Nat.le_add_right_of_le hfull)).block
    · exact (h.full hold hfull).append (without_tag (hs.distinct.distinct hat hold (Ne.symm hne)))
  · rcases Calls.of_goOn hother with ⟨-, rfl, rfl⟩ | ⟨hne, hold⟩
    · exact hown hcan.1 hcan.2
    · have hmay := ha _ (Calls.call?_eq_some.mpr hat) _ (Calls.mem_others.mpr ⟨_, _, hne, hold⟩) hpartway
      rw [hread] at hmay
      exact absurd hcan (hmay.resolve_left hnil)

theorem Whole.complete (h : Whole m) {socket : Socket} (hsocket : socket.unread = m.socket.unread)
    {outcome : Outcome Nat} (houtcome : ∀ count, outcome = .returned count →
      call.stored.length = count ∧ Block m.taken number call.stored) :
    Whole ({ m with socket := socket }.complete thread number call outcome) where
  piece c hc count hcount := by
    rcases List.mem_append.mp hc with hold | hnew
    · exact h.piece c hold count hcount
    · obtain rfl := List.mem_singleton.mp hnew
      exact houtcome count hcount
  full hother := h.full (Calls.of_leave hother).2
  ends hother hpartway hcan := by
    refine h.ends (Calls.of_leave hother).2 hpartway ?_
    rw [← hsocket]
    exact hcan

theorem Whole.move {a : Action} (h : Whole m) (hs : Sound sent m) (ha : m.Undisturbed a)
    (hmoves : Moves m a m') : Whole m' := by
  cases hmoves with
  | calls =>
      refine ⟨h.piece, fun hat hfull => ?_, fun hat hpartway => ?_⟩
      · rcases Calls.of_enter hat with ⟨-, rfl, rfl⟩ | ⟨-, hold⟩
        · have hwithout : Without m.taken m.calls.begun := fun p hp => Nat.ne_of_lt (hs.begun p hp)
          exact hwithout.ends.block
        · exact h.full hold hfull
      · rcases Calls.of_enter hat with ⟨-, -, rfl⟩ | ⟨-, hold⟩
        · exact absurd rfl hpartway.1
        · exact h.ends hold hpartway
  | stores hat hlt hnil hread => exact h.stores hs ha hat hlt hnil hread
  | waits => exact h
  | fails _ hsocket hthrows _ => exact h.complete hsocket fun count heq => absurd heq (hthrows count)
  | finishes hat hle =>
      exact h.complete rfl fun count heq => ⟨Outcome.returned.inj heq, h.full hat hle⟩
  | stops => exact ⟨h.piece, h.full, h.ends⟩

theorem Whole.of_reach {threads : Nat}
    (h : Reach step (fun m a => m.Undisturbed a) (start sent threads) m) : Whole m := by
  have hstart : Whole (start sent threads) :=
    ⟨nofun, fun hat => absurd hat Calls.not_at_start, fun hat => absurd hat Calls.not_at_start⟩
  exact h.invariant_of hstart (fun _ hr => Sound.of_reach hr) fun _ _ _ hs hm ha hstep =>
    hm.move hs ha (moves_of_step hstep)

theorem Whole.contiguous (h : Whole m) (hs : Sound sent m) : Contiguous sent m :=
  ⟨hs.inOrder, h.piece, hs.distinct.gone_nodup⟩

/-! ## Disturbance -/

theorem step_finish (hat : m.calls.At thread number call)
    (hle : call.minBytesToRead ≤ call.stored.length) :
    m.step (.finish thread) = some (m.complete thread number call (.returned call.stored.length)) := by
  simp [step, Calls.call?_eq_some.mpr hat, hle]

theorem step_round_goesOn (hat : m.calls.At thread number call)
    (hlt : call.stored.length < call.minBytesToRead) {answer : Answer} {socket : Socket} {bytes : List Byte}
    (hround : call.round m.stopEvent answer m.socket = (none, bytes, socket)) :
    m.step (.round thread answer) = some { m with
      socket := socket
      taken := m.taken ++ tag number bytes
      calls := m.calls.goOn thread number { call with stored := call.stored ++ bytes } } := by
  simp [step, Calls.call?_eq_some.mpr hat, hlt, hround]

theorem step_round (hat : m.calls.At thread number call) (hlt : call.stored.length < call.minBytesToRead)
    {available : Nat} {bytes : List Byte} {socket : Socket} (hnil : bytes ≠ [])
    (hread : m.socket.read (call.maxBytesToRead - call.stored.length) available = (bytes, socket)) :
    m.step (.round thread (.readable available)) = some { m with
      socket := socket
      taken := m.taken ++ tag number bytes
      calls := m.calls.goOn thread number { call with stored := call.stored ++ bytes } } :=
  step_round_goesOn hat hlt (by simp [StreamRead.round, hread, hnil])

theorem step_round_ends (hat : m.calls.At thread number call)
    (hlt : call.stored.length < call.minBytesToRead) {answer : Answer} {outcome : Outcome Nat}
    {socket : Socket} {bytes : List Byte}
    (hround : call.round m.stopEvent answer m.socket = (some outcome, bytes, socket)) :
    m.step (.round thread answer) = some ({ m with
      socket := socket
      taken := m.taken ++ tag number bytes }.complete thread number call outcome) := by
  simp [step, Calls.call?_eq_some.mpr hat, hlt, hround]

/-- A call that no other thread's step comes in between does what `Stream::read` does. -/
theorem reach_readLoop {answers : List Answer} {r : ReadResult} (hat : m.calls.At thread number call)
    (hr : Stream.readLoop call.maxBytesToRead call.minBytesToRead call.timeoutMs m.stopEvent answers m.socket
      call.stored = r) (hwaiting : r.outcome ≠ .waiting) :
    ∃ last, Reach step (fun _ _ => True) m last ∧ last.socket = r.stream.socket ∧
      last.completions = m.completions ++ [⟨number, r.stored, r.outcome⟩] := by
  induction answers generalizing m call with
  | nil =>
      rcases Nat.lt_or_ge call.stored.length call.minBytesToRead with hlt | hle
      · simp only [Stream.readLoop, if_neg (Nat.not_le.mpr hlt)] at hr
        by_cases hstop : 0 < m.stopEvent
        · have hround : call.round m.stopEvent .quiet m.socket =
              (some (.socketError .SOCKET_TERMINATION_REQUEST 0), [], m.socket) := by
            simp [StreamRead.round, hstop]
          simp only [hstop, if_true] at hr
          exact ⟨_, .single trivial (step_round_ends hat hlt hround), hr ▸ rfl, hr ▸ rfl⟩
        · simp only [hstop, if_false] at hr
          exact absurd (congrArg ReadResult.outcome hr).symm hwaiting
      · rw [Stream.readLoop_done hle] at hr
        exact ⟨_, .single trivial (step_finish hat hle), hr ▸ rfl, hr ▸ rfl⟩
  | cons answer answers ih =>
      rcases Nat.lt_or_ge call.stored.length call.minBytesToRead with hlt | hle
      · rw [Stream.readLoop_cons, if_neg (Nat.not_le.mpr hlt)] at hr
        cases hround : call.round m.stopEvent answer m.socket with
        | mk ended rest =>
            obtain ⟨bytes, socket⟩ := rest
            rw [hround] at hr
            cases ended with
            | some outcome =>
                exact ⟨_, .single trivial (step_round_ends hat hlt hround), hr ▸ rfl, hr ▸ rfl⟩
            | none =>
                have hthere := hat.goOn_same number { call with stored := call.stored ++ bytes }
                obtain ⟨last, hreach, hlast⟩ := ih (m := { m with
                  socket := socket
                  taken := m.taken ++ tag number bytes
                  calls := m.calls.goOn thread number { call with stored := call.stored ++ bytes } })
                  hthere hr
                exact ⟨last, .head trivial (step_round_goesOn hat hlt hround) hreach, hlast⟩
      · rw [Stream.readLoop_done hle] at hr
        exact ⟨_, .single trivial (step_finish hat hle), hr ▸ rfl, hr ▸ rfl⟩

/-- If the rest of what a call needs arrives at once, the call returns. -/
theorem reach_rest (hat : m.calls.At thread number call) (hlt : call.stored.length < call.minBytesToRead)
    (hcan : call.CanFinish m.socket.unread.length) :
    ∃ last bytes, bytes ≠ [] ∧ Reach step (fun _ _ => True) m last ∧
      last.taken = m.taken ++ tag number bytes ∧
      ⟨number, call.stored ++ bytes, .returned (call.stored ++ bytes).length⟩ ∈ last.completions := by
  obtain ⟨hle, henough⟩ := hcan
  cases hread : m.socket.read (call.maxBytesToRead - call.stored.length) call.maxBytesToRead with
  | mk bytes socket =>
      have hlen : bytes.length = min (call.maxBytesToRead - call.stored.length) m.socket.unread.length := by
        rw [← (Prod.mk.inj hread).1, List.length_take]
        omega
      have hnil : bytes ≠ [] := List.length_pos_iff.mp (by omega)
      have hfull : call.minBytesToRead ≤ (call.stored ++ bytes).length := by
        rw [List.length_append]
        omega
      have hround := step_round hat hlt hnil hread
      have hthere := hat.goOn_same number { call with stored := call.stored ++ bytes }
      have hfinish := step_finish (m := { m with
        socket := socket
        taken := m.taken ++ tag number bytes
        calls := m.calls.goOn thread number { call with stored := call.stored ++ bytes } }) hthere hfull
      exact ⟨_, bytes, hnil, (Reach.single trivial hround).tail trivial hfinish, rfl,
        List.mem_append_right _ (List.mem_singleton.mpr rfl)⟩

/-- Bytes received by a call while another is partway that can still get all it needs: if the rest of that
arrives next, its bytes are not in one piece. -/
theorem Sound.disturbed {a : Action} (h : Sound sent m) (ha : ¬ m.Undisturbed a) (hmoves : Moves m a m') :
    ∃ last, Reach step (fun _ _ => True) m' last ∧ ¬ Contiguous sent last := by
  cases hmoves with
  | @stores thread number available call bytes socket hat hlt hnil hread =>
      simp only [Undisturbed, Calls.call?_eq_some.mpr hat, Option.mem_some_iff, forall_eq', not_forall,
        hread, hnil, false_or, not_not] at ha
      obtain ⟨other, hother, hpartway, hcan⟩ := ha
      obtain ⟨t, n, hne, hother⟩ := Calls.mem_others.mp hother
      obtain ⟨last, rest, hrest, hreach, htaken, hmem⟩ := reach_rest (m := { m with
        socket := socket
        taken := m.taken ++ tag number bytes
        calls := m.calls.goOn thread number { call with stored := call.stored ++ bytes } })
        (hother.goOn_other hne) hpartway.2 hcan
      refine ⟨last, hreach, fun hcontiguous => ?_⟩
      obtain ⟨-, hblock⟩ := hcontiguous.piece _ hmem _ rfl
      obtain ⟨x, hx⟩ := h.some hother hpartway.1
      obtain ⟨before, b, hsplit⟩ := List.append_of_mem hx
      obtain ⟨y, c, hy⟩ := tag_eq_cons (i := number) (List.length_pos_iff.mpr hnil)
      obtain ⟨z, d, hz⟩ := tag_eq_cons (i := n) (List.length_pos_iff.mpr hrest)
      have hbetween : last.taken = before ++ (n, x) :: b ++ (number, y) :: c ++ (n, z) :: d := by
        rw [htaken, hsplit, hy, hz]
      exact not_block_of_between (h.distinct.distinct hat hother (Ne.symm hne)) hbetween hblock
  | @fails thread number call answer socket outcome hat _ _ hclosed =>
      cases answer with
      | readable available =>
          simp [Undisturbed, Calls.call?_eq_some.mpr hat, hclosed available rfl] at ha
      | _ => exact absurd trivial ha
  | _ => exact absurd trivial ha

end StreamReaders

end SocketWrapper
