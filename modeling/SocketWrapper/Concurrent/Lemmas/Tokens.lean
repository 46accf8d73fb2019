import SocketWrapper.Concurrent.Lemmas.Balance

/-!
# Tokens

Where consumers call `readBlocking` only, every token on an eventfd stands for a segment in the queue
or for the failure. If no write fails, there is a token for each of them.
-/

namespace SocketWrapper

open ConditionalBufferedStream Machine

variable {S : Setup} {m m' : Machine} {fd : Fd}
  {allowed : Machine → Action → Prop} {size : Nat} {bytes : List Byte} {answers : List Answer} {consumers : Nat}

/-- The consumers call `readBlocking` for handlers and nothing else, and nobody destroys the stream. -/
def Action.onlyBlocking (S : Setup) : Action → Bool
  | .consumer _ (.readBlocking fd _) => S.Registered fd
  | .consumer _ (.read _) => false
  | .destructor => false
  | _ => true

theorem living_of_onlyBlocking {a : Action} (h : a.onlyBlocking S) : a ≠ .destructor := by
  rintro rfl
  cases h

/-- A token stands for a segment or for the failure. -/
structure Tokens (S : Setup) (m : Machine) : Prop where
  opened : m.stream.eventFds.closed = []
  taken : ∀ fd, .popping fd false ∉ m.consumers
  balance : ∀ fd, ∃ lost, m.stream.eventFds.counter fd + m.pending fd + m.worker.unposted fd +
      reportedIn m.completions fd + lost = (m.stream.queue fd).length + m.stream.failureTokens fd ∧
    ((∀ n, S.eventfdWrite n = none) → lost = 0)
  reported : ∀ fd, reportedIn m.completions fd ≤ m.stream.failureTokens fd

/-! ## Calls that have taken a token -/

/-- No call takes a segment without its token, and none comes back without a segment but to report the
failure. -/
structure Paired (m : Machine) : Prop where
  taken : ∀ fd, .popping fd false ∉ m.consumers
  alone : ∀ fd, takenIn m.completions fd = 0
  reported : ∀ fd, reportedIn m.completions fd ≤ m.stream.failureTokens fd

theorem Tokens.of_paired (hbalanced : Balanced S m) (h : Paired m) : Tokens S m where
  opened := hbalanced.opened
  taken := h.taken
  balance := fun fd => by
    have hbalance := hbalanced.balance fd
    rw [h.alone, Nat.add_zero] at hbalance
    exact hbalance
  reported := h.reported

theorem Tokens.token_of_popping (h : Tokens S m) {c : Nat} {token : Bool}
    (hc : m.consumers[c]? = some (.popping fd token)) : token = true := by
  cases token with
  | true => rfl
  | false => exact absurd (List.mem_of_getElem? hc) (h.taken fd)

/-- What `read` does for a call that has taken a token. -/
inductive TokenRead (m : Machine) (fd : Fd) : Outcome (List Byte) × ConditionalBufferedStream → Prop
  | segment {data : List Byte} {rest : List (List Byte)} :
      m.stream.queue fd = data :: rest →
      TokenRead m fd (.returned data, dequeued m.stream fd rest)
  | failure :
      m.stream.queue fd = [] → reportedIn m.completions fd < m.stream.failureTokens fd →
      TokenRead m fd (.threw (.socket (.ofType m.stream.lastEx)), m.stream)

theorem Tokens.read (h : Tokens S m) (hrec : Recorded S m.stream m.worker) (hentries : HasEntries S m)
    {c : Nat} (hc : m.consumers[c]? = some (.popping fd true)) :
    TokenRead m fd (m.stream.read fd) := by
  have hpending := pending_pos hc
  obtain ⟨lost, hbalance, -⟩ := h.balance fd
  have hfailure : m.stream.queue fd = [] → reportedIn m.completions fd < m.stream.failureTokens fd := by
    intro hempty
    rw [hempty, List.length_nil] at hbalance
    omega
  have hread := read_cases m.stream fd
  generalize m.stream.read fd = r at hread ⊢
  cases hread with
  | segment hqueue => exact .segment hqueue
  | failed hempty _ => exact .failure hempty (hfailure hempty)
  | nothing hempty hlast =>
      have hposted := hrec.of_posted (Nat.zero_lt_of_lt (hfailure hempty))
      exact absurd hlast hposted.1
  | invalid hempty hnone =>
      have hposted := hrec.of_posted (Nat.zero_lt_of_lt (hfailure hempty))
      have hsome := hentries fd hposted.2
      rw [hnone] at hsome
      cases hsome

theorem Paired.taken_set (h : Paired m) {c : Nat} {place : ConsumerAt}
    (hplace : ∀ fd, place ≠ .popping fd false) (fd : Fd) :
    .popping fd false ∉ m.consumers.set c place := fun hmem =>
  (List.mem_or_eq_of_mem_set hmem).elim (h.taken fd) fun heq => hplace fd heq.symm

theorem Paired.moveTo (h : Paired m) {c : Nat} {place : ConsumerAt}
    (hplace : ∀ fd, place ≠ .popping fd false) : Paired (m.moveTo c place) :=
  ⟨h.taken_set hplace, h.alone, h.reported⟩

theorem Paired.threw (h : Paired m) (c : Nat) (fd : Fd) (e : Exception) :
    Paired (m.complete c fd false (.threw e)) := by
  refine ⟨h.taken_set (by simp), fun fd' => ?_, fun fd' => ?_⟩
  · simpa [takenIn_append, Completion.takenAlone] using h.alone fd'
  · simpa [reportedIn_append, Completion.reported] using h.reported fd'

theorem Paired.pops (h : Paired m) (hbalanced : Balanced S m) (hrec : Recorded S m.stream m.worker)
    (hentries : HasEntries S m) {c : Nat} {token : Bool}
    (hc : m.consumers[c]? = some (.popping fd token)) :
    Paired ({ m with stream := (m.stream.read fd).2 }.complete c fd token (m.stream.read fd).1) := by
  have htokens := Tokens.of_paired hbalanced h
  obtain rfl := htokens.token_of_popping hc
  have hread := htokens.read hrec hentries hc
  generalize m.stream.read fd = r at hread ⊢
  cases hread with
  | segment hqueue =>
      refine ⟨h.taken_set (by simp), fun fd' => ?_, fun fd' => ?_⟩
      · simpa [takenIn_append, Completion.takenAlone] using h.alone fd'
      · simpa [reportedIn_append, Completion.reported, dequeued] using h.reported fd'
  | failure _ hlt =>
      refine ⟨h.taken_set (by simp), fun fd' => ?_, fun fd' => ?_⟩
      · simpa [takenIn_append, Completion.takenAlone] using h.alone fd'
      · show reportedIn (m.completions ++ [_]) fd' ≤ m.stream.failureTokens fd'
        rw [reportedIn_append]
        have hle := h.reported fd'
        split
        · rename_i hfd
          exact hfd.1 ▸ hlt
        · exact hle

theorem Paired.consumer (h : Paired m) (hbalanced : Balanced S m) (hrec : Recorded S m.stream m.worker)
    (hentries : HasEntries S m) {c : Nat} {a : ConsumerAction}
    (hblocking : (Action.consumer c a).onlyBlocking S) (hmove : ConsumerMove m c a m') : Paired m' := by
  cases hmove with
  | calls => exact h.moveTo (by simp)
  | callsRead => cases hblocking
  | ready => exact h.moveTo (by simp)
  | expires => exact h.moveTo (by simp)
  | fails => exact h.threw c _ _
  | throws => exact h.threw c _ _
  | takesNothing _ hclosed =>
      rw [hbalanced.opened] at hclosed
      cases hclosed
  | takes => exact ⟨h.taken_set (by simp), h.alone, h.reported⟩
  | pops hc => exact h.pops hbalanced hrec hentries hc

theorem Paired.move {a : Action} (h : Paired m) (hbalanced : Balanced S m)
    (hv : m.stream.stream.Valid) (hrec : Recorded S m.stream m.worker) (hentries : HasEntries S m)
    (hblocking : a.onlyBlocking S) (hmove : Move S m a m') : Paired m' := by
  cases hmove with
  | start => exact ⟨h.taken, h.alone, h.reported⟩
  | worker hw =>
      obtain ⟨new, rs, hflow⟩ := hw.flow hv
      exact ⟨h.taken, h.alone, fun fd => Nat.le_trans (h.reported fd) (hflow.tokens fd)⟩
  | consumer hc => exact h.consumer hbalanced hrec hentries hblocking hc
  | stopReads => exact ⟨h.taken, h.alone, h.reported⟩
  | stopStream => exact ⟨h.taken, h.alone, h.reported⟩
  | destructs => cases hblocking
  | closes => cases hblocking
  | stops => cases hblocking
  | joinFails => cases hblocking
  | joins => cases hblocking

theorem Paired.of_reach (hallowed : ∀ m a, allowed m a → a.onlyBlocking S)
    (h : Transition.Reach (Machine.step S) allowed (.connected S size bytes answers consumers) m) :
    Paired m := by
  have hstart : Paired (.connected S size bytes answers consumers) :=
    ⟨fun fd hmem => absurd (List.eq_of_mem_replicate hmem) (by simp), fun _ => rfl,
      fun _ => Nat.le_refl 0⟩
  refine h.invariant_of (P := Paired) hstart
    (fun _ hr => And.intro (Balanced.of_reach (fun m a ha => living_of_onlyBlocking (hallowed m a ha)) hr)
      (And.intro (Conserved.of_reach hr) (And.intro (Recorded.of_reach hr) (HasEntries.of_reach hr))))
    fun m a _ hq hm ha hstep => ?_
  obtain ⟨hbalanced, hconserved, hrec, hentries⟩ := hq
  exact hm.move hbalanced hconserved.valid hrec hentries (hallowed m a ha) (move_of_step hstep).2

theorem Tokens.of_reach
    (hallowed : ∀ m a, allowed m a → a.onlyBlocking S)
    (h : Transition.Reach (Machine.step S) allowed (.connected S size bytes answers consumers) m) :
    Tokens S m :=
  .of_paired (.of_reach (fun m a ha => living_of_onlyBlocking (hallowed m a ha)) h)
    (.of_reach hallowed h)

end SocketWrapper
