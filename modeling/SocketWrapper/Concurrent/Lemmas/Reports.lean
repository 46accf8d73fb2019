import SocketWrapper.Concurrent.Lemmas.Tokens

/-!
# What the calls came back with

A call of `readBlocking` that had taken a token returned a segment or reported the failure, and by then
every segment of its handler had been returned.
-/

namespace SocketWrapper

open ConditionalBufferedStream Machine

variable {S : Setup} {s s' : ConditionalBufferedStream} {w w' : WorkerAt} {m m' : Machine} {fd : Fd}
  {allowed : Machine → Action → Prop} {size : Nat} {bytes : List Byte} {answers : List Answer} {consumers : Nat}

/-- What `readBlocking` throws where its `::poll` has not found a token. -/
inductive ThrownByPoll : SocketException → Prop
  | failed (errno : Nat) : ThrownByPoll (.withErrno .SOCKET_READ_TIMEOUT errno)
  | expired (errno : Nat) : ThrownByPoll (.withErrno .SOCKET_POLL errno)
  | requested : ThrownByPoll (.ofType .SOCKET_TERMINATION_REQUEST)

/-- What is known of the call `c` that came back after the calls `pre`. -/
inductive Accounted (s : ConditionalBufferedStream) (pre : List Completion) (c : Completion) : Prop
  | segment {data : List Byte} : c.outcome = .returned data → Accounted s pre c
  | withoutToken {ex : SocketException} :
      c.token = false → c.outcome = .threw (.socket ex) → ThrownByPoll ex → Accounted s pre c
  | failure :
      c.reported = true → c.outcome = .threw (.socket (.ofType s.lastEx)) →
      returnedIn pre c.fd = delivered c.fd s.removals → Accounted s pre c

def Accounting (m : Machine) : Prop :=
  ∀ pre c post, m.completions = pre ++ c :: post → Accounted m.stream pre c

/-- Once a failure has been posted, the worker changes neither `last_ex` nor the removals. -/
theorem Recorded.frozen (h : Recorded S s w) (hv : s.stream.Valid) (hpos : 0 < s.failureTokens fd)
    (hmove : WorkerMove S w s w' s') : s'.lastEx = s.lastEx ∧ s'.removals = s.removals := by
  have hhealthy : Healthy s → s'.lastEx = s.lastEx ∧ s'.removals = s.removals := by
    intro hh
    rw [hh.tokens] at hpos
    exact absurd hpos (Nat.lt_irrefl 0)
  have hpost : ∀ {fd o s'}, s.post S fd = (o, s') →
      s'.lastEx = s.lastEx ∧ s'.removals = s.removals := by
    intro fd o s' hpost
    have hext := Extends.of_post hv hpost
    exact ⟨hext.lastEx, hext.removals.trans (List.append_nil _)⟩
  cases hmove with
  | terminates => exact hhealthy h.1
  | records => exact hhealthy h.1
  | notified hp => exact ⟨(hpost hp).1, (hpost hp).2⟩
  | notifyFailed hp => exact hpost hp
  | ends => exact ⟨rfl, rfl⟩
  | _ => exact hhealthy h

theorem reportedIn_pos {cs : List Completion} {c : Completion} (hc : c ∈ cs) (h : c.reported = true) :
    0 < reportedIn cs c.fd :=
  List.countP_pos_iff.mpr ⟨c, hc, by simp [h]⟩

theorem Accounted.congr {pre : List Completion} {c : Completion} (h : Accounted s pre c)
    (hsame : c.reported = true → s'.lastEx = s.lastEx ∧ s'.removals = s.removals) : Accounted s' pre c := by
  cases h with
  | segment hreturned => exact .segment hreturned
  | withoutToken htoken hthrew hpoll => exact .withoutToken htoken hthrew hpoll
  | failure hreported hthrew hall =>
      obtain ⟨hlast, hremovals⟩ := hsame hreported
      exact .failure hreported (hlast ▸ hthrew) (hremovals ▸ hall)

theorem Accounting.worker (h : Accounting m) (htokens : Tokens S m) (hv : m.stream.stream.Valid)
    (hrec : Recorded S m.stream m.worker) (hmove : WorkerMove S m.worker m.stream w s) :
    Accounting { m with worker := w, stream := s } := by
  intro pre c post heq
  refine (h pre c post heq).congr fun hreported => ?_
  have hmem : c ∈ m.completions := by
    rw [show m.completions = _ from heq]
    simp
  have hposted := Nat.lt_of_lt_of_le (reportedIn_pos hmem hreported) (htokens.reported c.fd)
  exact hrec.frozen hv hposted hmove

theorem split_append_singleton {α : Type} {pre post cs : List α} {c d : α}
    (h : cs ++ [d] = pre ++ c :: post) :
    (cs = pre ∧ d = c) ∨ ∃ post', cs = pre ++ c :: post' := by
  rcases List.eq_nil_or_concat post with rfl | ⟨post', a, rfl⟩
  · obtain ⟨hpre, hlast⟩ := List.append_inj' h rfl
    exact .inl ⟨hpre, List.singleton_inj.mp hlast⟩
  · rw [List.concat_eq_append, ← List.cons_append, ← List.append_assoc] at h
    exact .inr ⟨post', (List.append_inj' h rfl).1⟩

theorem Accounting.complete (h : Accounting m) {c : Nat} {token : Bool} {o : Outcome (List Byte)}
    (hlast : s.lastEx = m.stream.lastEx) (hremovals : s.removals = m.stream.removals)
    (hnew : Accounted s m.completions ⟨c, fd, token, o⟩) :
    Accounting ({ m with stream := s }.complete c fd token o) := by
  intro pre d post heq
  rcases split_append_singleton heq with ⟨rfl, rfl⟩ | ⟨post', hold⟩
  · exact hnew
  · exact (h pre d post' hold).congr fun _ => ⟨hlast, hremovals⟩

theorem Accounting.consumer (h : Accounting m) (htokens : Tokens S m) (hconserved : Conserved m)
    (hrec : Recorded S m.stream m.worker)
    (hentries : HasEntries S m) {c : Nat}
    {a : ConsumerAction} (hblocking : (Action.consumer c a).onlyBlocking S)
    (hmove : ConsumerMove m c a m') :
    Accounting m' := by
  cases hmove with
  | calls => exact h
  | callsRead => cases hblocking
  | ready => exact h
  | expires => exact h
  | fails => exact h.complete rfl rfl (.withoutToken rfl rfl (.failed _))
  | throws =>
      rw [pollExpired]
      split
      · exact h.complete rfl rfl (.withoutToken rfl rfl .requested)
      · exact h.complete rfl rfl (.withoutToken rfl rfl (.expired _))
  | takesNothing _ hclosed =>
      rw [htokens.opened] at hclosed
      cases hclosed
  | takes => exact fun pre d post heq => (h pre d post heq).congr fun _ => ⟨rfl, rfl⟩
  | @pops fd token hc =>
      obtain rfl := htokens.token_of_popping hc
      have hread := htokens.read hrec hentries hc
      generalize m.stream.read fd = r at hread ⊢
      cases hread with
      | segment => exact h.complete rfl rfl (.segment rfl)
      | failure hempty _ =>
          have hall := hconserved.queue fd
          rw [hempty, List.append_nil] at hall
          exact h.complete rfl rfl (.failure rfl rfl hall)

theorem Accounting.of_reach
    (hallowed : ∀ m a, allowed m a → a.onlyBlocking S)
    (h : Transition.Reach (Machine.step S) allowed (.connected S size bytes answers consumers) m) :
    Accounting m := by
  refine h.invariant_of (P := Accounting) (fun pre c post heq => by cases pre <;> cases heq)
    (fun _ hr => And.intro (Tokens.of_reach hallowed hr)
      (And.intro (Conserved.of_reach hr)
        (And.intro (Recorded.of_reach hr) (HasEntries.of_reach hr))))
    fun m a m' hq hm ha hstep => ?_
  obtain ⟨htokens, hconserved, hrec, hentries⟩ := hq
  have hblocking := hallowed m a ha
  cases (move_of_step hstep).2 with
  | start => exact hm
  | worker hw => exact hm.worker htokens hconserved.valid hrec hw
  | consumer hc => exact hm.consumer htokens hconserved hrec hentries hblocking hc
  | stopReads => exact fun pre d post heq => (hm pre d post heq).congr fun _ => ⟨rfl, rfl⟩
  | stopStream => exact fun pre d post heq => (hm pre d post heq).congr fun _ => ⟨rfl, rfl⟩
  | destructs => cases hblocking
  | closes => cases hblocking
  | stops => cases hblocking
  | joinFails => cases hblocking
  | joins => cases hblocking

/-- A call that threw what has been recorded came back after every segment of its handler. -/
theorem Accounting.of_failure (h : Accounting m) (hrec : Recorded S m.stream m.worker)
    {pre post : List Completion} {c : Completion} (heq : m.completions = pre ++ c :: post)
    (hthrew : c.outcome = .threw (.socket (.ofType m.stream.lastEx))) :
    returnedIn pre c.fd = delivered c.fd m.stream.removals := by
  cases h pre c post heq with
  | segment hreturned =>
      rw [hreturned] at hthrew
      cases hthrew
  | withoutToken _ hpoll hthrown =>
      rw [hpoll] at hthrew
      obtain rfl := Exception.socket.inj (Outcome.threw.inj hthrew)
      generalize hlast : m.stream.lastEx = t at hthrown
      cases hthrown with
      | requested => exact absurd hlast hrec.lastEx_ne
  | failure _ _ hall => exact hall

theorem Accounting.not_outOfRange (h : Accounting m) {c : Completion} (hc : c ∈ m.completions)
    (what : String) : c.outcome ≠ .threw (.outOfRange what) := by
  obtain ⟨pre, post, heq⟩ := List.append_of_mem hc
  intro hthrew
  cases h pre c post heq with
  | segment hreturned =>
      rw [hreturned] at hthrew
      cases hthrew
  | withoutToken _ hpoll _ =>
      rw [hpoll] at hthrew
      cases hthrew
  | failure _ hfailure _ =>
      rw [hfailure] at hthrew
      cases hthrew

/-! ## After the failure -/

/-- 1 if the failure has been posted to the handler of `fd` and no call has reported it yet. -/
def Machine.unreported (m : Machine) (fd : Fd) : Nat :=
  if 0 < m.stream.failureTokens fd ∧ reportedIn m.completions fd = 0 then 1 else 0

theorem Tokens.unreported_add (h : Tokens S m) (hrec : Recorded S m.stream m.worker) (fd : Fd) :
    m.unreported fd + reportedIn m.completions fd = m.stream.failureTokens fd := by
  have hle := h.reported fd
  have hone := hrec.failureTokens_le fd
  rw [Machine.unreported]
  split <;> omega

end SocketWrapper
