import SocketWrapper.Concurrent.Lemmas.Balance

/-!
# Both calls together

A call of `read` that takes a segment leaves its token behind. A call of `readBlocking` that takes such a
token may find the queue empty.
-/

namespace SocketWrapper

open ConditionalBufferedStream Machine

variable {S : Setup} {s s' : ConditionalBufferedStream} {w w' : WorkerAt} {m m' : Machine} {fd : Fd}
  {allowed : Machine → Action → Prop} {size : Nat} {bytes : List Byte} {answers : List Answer} {consumers : Nat}

/-- The consumers call `readBlocking` and `read` for handlers, and nobody destroys the stream. -/
def Action.onlyReads (S : Setup) : Action → Bool
  | .consumer _ (.readBlocking fd _) => S.Registered fd
  | .consumer _ (.read fd) => S.Registered fd
  | .destructor => false
  | _ => true

/-- No token is left behind that could mislead: `read` finds the queue empty, or a failure has been
recorded. -/
def Machine.leavesNoToken (S : Setup) (m : Machine) : Action → Bool
  | .consumer c .pop =>
      match m.consumers[c]? with
      | some (.popping fd false) => m.stream.queue fd = [] ∨ m.stream.lastEx ≠ .SOCKET_OK
      | _ => true
  | a => a.onlyReads S

/-- `readBlocking` has taken a token and thrown `out_of_range`. -/
def Completion.Misled (c : Completion) : Prop :=
  c.token = true ∧ ∃ what, c.outcome = .threw (.outOfRange what)

theorem living_of_onlyReads {a : Action} (h : a.onlyReads S) : a ≠ .destructor := by
  rintro rfl
  cases h

theorem onlyReads_of_leavesNoToken {a : Action} (h : m.leavesNoToken S a) : a.onlyReads S := by
  cases a with
  | consumer c b => cases b <;> first | rfl | exact h
  | _ => exact h

/-! ## `last_ex` -/

theorem lastEx_of_post {o : Outcome Unit} (hv : s.stream.Valid) (hpost : s.post S fd = (o, s')) :
    s'.lastEx = s.lastEx :=
  (Extends.of_post hv hpost).lastEx

theorem lastEx_of_popAndQueue {o : Outcome Unit} {v : Int32} (hv : s.stream.Valid)
    (hpop : s.popAndQueue fd v = (o, s')) : s'.lastEx = s.lastEx := by
  obtain ⟨rs, hext⟩ := Extends.of_popAndQueue hv hpop
  exact hext.lastEx

theorem WorkerMove.lastEx (h : WorkerMove S w s w' s') (hv : s.stream.Valid) (hrec : Recorded S s w)
    (hok : s'.lastEx = .SOCKET_OK) : s.lastEx = .SOCKET_OK := by
  cases h with
  | popped hpop _ => exact lastEx_of_popAndQueue hv hpop ▸ hok
  | discarded hpop _ => exact lastEx_of_popAndQueue hv hpop ▸ hok
  | popFailed hpop => exact lastEx_of_popAndQueue hv hpop ▸ hok
  | posted hpost => exact lastEx_of_post hv hpost ▸ hok
  | postFailed hpost => exact lastEx_of_post hv hpost ▸ hok
  | records => exact absurd hok hrec.2
  | notified hpost => exact lastEx_of_post hv hpost ▸ hok
  | notifyFailed hpost => exact lastEx_of_post hv hpost ▸ hok
  | _ => exact hok

/-! ## Calls on handlers -/

/-- The handler that a consumer's call is about. -/
def ConsumerAt.on : ConsumerAt → Option Fd
  | .idle => none
  | .polling fd _ => some fd
  | .expired fd => some fd
  | .taking fd => some fd
  | .popping fd _ => some fd

/-- Every call is about a handler. -/
def CallsHandlers (S : Setup) (m : Machine) : Prop :=
  ∀ x ∈ m.consumers, ∀ fd, x.on = some fd → S.Registered fd

theorem CallsHandlers.set (h : CallsHandlers S m) {c : Nat} {place : ConsumerAt}
    (hplace : ∀ fd, place.on = some fd → S.Registered fd) :
    ∀ x ∈ m.consumers.set c place, ∀ fd, x.on = some fd → S.Registered fd := by
  intro x hx
  rcases List.mem_or_eq_of_mem_set hx with hold | rfl
  · exact h x hold
  · exact hplace

theorem CallsHandlers.consumer (h : CallsHandlers S m) {c : Nat} {a : ConsumerAction}
    (hreads : (Action.consumer c a).onlyReads S) (hmove : ConsumerMove m c a m') :
    CallsHandlers S m' := by
  have hkept : ∀ {x place : ConsumerAt}, m.consumers[c]? = some x → place.on = x.on →
      ∀ fd, place.on = some fd → S.Registered fd :=
    fun hc hon fd hfd => h _ (List.mem_of_getElem? hc) fd (hon ▸ hfd)
  have hcalled : ∀ {fd : Fd}, S.Registered fd → ∀ fd', some fd = some fd' → S.Registered fd' := by
    rintro fd hfd _ ⟨⟩
    exact hfd
  cases hmove with
  | calls => exact h.set (hcalled (by simpa [Action.onlyReads] using hreads))
  | callsRead => exact h.set (hcalled (by simpa [Action.onlyReads] using hreads))
  | ready hc => exact h.set (hkept hc rfl)
  | expires hc => exact h.set (hkept hc rfl)
  | fails => exact h.set nofun
  | throws => exact h.set nofun
  | takesNothing hc => exact h.set (hkept hc rfl)
  | takes hc => exact h.set (hkept hc rfl)
  | pops => exact h.set nofun

/-! ## The invariant -/

/-- As long as no failure is recorded, the calls that came back without a segment for their token are
those that were misled. -/
structure Mixed (S : Setup) (m : Machine) : Prop where
  calls : CallsHandlers S m
  misled : m.stream.lastEx = .SOCKET_OK → ∀ c ∈ m.completions, c.reported = true → c.Misled

theorem Mixed.complete (h : Mixed S m) {c : Nat} {token : Bool} {o : Outcome (List Byte)}
    (hlast : s.lastEx = m.stream.lastEx)
    (hnew : m.stream.lastEx = .SOCKET_OK → Completion.reported ⟨c, fd, token, o⟩ = true →
      Completion.Misled ⟨c, fd, token, o⟩) :
    Mixed S ({ m with stream := s }.complete c fd token o) := by
  refine ⟨h.calls.set nofun, fun hok d hd hreported => ?_⟩
  have hok' : m.stream.lastEx = .SOCKET_OK := hlast ▸ hok
  rcases List.mem_append.mp hd with hold | hlast
  · exact h.misled hok' d hold hreported
  · obtain rfl := List.mem_singleton.mp hlast
    exact hnew hok' hreported

theorem Mixed.pops (h : Mixed S m) (hentries : HasEntries S m) {c : Nat} {token : Bool}
    (hc : m.consumers[c]? = some (.popping fd token)) :
    Mixed S ({ m with stream := (m.stream.read fd).2 }.complete c fd token (m.stream.read fd).1) := by
  have hread := read_cases m.stream fd
  generalize m.stream.read fd = r at hread ⊢
  cases hread with
  | segment => exact h.complete rfl fun _ hreported => by cases hreported
  | failed _ hlast => exact h.complete rfl fun hok => absurd hok hlast
  | nothing => exact h.complete rfl fun _ hreported => ⟨hreported, _, rfl⟩
  | invalid _ hnone =>
      have hsome := hentries fd (h.calls _ (List.mem_of_getElem? hc) fd rfl)
      rw [hnone] at hsome
      cases hsome

theorem Mixed.move {a : Action} (h : Mixed S m) (hv : m.stream.stream.Valid)
    (hrec : Recorded S m.stream m.worker) (hentries : HasEntries S m) (ha : a.onlyReads S)
    (hmove : Move S m a m') : Mixed S m' := by
  cases hmove with
  | start => exact ⟨h.calls, h.misled⟩
  | worker hw => exact ⟨h.calls, fun hok => h.misled (hw.lastEx hv hrec hok)⟩
  | consumer hc =>
      have hcalls := h.calls.consumer ha hc
      cases hc with
      | fails => exact h.complete rfl fun _ hreported => by cases hreported
      | throws => exact h.complete rfl fun _ hreported => by cases hreported
      | pops hc => exact h.pops hentries hc
      | _ => exact ⟨hcalls, h.misled⟩
  | stopReads => exact ⟨h.calls, h.misled⟩
  | stopStream => exact ⟨h.calls, h.misled⟩
  | _ => cases ha

theorem Mixed.of_reach (hallowed : ∀ m a, allowed m a → a.onlyReads S)
    (h : Transition.Reach (Machine.step S) allowed (.connected S size bytes answers consumers) m) :
    Mixed S m := by
  have hstart : Mixed S (.connected S size bytes answers consumers) := by
    refine ⟨fun x hx => ?_, fun _ _ hnone => absurd hnone List.not_mem_nil⟩
    rw [List.eq_of_mem_replicate hx]
    exact nofun
  refine h.invariant_of (P := Mixed S) hstart
    (fun _ hr => And.intro (Conserved.of_reach hr) (And.intro (Recorded.of_reach hr)
      (HasEntries.of_reach hr))) fun m a _ hq hm ha hstep => ?_
  obtain ⟨hconserved, hrec, hentries⟩ := hq
  exact hm.move hconserved.valid hrec hentries (hallowed m a ha) (move_of_step hstep).2

/-! ## Runs that leave no token behind -/

/-- The call returned a segment or threw a `SocketException`. -/
def Completion.Proper (c : Completion) : Prop :=
  (∃ data, c.outcome = .returned data) ∨ ∃ ex, c.outcome = .threw (.socket ex)

/-- A call that comes back before it has come to `read` throws what its `::poll` tells it to. -/
theorem proper_of_poll {c : Nat} {a : ConsumerAction} (hmove : ConsumerMove m c a m') (ha : a ≠ .pop) :
    ∀ d ∈ m'.completions, d ∈ m.completions ∨ d.Proper := by
  have hadded : ∀ {d : Completion}, d.Proper →
      ∀ e ∈ m.completions ++ [d], e ∈ m.completions ∨ e.Proper := by
    intro d hd e he
    rcases List.mem_append.mp he with hold | hnew
    · exact .inl hold
    · exact .inr (List.mem_singleton.mp hnew ▸ hd)
  cases hmove with
  | fails => exact hadded (.inr ⟨_, rfl⟩)
  | throws =>
      refine hadded (.inr ?_)
      rw [pollExpired]
      split <;> exact ⟨_, rfl⟩
  | pops => exact absurd rfl ha
  | _ => exact fun d hd => .inl hd

/-- Until a failure is recorded no token is without its segment. -/
structure Trusted (m : Machine) : Prop where
  alone : m.stream.lastEx = .SOCKET_OK → ∀ fd, takenIn m.completions fd = 0
  proper : ∀ c ∈ m.completions, c.token = true → c.Proper

theorem Trusted.complete (h : Trusted m) {c : Nat} {token : Bool} {o : Outcome (List Byte)}
    (hlast : s.lastEx = m.stream.lastEx)
    (halone : m.stream.lastEx = .SOCKET_OK → Completion.takenAlone ⟨c, fd, token, o⟩ = false)
    (hproper : token = true → Completion.Proper ⟨c, fd, token, o⟩) :
    Trusted ({ m with stream := s }.complete c fd token o) := by
  refine ⟨fun hok fd' => ?_, fun d hd htoken => ?_⟩
  · have hok' : m.stream.lastEx = .SOCKET_OK := hlast ▸ hok
    show takenIn (m.completions ++ [_]) fd' = 0
    rw [takenIn_append, h.alone hok', halone hok']
    simp
  · rcases List.mem_append.mp hd with hold | hnew
    · exact h.proper d hold htoken
    · obtain rfl := List.mem_singleton.mp hnew
      exact hproper htoken

/-- A call that has taken a token finds a segment or a recorded failure. -/
theorem Trusted.lastEx_ne (h : Trusted m) (hbalanced : Balanced S m)
    (hrec : Recorded S m.stream m.worker) {c : Nat} (hc : m.consumers[c]? = some (.popping fd true))
    (hempty : m.stream.queue fd = []) : m.stream.lastEx ≠ .SOCKET_OK := by
  intro hok
  have hpending := pending_pos hc
  have halone := h.alone hok fd
  have htokens : m.stream.failureTokens fd = 0 := by
    by_contra hne
    exact (hrec.of_posted (Nat.pos_of_ne_zero hne)).1 hok
  obtain ⟨lost, hall, -⟩ := hbalanced.balance fd
  rw [hempty, halone, htokens, List.length_nil] at hall
  omega

theorem Trusted.pops (h : Trusted m) (hbalanced : Balanced S m) (hrec : Recorded S m.stream m.worker)
    {c : Nat} {token : Bool} (hc : m.consumers[c]? = some (.popping fd token))
    (ha : m.leavesNoToken S (.consumer c .pop)) :
    Trusted ({ m with stream := (m.stream.read fd).2 }.complete c fd token (m.stream.read fd).1) := by
  have hread := read_cases m.stream fd
  generalize m.stream.read fd = r at hread ⊢
  cases hread with
  | segment hqueue =>
      refine h.complete rfl (fun hok => ?_) fun _ => .inl ⟨_, rfl⟩
      cases token with
      | true => rfl
      | false => simp [leavesNoToken, hc, hqueue, hok] at ha
  | failed => exact h.complete rfl (fun _ => rfl) fun _ => .inr ⟨_, rfl⟩
  | nothing hempty hlast =>
      refine h.complete rfl (fun _ => rfl) fun htoken => ?_
      subst htoken
      exact absurd hlast (h.lastEx_ne hbalanced hrec hc hempty)
  | invalid => exact h.complete rfl (fun _ => rfl) fun _ => .inr ⟨_, rfl⟩

theorem Trusted.move {a : Action} (h : Trusted m) (hbalanced : Balanced S m)
    (hv : m.stream.stream.Valid) (hrec : Recorded S m.stream m.worker)
    (ha : m.leavesNoToken S a) (hmove : Move S m a m') : Trusted m' := by
  cases hmove with
  | worker hw => exact ⟨fun hok => h.alone (hw.lastEx hv hrec hok), h.proper⟩
  | consumer hc =>
      cases hc with
      | fails => exact h.complete rfl (fun _ => rfl) nofun
      | throws => exact h.complete rfl (fun _ => rfl) nofun
      | pops hc => exact h.pops hbalanced hrec hc ha
      | _ => exact ⟨h.alone, h.proper⟩
  | _ => exact ⟨h.alone, h.proper⟩

theorem Trusted.of_reach
    (h : Transition.Reach (Machine.step S) (fun m a => m.leavesNoToken S a)
      (.connected S size bytes answers consumers) m) : Trusted m := by
  refine h.invariant_of (P := Trusted)
    ⟨fun _ _ => rfl, fun _ hnone => absurd hnone List.not_mem_nil⟩
    (fun _ hr => And.intro
      (Balanced.of_reach (fun _ _ ha => living_of_onlyReads (onlyReads_of_leavesNoToken ha)) hr)
      (And.intro (Conserved.of_reach hr) (Recorded.of_reach hr)))
    fun m a _ hq hm ha hstep => ?_
  obtain ⟨hbalanced, hconserved, hrec⟩ := hq
  exact hm.move hbalanced hconserved.valid hrec ha (move_of_step hstep).2

/-! ## A token that is left behind -/

/-- The worker and the destructor let the consumers go on. -/
structure Machine.Going (m : Machine) : Prop where
  contained : ∀ e, m.worker ≠ .terminated e
  alive : m.destructor = .alive

theorem Machine.Going.step_eq (h : m.Going) (a : Action) : m.step S a = m.act S a := by
  have hhalted : m.halted = false := by
    cases hw : m.worker with
    | terminated e => exact absurd hw (h.contained e)
    | _ => simp [Machine.halted, hw, h.alive]
  simp [Machine.step, hhalted]

theorem Machine.Going.exists_token (h : m.Going) (hopened : m.stream.eventFds.closed = [])
    (hfd : S.Registered fd) (hpos : 0 < m.stream.eventFds.counter fd) {c : Nat}
    (hc : m.consumers[c]? = some .idle) :
    Transition.Reach (Machine.step S) (fun _ a => a.onlyReads S) m
      ({ m with stream := m.stream.takeToken fd }.moveTo c (.popping fd true)) := by
  have hlt : c < m.consumers.length := (List.getElem?_eq_some_iff.mp hc).1
  have hcall : m.step S (.consumer c (.readBlocking fd (-1))) = some (m.moveTo c (.polling fd (-1))) := by
    rw [h.step_eq]
    simp [Machine.act, consumerStep, hc]
  have hready : (m.moveTo c (.polling fd (-1))).step S (.consumer c .pollReady) =
      some (m.moveTo c (.taking fd)) := by
    have hgoing : (m.moveTo c (.polling fd (-1))).Going := ⟨h.contained, h.alive⟩
    rw [hgoing.step_eq]
    simp [Machine.act, consumerStep, hlt, hpos, hopened, Machine.moveTo]
  have htake : (m.moveTo c (.taking fd)).step S (.consumer c .takeToken) =
      some ({ m with stream := m.stream.takeToken fd }.moveTo c (.popping fd true)) := by
    have hgoing : (m.moveTo c (.taking fd)).Going := ⟨h.contained, h.alive⟩
    rw [hgoing.step_eq]
    simp [Machine.act, consumerStep, hlt, hpos, hopened, Machine.moveTo]
  exact .head (a := .consumer c (.readBlocking fd (-1))) (by simpa [Action.onlyReads] using hfd) hcall
    (.head (a := .consumer c .pollReady) rfl hready (.single (a := .consumer c .takeToken) rfl htake))

/-- Some call of `readBlocking` is misled in a state that reads, the worker and stops lead to. -/
def Machine.MayMislead (S : Setup) (m : Machine) : Prop :=
  ∃ m', Transition.Reach (Machine.step S) (fun _ a => a.onlyReads S) m m' ∧ ∃ c ∈ m'.completions, c.Misled

theorem Machine.MayMislead.head (h : Transition.Reach (Machine.step S) (fun _ a => a.onlyReads S) m m')
    (hmay : m'.MayMislead S) : m.MayMislead S := by
  obtain ⟨m'', hreach, hmisled⟩ := hmay
  exact ⟨m'', h.trans hreach, hmisled⟩

/-- There is a token too many for a handler, and nothing yet that would explain it. -/
structure Loose (S : Setup) (m : Machine) (fd : Fd) : Prop where
  going : m.Going
  healthy : m.stream.lastEx = .SOCKET_OK
  registered : S.Registered fd
  alone : 0 < takenIn m.completions fd
  unposted : m.worker.unposted fd = 0

/-- A call that has taken a token is misled, or comes back with a segment. -/
theorem Loose.pops {c d : Nat} (h : Loose S m fd) (hentries : HasEntries S m)
    (hd : m.consumers[d]? = some (.popping fd true)) (hc : c = d ∨ m.consumers[c]? = some .idle) :
    ∃ m', m.step S (.consumer d .pop) = some m' ∧ ((∃ c ∈ m'.completions, c.Misled) ∨
      Loose S m' fd ∧ m'.consumers[c]? = some .idle ∧
        (m'.stream.queue fd).length < (m.stream.queue fd).length) := by
  have hstep : m.step S (.consumer d .pop) =
      some ({ m with stream := (m.stream.read fd).2 }.complete d fd true (m.stream.read fd).1) := by
    rw [h.going.step_eq]
    simp [Machine.act, consumerStep, hd]
  have hread := read_cases m.stream fd
  generalize m.stream.read fd = r at hread hstep
  cases hread with
  | @segment data rest hqueue =>
      refine ⟨_, hstep, .inr ⟨⟨⟨h.going.contained, h.going.alive⟩, h.healthy, h.registered, ?_,
        h.unposted⟩, ?_, ?_⟩⟩
      · show 0 < takenIn (m.completions ++ [_]) fd
        rw [takenIn_append]
        exact Nat.lt_of_lt_of_le h.alone (Nat.le_add_right _ _)
      · show (m.consumers.set d .idle)[c]? = some .idle
        have hlt : d < m.consumers.length := (List.getElem?_eq_some_iff.mp hd).1
        by_cases hcd : d = c
        · subst hcd
          rw [List.getElem?_set_self hlt]
        · rw [List.getElem?_set_ne hcd]
          exact hc.resolve_left (Ne.symm hcd)
      · show ((dequeued m.stream fd rest).queue fd).length < _
        rw [queue_dequeued_self, hqueue]
        exact Nat.lt_succ_self _
  | failed _ hlast => exact absurd h.healthy hlast
  | @nothing what _ _ =>
      exact ⟨_, hstep, .inl ⟨⟨d, fd, true, .threw (.outOfRange what)⟩,
        List.mem_append_right _ (List.mem_singleton.mpr rfl), rfl, what, rfl⟩⟩
  | invalid _ hnone =>
      have hsome := hentries fd h.registered
      rw [hnone] at hsome
      cases hsome

/-- The token is on the eventfd or taken, unless a call has been misled already. -/
theorem Loose.exists_popping (h : Loose S m fd) (hwrite : ∀ n, S.eventfdWrite n = none)
    (hbalanced : Balanced S m) (hmixed : Mixed S m) {c : Nat} (hc : m.consumers[c]? = some .idle) :
    (∃ c ∈ m.completions, c.Misled) ∨ ∃ m' d,
      Transition.Reach (Machine.step S) (fun _ a => a.onlyReads S) m m' ∧ Loose S m' fd ∧
      m'.consumers[d]? = some (.popping fd true) ∧ (c = d ∨ m'.consumers[c]? = some .idle) ∧
      m'.stream.queue fd = m.stream.queue fd := by
  obtain ⟨lost, hall, hnone⟩ := hbalanced.balance fd
  rw [hnone hwrite, h.unposted] at hall
  have halone := h.alone
  by_cases hreported : 0 < reportedIn m.completions fd
  · obtain ⟨d, hd, hfd⟩ := List.countP_pos_iff.mp hreported
    exact .inl ⟨d, hd, hmixed.misled h.healthy d hd (by simpa using (of_decide_eq_true hfd).2)⟩
  · by_cases hpending : 0 < m.pending fd
    · obtain ⟨x, hx, hpopping⟩ := List.countP_pos_iff.mp hpending
      obtain rfl : x = .popping fd true := of_decide_eq_true hpopping
      obtain ⟨d, hd⟩ := List.mem_iff_getElem?.mp hx
      exact .inr ⟨m, d, .refl, h, hd, .inr hc, rfl⟩
    · have hlt : c < m.consumers.length := (List.getElem?_eq_some_iff.mp hc).1
      have hreach := h.going.exists_token hbalanced.opened h.registered (by omega) hc
      have hloose : Loose S ({ m with stream := m.stream.takeToken fd }.moveTo c (.popping fd true)) fd :=
        ⟨⟨h.going.contained, h.going.alive⟩, h.healthy, h.registered, h.alone, h.unposted⟩
      refine .inr ⟨_, c, hreach, hloose, ?_, .inl rfl, rfl⟩
      show (m.consumers.set c _)[c]? = _
      rw [List.getElem?_set_self hlt]

theorem Loose.mayMislead (hwrite : ∀ n, S.eventfdWrite n = none) {c : Nat} (h : Loose S m fd)
    (hreach : Transition.Reach (Machine.step S) (fun _ a => a.onlyReads S)
      (.connected S size bytes answers consumers) m)
    (hc : m.consumers[c]? = some .idle) : m.MayMislead S := by
  generalize hn : (m.stream.queue fd).length = n
  -- each round takes a segment off the queue
  induction n using Nat.strongRecOn generalizing m with
  | _ n ih =>
      have hbalanced := Balanced.of_reach (fun _ _ => living_of_onlyReads) hreach
      rcases h.exists_popping hwrite hbalanced (Mixed.of_reach (fun _ _ ha => ha) hreach) hc with
        hmisled | ⟨m₁, d, hreach₁, hloose₁, hd, hc₁, hqueue₁⟩
      · exact ⟨m, .refl, hmisled⟩
      · obtain ⟨m₂, hstep, hmisled | ⟨hloose₂, hc₂, hlt⟩⟩ :=
          hloose₁.pops (HasEntries.of_reach (hreach.trans hreach₁)) hd hc₁
        · exact .head hreach₁ ⟨m₂, .single (a := .consumer d .pop) rfl hstep, hmisled⟩
        · have hreach₂ := hreach₁.tail (a := .consumer d .pop) rfl hstep
          refine .head hreach₂ (ih _ ?_ hloose₂ (hreach.trans hreach₂) hc₂ rfl)
          rw [← hn, ← hqueue₁]
          exact hlt

theorem exists_posted (hwrite : ∀ n, S.eventfdWrite n = none) (hgoing : m.Going)
    (hopened : m.stream.eventFds.closed = []) (fd : Fd) :
    ∃ m', Transition.Reach (Machine.step S) (fun _ a => a.onlyReads S) m m' ∧ m'.Going ∧
      m'.worker.unposted fd = 0 ∧ m'.stream.lastEx = m.stream.lastEx ∧
      m'.consumers = m.consumers ∧ m'.completions = m.completions := by
  by_cases hposted : m.worker.unposted fd = 0
  · exact ⟨m, .refl, hgoing, hposted, rfl, rfl, rfl⟩
  · cases hw : m.worker with
    | posting fd' v frame frames =>
        have hpost : m.stream.post S fd' = _ := post_of_accepted (by simp [hopened]) (hwrite _)
        have hstep : m.step S .worker = some { m with
            worker := .recurse S v frame frames, stream := m.stream.posted fd' } := by
          rw [hgoing.step_eq]
          simp [Machine.act, workerStep, hw, hpost]
        have hcontained : ∀ e, WorkerAt.recurse S v frame frames ≠ .terminated e := by simp [WorkerAt.recurse]
        exact ⟨_, .single (a := .worker) rfl hstep, ⟨hcontained, hgoing.alive⟩, rfl, rfl, rfl, rfl⟩
    | _ =>
        rw [hw] at hposted
        exact absurd rfl hposted

/-- If `read` takes a segment while no failure is recorded, a call of `readBlocking` may be misled. -/
theorem mayMislead_of_token_left (hwrite : ∀ n, S.eventfdWrite n = none) {a : Action}
    (hreach : Transition.Reach (Machine.step S) (fun _ a => a.onlyReads S)
      (.connected S size bytes answers consumers) m)
    (hstep : m.step S a = some m') (hreads : a.onlyReads S) (ha : ¬ m.leavesNoToken S a) :
    m'.MayMislead S := by
  have hliving : ∀ (_ : Machine) (a : Action), a.onlyReads S → a ≠ .destructor :=
    fun _ _ => living_of_onlyReads
  have hreach' := hreach.tail hreads hstep
  obtain ⟨hhalted, hmove⟩ := move_of_step hstep
  cases hmove with
  | @consumer c _ _ hc =>
      cases hc with
      | @pops fd token hc =>
          cases token with
          | true => simp [leavesNoToken, hc] at ha
          | false =>
              simp only [leavesNoToken, hc, decide_eq_true_eq, not_or, not_not] at ha
              obtain ⟨hqueue, hok⟩ := ha
              have hregistered := (Mixed.of_reach (fun _ _ ha => ha) hreach).calls _
                (List.mem_of_getElem? hc) fd rfl
              have hlt : c < m.consumers.length := (List.getElem?_eq_some_iff.mp hc).1
              have hread := read_cases m.stream fd
              generalize m.stream.read fd = r at hread hstep hreach' ⊢
              cases hread with
              | @segment data rest _ =>
                  have hcontained : ∀ e, m.worker ≠ .terminated e := by
                    intro e hw
                    simp [halted, hw] at hhalted
                  have halive := alive_of_reach hliving hreach
                  have hgoing : ({ m with stream := dequeued m.stream fd rest }.complete c fd false
                      (.returned data)).Going := ⟨hcontained, halive⟩
                  obtain ⟨m₁, hreach₁, hgoing₁, hunposted, hlast, hconsumers, hcompletions⟩ :=
                    exists_posted hwrite hgoing (Balanced.of_reach hliving hreach').opened fd
                  have halone : 0 < takenIn m₁.completions fd := by
                    rw [hcompletions, Machine.completions_complete, takenIn_append]
                    simp [Completion.takenAlone]
                  have hidle : m₁.consumers[c]? = some .idle := by
                    rw [hconsumers, Machine.consumers_complete, List.getElem?_set_self hlt]
                  have hloose : Loose S m₁ fd :=
                    ⟨hgoing₁, hlast.trans hok, hregistered, halone, hunposted⟩
                  exact .head hreach₁ (hloose.mayMislead hwrite (hreach'.trans hreach₁) hidle)
              | failed hempty => exact absurd hempty hqueue
              | nothing hempty => exact absurd hempty hqueue
              | invalid hempty => exact absurd hempty hqueue
      | _ => exact absurd hreads ha
  | _ => exact absurd hreads ha

end SocketWrapper
