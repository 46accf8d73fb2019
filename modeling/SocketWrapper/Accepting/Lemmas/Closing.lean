import SocketWrapper.Accepting.Stops

/-!
# How often the socket is closed

The flag is loaded before the `::close` and stored after it. With one thread at a time in between, the
calls have three phases: before that thread, while it is there, and after it.
-/

namespace SocketWrapper

open Transition

/-- The place after the `::write`. -/
def Stoppable.afterPosting : Stoppable → StopAt
  | .listener => .closing
  | .listenerBase _ => .asking

/-- The places that a call of the handler thread gets to. -/
def StopAt.beforeJoin : StopAt → Prop
  | .loading => True
  | .posting => True
  | .asking => True
  | .entering => True
  | _ => False

namespace Stops

variable {m m' : Stops} {t u n : Nat} {call : StopCall} {p q : StopAt} {object : Stoppable}
  {allowed : Stops → Action → Prop}

/-! ## The steps -/

inductive Moves (m : Stops) : Action → Stops → Prop
  | calls {t : Nat} : m.calls.Idle t → (m.handler? = some t → m.handlerEnded = false) →
      Moves m (.call t) { m with calls := m.calls.enter t ⟨.loading, false⟩ }
  | destroys {t : Nat} : m.calls.Idle t → m.handler? ≠ some t →
      Moves m (.destroy t) { m with calls := m.calls.enter t ⟨.loading, true⟩, destroying := true }
  | finds {t n : Nat} {call : StopCall} : m.calls.At t n call → call.place = .loading →
      m.stoppedAccepting = true → Moves m (.advance t) (m.complete t call)
  | passes {t n : Nat} {call : StopCall} : m.calls.At t n call → call.place = .loading →
      m.stoppedAccepting = false → Moves m (.advance t) (m.moveTo t n call .posting)
  | posts {t n : Nat} {call : StopCall} : m.calls.At t n call → call.place = .posting →
      Moves m (.advance t)
        ({ m with endEvent := m.endEvent + 65535 }.moveTo t n call m.object.afterPosting)
  | asks {t n : Nat} {call : StopCall} : m.calls.At t n call → call.place = .asking →
      Moves m (.advance t) (m.moveTo t n call (if m.joinable then .entering else .closing))
  | enters {t n : Nat} {call : StopCall} : m.calls.At t n call → call.place = .entering →
      m.joinable = true → m.handler? ≠ some t → Moves m (.advance t) (m.moveTo t n call .joining)
  | fails {t n : Nat} {call : StopCall} : m.calls.At t n call → call.place = .entering →
      m.joinable = false ∨ m.handler? = some t → Moves m (.advance t) (m.fail t call)
  | joins {t n : Nat} {call : StopCall} : m.calls.At t n call → call.place = .joining →
      m.handlerEnded = true →
      Moves m (.advance t) ({ m with joinable := false, joins := m.joins + 1 }.moveTo t n call .closing)
  | closes {t n : Nat} {call : StopCall} : m.calls.At t n call → call.place = .closing →
      Moves m (.advance t) ({ m with closes := m.closes + 1 }.moveTo t n call .storing)
  | stores {t n : Nat} {call : StopCall} : m.calls.At t n call → call.place = .storing →
      Moves m (.advance t) ({ m with stoppedAccepting := true }.complete t call)
  | handlerEnds {handler : Nat} : m.handler? = some handler → m.calls.call? handler = none →
      Moves m .handlerEnds { m with handlerEnded := true }

theorem moves_of_advance (hat : m.calls.At t n call) (h : m.advance t n call = some m') :
    Moves m (.advance t) m' := by
  simp only [advance] at h
  split at h
  · rename_i hplace
    cases h
    cases hstopped : m.stoppedAccepting with
    | true => exact .finds hat hplace hstopped
    | false => exact .passes hat hplace hstopped
  · rename_i hplace
    cases h
    exact .posts hat hplace
  · rename_i hplace
    cases h
    exact .asks hat hplace
  · rename_i hplace
    split at h
    · rename_i hjoin
      cases h
      exact .enters hat hplace hjoin.1 hjoin.2
    · rename_i hjoin
      cases h
      refine .fails hat hplace ?_
      by_cases hjoinable : m.joinable = true
      · exact .inr (not_not.mp fun hne => hjoin ⟨hjoinable, hne⟩)
      · exact .inl (Bool.not_eq_true _ ▸ hjoinable)
  · rename_i hplace
    split at h
    · rename_i hended
      cases h
      exact .joins hat hplace hended
    · cases h
  · rename_i hplace
    cases h
    exact .closes hat hplace
  · rename_i hplace
    cases h
    exact .stores hat hplace

theorem moves_of_step {a : Action} (h : m.step a = some m') : Moves m a m' := by
  simp only [step] at h
  split at h
  · cases h
  · cases a with
    | call t =>
        simp only [act] at h
        split at h
        · rename_i hmay
          cases h
          exact .calls hmay.1 fun hhandler => by simpa using hmay.2.2 hhandler
        · cases h
    | destroy t =>
        simp only [act] at h
        split at h
        · rename_i hmay
          cases h
          exact .destroys hmay.1 hmay.2.2.1
        · cases h
    | advance t =>
        simp only [act] at h
        split at h
        · rename_i hat
          exact moves_of_advance (Calls.call?_eq_some.mp hat) h
        · cases h
    | handlerEnds =>
        simp only [act] at h
        split at h
        · rename_i hhandler
          split at h
          · rename_i hmay
            cases h
            exact .handlerEnds hhandler hmay.1
          · cases h
        · cases h

/-! ## Whatever the threads do -/

/-- There is a thread to join as long as the handler runs, and a call in it gets no further than that. -/
structure Sound (m : Stops) : Prop where
  running : ∀ {t}, m.handler? = some t → m.handlerEnded = false → m.joinable = true
  joinable : m.joinable = true → ∃ t, m.handler? = some t
  handler : ∀ {t n call}, m.handler? = some t → m.calls.At t n call →
    m.handlerEnded = false ∧ call.place.beforeJoin ∧ call.destructor = false
  destroyed : m.destroyed = true → m.stoppedAccepting = true

theorem sound_start (object : Stoppable) (threads : Nat) : Sound (start object threads) where
  running {t} hhandler _ := by
    cases object with
    | listener => cases hhandler
    | listenerBase handler =>
        simp only [handler?, start] at hhandler
        simp [start, hhandler]
  joinable hjoinable := by
    cases object with
    | listener => cases hjoinable
    | listenerBase handler => exact Option.isSome_iff_exists.mp hjoinable
  handler _ hat := absurd hat Calls.not_at_start
  destroyed := nofun

/-- The call goes on at a place that the handler thread may get to, or it is another thread's. -/
theorem Sound.moveTo (h : Sound m) (hat : m.calls.At t n call)
    (hplace : m.handler? = some t → p.beforeJoin) : Sound (m.moveTo t n call p) where
  running := h.running
  joinable := h.joinable
  handler hhandler hother := by
    rcases Calls.of_goOn hother with ⟨rfl, -, rfl⟩ | ⟨-, hold⟩
    · exact ⟨(h.handler hhandler hat).1, hplace hhandler, (h.handler hhandler hat).2.2⟩
    · exact h.handler hhandler hold
  destroyed := h.destroyed

theorem Sound.move {a : Action} (h : Sound m) (hmoves : Moves m a m') : Sound m' := by
  cases hmoves with
  | calls hidle hended =>
      refine ⟨h.running, h.joinable, fun hhandler hat => ?_, h.destroyed⟩
      rcases Calls.of_enter hat with ⟨rfl, -, rfl⟩ | ⟨-, hold⟩
      · exact ⟨hended hhandler, trivial, rfl⟩
      · exact h.handler hhandler hold
  | destroys hidle hother =>
      refine ⟨h.running, h.joinable, fun hhandler hat => ?_, h.destroyed⟩
      rcases Calls.of_enter hat with ⟨rfl, -, rfl⟩ | ⟨-, hold⟩
      · exact absurd hhandler hother
      · exact h.handler hhandler hold
  | finds hat _ hstopped =>
      exact ⟨h.running, h.joinable, fun hhandler hother => h.handler hhandler (Calls.of_leave hother).2,
        fun _ => hstopped⟩
  | passes hat _ _ => exact h.moveTo hat fun _ => trivial
  | @posts t n call hat hplace =>
      have hposted : Sound { m with endEvent := m.endEvent + 65535 } :=
        ⟨h.running, h.joinable, h.handler, h.destroyed⟩
      refine hposted.moveTo hat fun hhandler => ?_
      cases hobject : m.object with
      | listener => simp [handler?, hobject] at hhandler
      | listenerBase => exact trivial
  | asks hat _ =>
      refine h.moveTo hat fun hhandler => ?_
      rw [h.running hhandler (h.handler hhandler hat).1]
      exact trivial
  | enters hat _ _ hother => exact h.moveTo hat fun hhandler => absurd hhandler hother
  | fails hat _ _ =>
      exact ⟨h.running, h.joinable, fun hhandler hother => h.handler hhandler (Calls.of_leave hother).2,
        h.destroyed⟩
  | joins hat hplace hended =>
      have hother {t' : Nat} (hhandler : m.handler? = some t') : m.handlerEnded = false → False :=
        fun hrunning => by rw [hended] at hrunning; cases hrunning
      have hjoined : Sound { m with joinable := false, joins := m.joins + 1 } :=
        ⟨fun hhandler hrunning => (hother hhandler hrunning).elim, nofun, h.handler, h.destroyed⟩
      exact hjoined.moveTo hat fun hhandler => (hother hhandler (h.handler hhandler hat).1).elim
  | closes hat hplace =>
      have hclosed : Sound { m with closes := m.closes + 1 } :=
        ⟨h.running, h.joinable, h.handler, h.destroyed⟩
      refine hclosed.moveTo hat fun hhandler => ?_
      have hbefore := (h.handler hhandler hat).2.1
      rw [hplace] at hbefore
      exact hbefore.elim
  | stores hat _ =>
      exact ⟨h.running, h.joinable, fun hhandler hother => h.handler hhandler (Calls.of_leave hother).2,
        fun _ => rfl⟩
  | handlerEnds hhandler hnone =>
      refine ⟨nofun, h.joinable, fun hhandler' hat => ?_, h.destroyed⟩
      obtain rfl := Option.some.inj (hhandler.symm.trans hhandler')
      rw [Calls.call?_eq_some.mpr hat] at hnone
      cases hnone

theorem Sound.reach (h : Sound m) (hreach : Reach step allowed m m') : Sound m' :=
  hreach.invariant h fun _ _ _ hm _ hstep => hm.move (moves_of_step hstep)

theorem Sound.of_reach {threads : Nat} (h : Reach step allowed (start object threads) m) : Sound m :=
  (sound_start object threads).reach h

/-- Only another thread than the handler gets past the join. -/
theorem Sound.not_handler (h : Sound m) (hat : m.calls.At t n call) (hplace : call.place = p)
    (hp : ¬ p.beforeJoin) : m.handler? ≠ some t :=
  fun hself => hp (hplace ▸ (h.handler hself hat).2.1)

/-! ## One thread at a time -/

/-- A thread that can join is at a place past the load of the flag. -/
def InsideAt (m : Stops) (t : Nat) (p : StopAt) : Prop :=
  m.handler? ≠ some t ∧ p ≠ .loading ∧ ∃ n d, m.calls.At t n ⟨p, d⟩

theorem inside_iff : m.Inside t ↔ ∃ p, m.InsideAt t p := by
  constructor
  · rintro ⟨hne, ⟨n, call⟩, hat, hplace⟩
    exact ⟨call.place, hne, hplace, n, call.destructor, Calls.call?_eq_some.mp hat⟩
  · rintro ⟨p, hne, hplace, n, d, hat⟩
    exact ⟨hne, (n, ⟨p, d⟩), Calls.call?_eq_some.mpr hat, hplace⟩

/-- What has been done at a place. -/
structure Progress (m : Stops) (p : StopAt) : Prop where
  closes : m.closes = if p = .storing then 1 else 0
  joins : m.joins ≤ if p = .closing ∨ p = .storing then 1 else 0
  joinable : p = .entering ∨ p = .joining → m.joinable = true
  joined : p = .closing ∨ p = .storing → m.joinable = false

theorem Progress.posts (h : m.Progress .posting) (hs : Sound m) :
    Progress { m with endEvent := m.endEvent + 65535 } m.object.afterPosting := by
  have hcloses : m.closes = 0 := by simpa using h.closes
  have hjoins : m.joins = 0 := by simpa using h.joins
  cases hobject : m.object with
  | listenerBase => exact ⟨by simp [Stoppable.afterPosting, hcloses], by simp [hjoins],
      by simp [Stoppable.afterPosting], by simp [Stoppable.afterPosting]⟩
  | listener =>
      refine ⟨by simp [Stoppable.afterPosting, hcloses], by simp [hjoins],
        by simp [Stoppable.afterPosting], fun _ => ?_⟩
      by_contra hjoinable
      obtain ⟨t', hhandler⟩ := hs.joinable (by simpa using hjoinable)
      simp [handler?, hobject] at hhandler

theorem Progress.asks (h : m.Progress .asking) :
    m.Progress (if m.joinable then .entering else .closing) := by
  have hcloses : m.closes = 0 := by simpa using h.closes
  have hjoins : m.joins = 0 := by simpa using h.joins
  cases hjoinable : m.joinable with
  | true => exact ⟨by simp [hcloses], by simp [hjoins], fun _ => hjoinable, by simp⟩
  | false => exact ⟨by simp [hcloses], by simp [hjoins], by simp, fun _ => hjoinable⟩

theorem Progress.enters (h : m.Progress .entering) : m.Progress .joining :=
  ⟨by simpa using h.closes, by simpa using h.joins, fun _ => h.joinable (.inl rfl), by simp⟩

theorem Progress.joinsHandler (h : m.Progress .joining) :
    Progress { m with joinable := false, joins := m.joins + 1 } .closing :=
  ⟨by simpa using h.closes, by simpa using h.joins, by simp, fun _ => rfl⟩

theorem Progress.closesSocket (h : m.Progress .closing) :
    Progress { m with closes := m.closes + 1 } .storing :=
  ⟨by simpa using h.closes, by simpa using h.joins, by simp, fun _ => h.joined (.inl rfl)⟩

inductive Phase (m : Stops) : Prop
  | before : m.stoppedAccepting = false → (∀ u q, ¬ m.InsideAt u q) → m.closes = 0 → m.joins = 0 → Phase m
  | inside {t : Nat} {p : StopAt} : m.stoppedAccepting = false → m.InsideAt t p →
      (∀ u q, m.InsideAt u q → u = t) → m.Progress p → Phase m
  | after : m.stoppedAccepting = true → (∀ u q, ¬ m.InsideAt u q) → m.closes = 1 → m.joins ≤ 1 → Phase m

theorem phase_start (object : Stoppable) (threads : Nat) : Phase (start object threads) :=
  .before rfl (fun _ _ h => h.2.2.elim fun _ h => h.elim fun _ hat => Calls.not_at_start hat) rfl rfl

/-- A step that leaves alone who is inside, and what has been done, leaves the phase alone. -/
theorem Phase.frame (h : Phase m) (hinside : ∀ u q, m'.InsideAt u q ↔ m.InsideAt u q)
    (hstopped : m'.stoppedAccepting = m.stoppedAccepting) (hcloses : m'.closes = m.closes)
    (hjoins : m'.joins = m.joins) (hjoinable : m'.joinable = m.joinable) : Phase m' := by
  cases h with
  | before hflag hnone hc hj =>
      exact .before (hstopped.trans hflag) (fun u q hu => hnone u q ((hinside u q).mp hu))
        (hcloses.trans hc) (hjoins.trans hj)
  | inside hflag ht honly hprogress =>
      refine .inside (hstopped.trans hflag) ((hinside _ _).mpr ht)
        (fun u q hu => honly u q ((hinside u q).mp hu)) ?_
      exact ⟨hcloses.trans hprogress.closes, hjoins ▸ hprogress.joins,
        fun hp => hjoinable.trans (hprogress.joinable hp), fun hp => hjoinable.trans (hprogress.joined hp)⟩
  | after hflag hnone hc hj =>
      exact .after (hstopped.trans hflag) (fun u q hu => hnone u q ((hinside u q).mp hu))
        (hcloses.trans hc) (hjoins ▸ hj)

theorem insideAt_of_calls (hobject : m'.object = m.object)
    (hcalls : m'.calls.threads[u]? = m.calls.threads[u]?) : m'.InsideAt u q ↔ m.InsideAt u q := by
  simp [InsideAt, handler?, Calls.At, hobject, hcalls]

theorem insideAt_moveTo (hne : u ≠ t) : (m.moveTo t n call p).InsideAt u q ↔ m.InsideAt u q :=
  insideAt_of_calls rfl (List.getElem?_set_ne (Ne.symm hne))

theorem InsideAt.of_set {x : Option (Nat × StopCall)} (h : m'.InsideAt u q) (hne : u ≠ t)
    (hobject : m'.object = m.object) (hthreads : m'.calls.threads = m.calls.threads.set t x) :
    m.InsideAt u q := by
  refine (insideAt_of_calls hobject ?_).mp h
  rw [hthreads, List.getElem?_set_ne (Ne.symm hne)]

/-- A step of a thread that is not inside, neither before nor after. -/
theorem insideAt_of_outside (hbefore : ∀ q, ¬ m.InsideAt t q) (hafter : ∀ q, ¬ m'.InsideAt t q)
    (hobject : m'.object = m.object)
    (hcalls : ∀ u ≠ t, m'.calls.threads[u]? = m.calls.threads[u]?) (u : Nat) (q : StopAt) :
    m'.InsideAt u q ↔ m.InsideAt u q := by
  by_cases hu : u = t
  · subst hu
    exact iff_of_false (hafter q) (hbefore q)
  · exact insideAt_of_calls hobject (hcalls u hu)

theorem not_insideAt_of_handler (h : m.handler? = some t) (q : StopAt) : ¬ m.InsideAt t q :=
  fun hinside => hinside.1 h

theorem not_insideAt_of_at (hat : m.calls.At t n call) (hplace : call.place = .loading) (q : StopAt) :
    ¬ m.InsideAt t q := by
  rintro ⟨-, hq, n', d, hat'⟩
  obtain rfl := hat.inj hat'
  exact hq hplace

theorem not_insideAt_of_idle (hidle : ∀ n call, ¬ m.calls.At t n call) (q : StopAt) : ¬ m.InsideAt t q :=
  fun ⟨_, _, n, _, hat⟩ => hidle n _ hat

/-- While a thread is inside, the phase is its own. -/
theorem Phase.of_insideAt (h : Phase m) (ht : m.InsideAt t p) :
    m.stoppedAccepting = false ∧ (∀ u q, m.InsideAt u q → u = t) ∧ m.Progress p := by
  cases h with
  | before _ hnone => exact absurd ht (hnone t p)
  | after _ hnone => exact absurd ht (hnone t p)
  | inside hflag ht' honly hprogress =>
      obtain rfl := honly t p ht
      obtain ⟨-, -, n, d, hat⟩ := ht
      obtain ⟨-, -, n', d', hat'⟩ := ht'
      cases hat.inj hat'
      exact ⟨hflag, honly, hprogress⟩

theorem Phase.goesOn {m₁ : Stops} (h : Phase m) (hat : m.calls.At t n call) (hplace : call.place ≠ .loading)
    (hother : m.handler? ≠ some t) (hobject : m₁.object = m.object) (hcalls : m₁.calls = m.calls)
    (hstopped : m₁.stoppedAccepting = m.stoppedAccepting) (hp : p ≠ .loading)
    (hprogress : m.Progress call.place → m₁.Progress p) : Phase (m₁.moveTo t n call p) := by
  obtain ⟨hflag, honly, hdone⟩ := h.of_insideAt ⟨hother, hplace, n, call.destructor, hat⟩
  have hthere : (m₁.moveTo t n call p).InsideAt t p := by
    refine ⟨by simpa [handler?, moveTo, hobject] using hother, hp, n, call.destructor, ?_⟩
    rw [← hcalls] at hat
    exact hat.goOn_same n _
  refine .inside (hstopped.trans hflag) hthere (fun u q hu => ?_) ?_
  · by_contra hne
    refine hne (honly u q (hu.of_set (x := some (n, { call with place := p })) hne hobject ?_))
    rw [moveTo, Calls.goOn, hcalls]
  · obtain ⟨hcloses, hjoins, hjoinable, hjoined⟩ := hprogress hdone
    exact ⟨hcloses, hjoins, hjoinable, hjoined⟩

/-- A thread that is not inside makes a step that leaves it outside. -/
theorem Phase.outside (h : Phase m) {x : Option (Nat × StopCall)} (hbefore : ∀ q, ¬ m.InsideAt t q)
    (hafter : ∀ q, ¬ m'.InsideAt t q) (hthreads : m'.calls.threads = m.calls.threads.set t x)
    (hobject : m'.object = m.object) (hstopped : m'.stoppedAccepting = m.stoppedAccepting)
    (hcloses : m'.closes = m.closes) (hjoins : m'.joins = m.joins)
    (hjoinable : m'.joinable = m.joinable) : Phase m' := by
  refine h.frame (insideAt_of_outside hbefore hafter hobject fun u hu => ?_) hstopped hcloses hjoins
    hjoinable
  rw [hthreads, List.getElem?_set_ne (Ne.symm hu)]

theorem not_insideAt_complete (q : StopAt) : ¬ (m.complete t call).InsideAt t q :=
  not_insideAt_of_idle (fun _ _ hat => (Calls.of_leave hat).1 rfl) q

theorem not_insideAt_fail (q : StopAt) : ¬ (m.fail t call).InsideAt t q :=
  not_insideAt_of_idle (fun _ _ hat => (Calls.of_leave hat).1 rfl) q

/-- A thread finds the flag unset while nobody is inside. -/
theorem Phase.passes (h : Phase m) (hat : m.calls.At t n call) (hflag : m.stoppedAccepting = false)
    (hother : m.handler? ≠ some t) (halone : ∀ u q, ¬ m.InsideAt u q) :
    Phase (m.moveTo t n call .posting) := by
  cases h with
  | after hset => rw [hset] at hflag; cases hflag
  | inside _ hinside => exact absurd hinside (halone _ _)
  | before _ _ hcloses hjoins =>
      have hthere := hat.goOn_same n { call with place := .posting }
      refine .inside hflag ⟨hother, by simp, n, call.destructor, hthere⟩ (fun u q hu => ?_)
        ⟨hcloses, Nat.le_of_eq hjoins, by simp, by simp⟩
      by_contra hne
      exact halone u q (hu.of_set hne rfl rfl)

theorem Phase.stores (h : Phase m) (hat : m.calls.At t n call) (hplace : call.place = .storing)
    (hother : m.handler? ≠ some t) : Phase ({ m with stoppedAccepting := true }.complete t call) := by
  have hinside : m.InsideAt t call.place := ⟨hother, by simp [hplace], n, call.destructor, hat⟩
  obtain ⟨-, honly, hdone⟩ := h.of_insideAt hinside
  have hcloses : m.closes = 1 := by simpa [hplace] using hdone.closes
  have hjoins : m.joins ≤ 1 := by simpa [hplace] using hdone.joins
  refine .after rfl (fun u q hu => ?_) hcloses hjoins
  by_cases hne : u = t
  · subst hne
    exact not_insideAt_complete q hu
  · exact hne (honly u q (hu.of_set hne rfl rfl))

theorem Phase.move {a : Action} (h : Phase m) (hs : Sound m) (ha : m.Alone a) (hmoves : Moves m a m') :
    Phase m' := by
  cases hmoves with
  | calls hidle _ =>
      have hout : ∀ n call, ¬ m.calls.At _ n call := fun n call hat => by cases hidle.symm.trans hat
      exact h.outside (not_insideAt_of_idle hout) (not_insideAt_of_at (hidle.enter_at _) rfl) rfl rfl rfl
        rfl rfl rfl
  | destroys hidle _ =>
      have hout : ∀ n call, ¬ m.calls.At _ n call := fun n call hat => by cases hidle.symm.trans hat
      exact h.outside (not_insideAt_of_idle hout) (not_insideAt_of_at (hidle.enter_at _) rfl) rfl rfl rfl
        rfl rfl rfl
  | finds hat hplace _ =>
      exact h.outside (not_insideAt_of_at hat hplace) not_insideAt_complete rfl rfl rfl rfl rfl rfl
  | @passes t n call hat hplace hflag =>
      by_cases hhandler : m.handler? = some t
      · exact h.outside (not_insideAt_of_handler hhandler) (not_insideAt_of_handler hhandler) rfl rfl rfl rfl
          rfl rfl
      · refine h.passes hat hflag hhandler fun u q hu => ?_
        have hlt : u < m.calls.threads.length := by
          obtain ⟨-, -, n', d, hat'⟩ := hu
          exact (List.getElem?_eq_some_iff.mp hat').1
        exact ha hhandler hflag ⟨_, Calls.call?_eq_some.mpr hat, hplace⟩ u hlt (inside_iff.mpr ⟨q, hu⟩)
  | @posts t n call hat hplace =>
      by_cases hhandler : m.handler? = some t
      · exact h.outside (not_insideAt_of_handler hhandler) (not_insideAt_of_handler hhandler) rfl rfl rfl rfl
          rfl rfl
      · refine h.goesOn hat (by simp [hplace]) hhandler rfl rfl rfl ?_ fun hdone => ?_
        · cases m.object <;> simp [Stoppable.afterPosting]
        · exact (hplace ▸ hdone).posts hs
  | @asks t n call hat hplace =>
      by_cases hhandler : m.handler? = some t
      · exact h.outside (not_insideAt_of_handler hhandler) (not_insideAt_of_handler hhandler) rfl rfl rfl rfl
          rfl rfl
      · refine h.goesOn hat (by simp [hplace]) hhandler rfl rfl rfl ?_ fun hdone => ?_
        · cases m.joinable <;> simp
        · exact (hplace ▸ hdone).asks
  | enters hat hplace _ hother =>
      exact h.goesOn hat (by simp [hplace]) hother rfl rfl rfl (by simp) fun hdone =>
        (hplace ▸ hdone).enters
  | @fails t n call hat hplace hwhy =>
      by_cases hhandler : m.handler? = some t
      · exact h.outside (not_insideAt_of_handler hhandler) not_insideAt_fail rfl rfl rfl rfl rfl rfl
      · have hinside : m.InsideAt t call.place := ⟨hhandler, by simp [hplace], n, call.destructor, hat⟩
        have hjoinable := (h.of_insideAt hinside).2.2.joinable (.inl hplace)
        rcases hwhy with hnot | hself
        · rw [hjoinable] at hnot
          cases hnot
        · exact absurd hself hhandler
  | joins hat hplace _ =>
      exact h.goesOn hat (by simp [hplace]) (hs.not_handler hat hplace nofun) rfl rfl rfl (by simp)
        fun hdone => (hplace ▸ hdone).joinsHandler
  | closes hat hplace =>
      exact h.goesOn hat (by simp [hplace]) (hs.not_handler hat hplace nofun) rfl rfl rfl (by simp)
        fun hdone => (hplace ▸ hdone).closesSocket
  | stores hat hplace => exact h.stores hat hplace (hs.not_handler hat hplace nofun)
  | handlerEnds => exact h.frame (fun _ _ => Iff.rfl) rfl rfl rfl rfl

theorem Phase.of_reach {threads : Nat}
    (h : Reach step (fun m a => m.Alone a) (start object threads) m) : Phase m :=
  h.invariant_of (phase_start object threads) (fun _ hr => Sound.of_reach hr) fun _ _ _ hs hm ha hstep =>
    hm.move hs ha (moves_of_step hstep)

theorem Phase.closedOnce (h : Phase m) (hs : Sound m) : m.ClosedOnce := by
  cases h with
  | before hflag _ hcloses hjoins =>
      refine ⟨by omega, by omega, fun hdestroyed => ?_⟩
      rw [hs.destroyed hdestroyed] at hflag
      cases hflag
  | inside hflag _ _ hdone =>
      have hcloses := hdone.closes
      have hjoins := hdone.joins
      refine ⟨?_, ?_, fun hdestroyed => ?_⟩
      · split at hcloses <;> omega
      · split at hjoins <;> omega
      · rw [hs.destroyed hdestroyed] at hflag
        cases hflag
  | after _ _ hcloses hjoins => exact ⟨Nat.le_of_eq hcloses, hjoins, fun _ => hcloses⟩

end Stops

end SocketWrapper
