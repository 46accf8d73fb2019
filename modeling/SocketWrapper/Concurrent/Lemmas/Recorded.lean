import SocketWrapper.Concurrent.Lemmas.Conservation

/-!
# What the worker has recorded

By the place of the worker: `last_ex`, and how often a failure has been posted to each handler.
-/

namespace SocketWrapper

open ConditionalBufferedStream

variable {S : Setup} {s s' : ConditionalBufferedStream} {w w' : WorkerAt} {m m' : Machine} {fd : Fd}
  {allowed : Machine → Action → Prop} {size : Nat} {bytes : List Byte} {answers : List Answer} {consumers : Nat}

/-- No failure has been recorded or posted. -/
structure Healthy (s : ConditionalBufferedStream) : Prop where
  lastEx : s.lastEx = .SOCKET_OK
  tokens : ∀ fd, s.failureTokens fd = 0

/-- The failure `t` has been recorded, and posted once to each of the handlers `done`. -/
structure Failed (t : SocketExceptionType) (done : List BufferEventHandler)
    (s : ConditionalBufferedStream) : Prop where
  ne_ok : t ≠ .SOCKET_OK
  ne_termination : t ≠ .SOCKET_TERMINATION_REQUEST
  lastEx : s.lastEx = t
  tokens : ∀ fd, s.failureTokens fd = if fd ∈ done.map BufferEventHandler.fd then 1 else 0

def Recorded (S : Setup) (s : ConditionalBufferedStream) : WorkerAt → Prop
  | .caught ex => Healthy s ∧ ex.exceptionType ≠ .SOCKET_OK
  | .notifying t rest => ∃ done, S.handlers = done ++ rest ∧ Failed t done s
  | .ended t => (t = .SOCKET_TERMINATION_REQUEST ∧ Healthy s) ∨ Failed t S.handlers s
  | .terminated _ => Healthy s ∨ ∃ t done rest, S.handlers = done ++ rest ∧ Failed t done s
  | _ => Healthy s

theorem Healthy.congr (h : Healthy s) (hlast : s'.lastEx = s.lastEx)
    (htokens : s'.failureTokens = s.failureTokens) : Healthy s' :=
  ⟨hlast.trans h.lastEx, fun fd => by rw [htokens, h.tokens]⟩

theorem Healthy.of_extends {rs : List Removal} (h : Healthy s) (hext : Extends s rs s') : Healthy s' :=
  h.congr hext.lastEx hext.failureTokens

theorem Healthy.of_post (h : Healthy s) (hv : s.stream.Valid) {o : Outcome Unit}
    (hpost : s.post S fd = (o, s')) : Healthy s' :=
  h.of_extends (.of_post hv hpost)

theorem Healthy.of_popAndQueue (h : Healthy s) (hv : s.stream.Valid) {v : Int32} {o : Outcome Unit}
    (hpop : s.popAndQueue fd v = (o, s')) : Healthy s' := by
  obtain ⟨rs, hext⟩ := Extends.of_popAndQueue hv hpop
  exact h.of_extends hext

theorem Failed.of_post {t : SocketExceptionType} {done : List BufferEventHandler}
    (h : Failed t done s) (hv : s.stream.Valid) {o : Outcome Unit} (hpost : s.post S fd = (o, s')) :
    Failed t done s' := by
  have hext := Extends.of_post hv hpost
  exact ⟨h.ne_ok, h.ne_termination, hext.lastEx.trans h.lastEx,
    fun fd => by rw [hext.failureTokens, h.tokens]⟩

/-! ## Exceptions -/

theorem Recorded.raised {e : Exception} (he : ThrownByDispatch e) (h : Healthy s) :
    Recorded S s (.raised e) := by
  cases he with
  | write errno => exact ⟨h, by simp⟩
  | tooMuchData => exact .inl h
  | outOfRange what => exact .inl h

theorem Recorded.readFailed (h : Healthy s) (hv : s.stream.Valid) {e : Exception} {b : BufferedStream}
    (hread : s.stream.readAvailableDataIntoBuffer (-1) = (.threw e, b)) :
    Recorded S { s with stream := b } (.raised e) := by
  have hrefill := BufferedStream.refill hv (-1)
  rw [hread] at hrefill
  cases hrefill with
  | closed => exact ⟨⟨h.lastEx, h.tokens⟩, by simp⟩
  | failed _ _ _ hfails => exact ⟨⟨h.lastEx, h.tokens⟩, by cases hfails <;> simp⟩

/-! ## Steps -/

theorem Recorded.worker (h : Recorded S s w) (hv : s.stream.Valid) (hmove : WorkerMove S w s w' s') :
    Recorded S s' w' := by
  cases hmove with
  | filled => exact ⟨h.lastEx, h.tokens⟩
  | readFailed hread => exact .readFailed h hv hread
  | drained => exact h
  | returned => exact h
  | refused => exact .raised .tooMuchData ⟨h.lastEx, h.tokens⟩
  | skipped => exact ⟨h.lastEx, h.tokens⟩
  | matched => exact ⟨h.lastEx, h.tokens⟩
  | popped hpop _ => exact Healthy.of_popAndQueue h hv hpop
  | discarded hpop _ => exact Healthy.of_popAndQueue h hv hpop
  | @popFailed s s' fd v frame frames e hpop =>
      exact .raised (throws_popAndQueue s fd v e (congrArg Prod.fst hpop))
        (Healthy.of_popAndQueue h hv hpop)
  | posted hpost => exact Healthy.of_post h hv hpost
  | @postFailed s s' fd v frame frames e hpost =>
      exact .raised (throws_post (S := S) s fd e (congrArg Prod.fst hpost)) (Healthy.of_post h hv hpost)
  | terminates hterm => exact .inl ⟨hterm, h.1⟩
  | records hterm => exact ⟨[], rfl, h.2, hterm, rfl, fun fd => by simpa using h.1.tokens fd⟩
  | @notified s s' t handler rest hpost =>
      obtain ⟨done, hhandlers, hfailed⟩ := h
      have hfailed := hfailed.of_post hv hpost
      refine ⟨done ++ [handler], by simp [hhandlers], hfailed.ne_ok, hfailed.ne_termination,
        hfailed.lastEx, fun fd => ?_⟩
      have hnodup := S.fdsNodup
      rw [hhandlers, List.map_append, List.nodup_append] at hnodup
      by_cases hfd : fd = handler.fd
      · subst hfd
        have hnot : handler.fd ∉ done.map BufferEventHandler.fd :=
          fun hmem => hnodup.2.2 _ hmem handler.fd (by simp) rfl
        simp [hfailed.tokens, hnot]
      · simp [hfailed.tokens, hfd]
  | notifyFailed hpost =>
      obtain ⟨done, hhandlers, hfailed⟩ := h
      exact .inr ⟨_, done, _, hhandlers, hfailed.of_post hv hpost⟩
  | ends =>
      obtain ⟨done, hhandlers, hfailed⟩ := h
      rw [List.append_nil] at hhandlers
      exact .inr (hhandlers ▸ hfailed)

theorem Recorded.congr (h : Recorded S s w) (hlast : s'.lastEx = s.lastEx)
    (htokens : s'.failureTokens = s.failureTokens) : Recorded S s' w := by
  have hfailed : ∀ {t done}, Failed t done s → Failed t done s' := fun hf =>
    ⟨hf.ne_ok, hf.ne_termination, hlast.trans hf.lastEx, fun fd => by rw [htokens, hf.tokens]⟩
  cases w with
  | notStarted => exact Healthy.congr h hlast htokens
  | reading => exact Healthy.congr h hlast htokens
  | dispatching _ => exact Healthy.congr h hlast htokens
  | popping _ _ _ _ => exact Healthy.congr h hlast htokens
  | posting _ _ _ _ => exact Healthy.congr h hlast htokens
  | caught ex => exact ⟨h.1.congr hlast htokens, h.2⟩
  | notifying t rest =>
      obtain ⟨done, hhandlers, hf⟩ := h
      exact ⟨done, hhandlers, hfailed hf⟩
  | ended t => exact h.imp (fun hh => ⟨hh.1, hh.2.congr hlast htokens⟩) hfailed
  | terminated e =>
      refine h.imp (fun hh => hh.congr hlast htokens) ?_
      rintro ⟨t, done, rest, hhandlers, hf⟩
      exact ⟨t, done, rest, hhandlers, hfailed hf⟩

/-- Wherever the worker is, no failure has been recorded, or one and posted to the first handlers. -/
theorem Recorded.healthy_or_failed (h : Recorded S s w) :
    Healthy s ∨ ∃ t done rest, S.handlers = done ++ rest ∧ Failed t done s := by
  cases w with
  | notStarted => exact .inl h
  | reading => exact .inl h
  | dispatching _ => exact .inl h
  | popping _ _ _ _ => exact .inl h
  | posting _ _ _ _ => exact .inl h
  | caught ex => exact .inl h.1
  | notifying t rest =>
      obtain ⟨done, hhandlers, hf⟩ := h
      exact .inr ⟨t, done, rest, hhandlers, hf⟩
  | ended t => exact h.imp (fun hh => hh.2) fun hf => ⟨t, S.handlers, [], by simp, hf⟩
  | terminated e => exact h

theorem Recorded.of_posted (h : Recorded S s w) (hpos : 0 < s.failureTokens fd) :
    s.lastEx ≠ .SOCKET_OK ∧ S.Registered fd := by
  rcases h.healthy_or_failed with hh | ⟨t, done, rest, hhandlers, hf⟩
  · rw [hh.tokens] at hpos
    exact absurd hpos (Nat.lt_irrefl 0)
  · refine ⟨hf.lastEx ▸ hf.ne_ok, ?_⟩
    rw [hf.tokens] at hpos
    split at hpos
    · rename_i hmem
      rw [Setup.Registered, hhandlers, List.map_append]
      exact List.mem_append_left _ hmem
    · exact absurd hpos (Nat.lt_irrefl 0)

theorem Recorded.failureTokens_le (h : Recorded S s w) (fd : Fd) : s.failureTokens fd ≤ 1 := by
  rcases h.healthy_or_failed with hh | ⟨t, done, rest, -, hf⟩
  · rw [hh.tokens]
    exact Nat.zero_le 1
  · rw [hf.tokens]
    split <;> omega

theorem Recorded.lastEx_ne (h : Recorded S s w) : s.lastEx ≠ .SOCKET_TERMINATION_REQUEST := by
  rcases h.healthy_or_failed with hh | ⟨t, done, rest, -, hf⟩
  · rw [hh.lastEx]
    decide
  · rw [hf.lastEx]
    exact hf.ne_termination

theorem Recorded.of_ended {t : SocketExceptionType} (h : Recorded S s (.ended t))
    (ht : t ≠ .SOCKET_TERMINATION_REQUEST) : Failed t S.handlers s :=
  h.resolve_left fun hh => ht hh.1

theorem Failed.token_of_registered {t : SocketExceptionType} (h : Failed t S.handlers s)
    (hfd : S.Registered fd) : s.failureTokens fd = 1 :=
  (h.tokens fd).trans (if_pos hfd)

theorem Recorded.consumer {c : Nat} {a : ConsumerAction} (h : Recorded S m.stream m.worker)
    (hmove : ConsumerMove m c a m') : Recorded S m'.stream m'.worker := by
  obtain ⟨q, k, cs, done, rfl⟩ := hmove.frame
  exact h.congr rfl rfl

theorem Recorded.move {a : Action} (h : Recorded S m.stream m.worker) (hv : m.stream.stream.Valid)
    (hmove : Move S m a m') : Recorded S m'.stream m'.worker := by
  cases hmove with
  | start hw =>
      rw [hw] at h
      exact h
  | worker hw => exact h.worker hv hw
  | consumer hc => exact h.consumer hc
  | stopReads => exact h.congr rfl rfl
  | stopStream => exact h.congr rfl rfl
  | destructs => exact h
  | closes => exact h.congr rfl rfl
  | stops => exact h.congr rfl rfl
  | joinFails => exact h
  | joins => exact h

theorem Recorded.of_reach
    (h : Transition.Reach (Machine.step S) allowed (.connected S size bytes answers consumers) m) :
    Recorded S m.stream m.worker := by
  have h₀ : Healthy (connected S size bytes 0 answers) := ⟨rfl, fun _ => rfl⟩
  refine h.invariant_of (P := fun m : Machine => Recorded S m.stream m.worker) h₀
    (fun _ hr => Conserved.of_reach hr) fun _ _ _ hq hm _ hstep => ?_
  exact hm.move hq.valid (move_of_step hstep).2

end SocketWrapper
