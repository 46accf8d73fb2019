import SocketWrapper.Conditional.Stream
import SocketWrapper.Base.Lemmas.Buffer

/-!
# What the dispatch does to the stream

Every function of the dispatch takes segments off the front of the buffer and queues the delivered
ones, and leaves the rest of the stream alone (`Extends`). This holds for any conditions and also where
an exception ends the call.
-/

namespace SocketWrapper

/-! ## The number of bytes that a condition's result stands for -/

theorem absSize_eq {v : Int32} (h : v ≠ Int32.minValue) : absSize v = v.toInt.natAbs := by
  have hne : v.toBitVec ≠ BitVec.intMin 32 := fun hv => h (Int32.toBitVec_inj.mp hv)
  have habs : v.abs.toInt = v.toInt.natAbs := BitVec.toInt_abs_eq_natAbs_of_ne_intMin hne
  have hlt := v.toInt_lt
  have hge := v.le_toInt
  rw [absSize, habs]
  omega

/-- Converted to `size_t`, the minimum `int` is larger than any buffer. -/
theorem absSize_minValue : absSize Int32.minValue = 2 ^ 64 - 2 ^ 31 := by decide

@[simp] theorem absSize_zero : absSize 0 = 0 := by decide

theorem toInt_minValue_natAbs : Int32.minValue.toInt.natAbs = 2 ^ 31 := by decide

theorem natAbs_toInt_pos {v : Int32} (h : v ≠ 0) : 0 < v.toInt.natAbs := by
  rw [Int.natAbs_pos]
  exact fun h0 => h (Int32.toInt_inj.mp h0)

theorem absSize_pos {v : Int32} (h : v ≠ 0) : 0 < absSize v := by
  by_cases hmin : v = Int32.minValue
  · rw [hmin, absSize_minValue]
    omega
  · rw [absSize_eq hmin]
    exact natAbs_toInt_pos h

theorem absSize_eq_natAbs_iff {v : Int32} : absSize v = v.toInt.natAbs ↔ v ≠ Int32.minValue := by
  refine ⟨?_, absSize_eq⟩
  rintro h rfl
  rw [absSize_minValue, toInt_minValue_natAbs] at h
  omega

namespace ConditionalBufferedStream

/-- The bytes that are in the buffer. -/
def contents (s : ConditionalBufferedStream) : List Byte := s.stream.contents

/-- The queue of a handler, empty if there is none. -/
def queue (s : ConditionalBufferedStream) (fd : Fd) : List (List Byte) :=
  (s.receivedDataPerCondition fd).getD []

/-- The removed segments that go to the queue of `fd`. -/
def delivered (fd : Fd) (rs : List Removal) : List (List Byte) :=
  (rs.filter (fun r => r.fd = fd ∧ 0 < r.value)).map Removal.segment

@[simp] theorem delivered_nil (fd : Fd) : delivered fd [] = [] := rfl

theorem delivered_append (fd : Fd) (rs rs' : List Removal) :
    delivered fd (rs ++ rs') = delivered fd rs ++ delivered fd rs' := by
  simp [delivered]

/-- `s'` is `s` after the removals `rs`, with everything the dispatch does not touch unchanged. -/
structure Extends (s : ConditionalBufferedStream) (rs : List Removal)
    (s' : ConditionalBufferedStream) : Prop where
  valid : s'.stream.Valid
  removals : s'.removals = s.removals ++ rs
  bytes : (rs.map Removal.segment).flatten ++ s'.contents = s.contents
  queue : ∀ fd, s'.queue fd = s.queue fd ++ delivered fd rs
  registered : ∀ fd, (s.receivedDataPerCondition fd).isSome → (s'.receivedDataPerCondition fd).isSome
  evaluations : s.evaluations <+: s'.evaluations
  socket : s'.stream.stream = s.stream.stream
  size : s'.stream.streamBufferSize = s.stream.streamBufferSize
  lastEx : s'.lastEx = s.lastEx
  terminationRequested : s'.terminationRequested = s.terminationRequested
  failureTokens : s'.failureTokens = s.failureTokens
  closed : s'.eventFds.closed = s.eventFds.closed

variable {S : Setup} {s s' s'' : ConditionalBufferedStream} {rs rs' : List Removal}
  {h : BufferEventHandler} {data : List Byte} {fd : Fd} {v : Int32}

theorem Extends.refl (hs : s.stream.Valid) : Extends s [] s where
  valid := hs
  removals := by simp
  bytes := rfl
  queue := by simp
  registered := fun _ h => h
  evaluations := List.prefix_rfl
  socket := rfl
  size := rfl
  lastEx := rfl
  terminationRequested := rfl
  failureTokens := rfl
  closed := rfl

theorem Extends.trans (h₁ : Extends s rs s') (h₂ : Extends s' rs' s'') :
    Extends s (rs ++ rs') s'' where
  valid := h₂.valid
  removals := by rw [h₂.removals, h₁.removals, List.append_assoc]
  bytes := by
    rw [List.map_append, List.flatten_append, List.append_assoc, h₂.bytes, h₁.bytes]
  queue := fun fd => by rw [h₂.queue, h₁.queue, delivered_append, List.append_assoc]
  registered := fun fd h => h₂.registered fd (h₁.registered fd h)
  evaluations := h₁.evaluations.trans h₂.evaluations
  socket := h₂.socket.trans h₁.socket
  size := h₂.size.trans h₁.size
  lastEx := h₂.lastEx.trans h₁.lastEx
  terminationRequested := h₂.terminationRequested.trans h₁.terminationRequested
  failureTokens := h₂.failureTokens.trans h₁.failureTokens
  closed := h₂.closed.trans h₁.closed

/-- A run of the dispatch that starts in `s`. -/
def Dispatched (s : ConditionalBufferedStream) {α : Type}
    (r : Outcome α × ConditionalBufferedStream) : Prop :=
  ∃ rs, Extends s rs r.2

theorem Dispatched.andThen {α β : Type} {r : Outcome α × ConditionalBufferedStream}
    {k : α → ConditionalBufferedStream → Outcome β × ConditionalBufferedStream}
    (hr : Dispatched s r) (hk : ∀ a s', s'.stream.Valid → Dispatched s' (k a s')) :
    Dispatched s (Outcome.andThen r k) := by
  obtain ⟨o, s'⟩ := r
  obtain ⟨rs, hrs⟩ := hr
  cases o with
  | returned a =>
      obtain ⟨rs', hrs'⟩ := hk a s' hrs.valid
      exact ⟨rs ++ rs', hrs.trans hrs'⟩
  | threw e => exact ⟨rs, hrs⟩
  | waiting => exact ⟨rs, hrs⟩

/-! ## The steps of the dispatch -/

theorem Extends.evaluate (hs : s.stream.Valid) (h : BufferEventHandler) (data : List Byte) :
    Extends s [] (s.evaluate h data).2 :=
  { Extends.refl hs with evaluations := List.prefix_append _ _ }

theorem Extends.post (hs : s.stream.Valid) (fd : Fd) : Extends s [] (s.post S fd).2 := by
  have hclosed : (s.eventFds.write S.eventfdWrite fd).2.closed = s.eventFds.closed := by
    simp only [EventFds.write]
    split
    · rfl
    · split <;> rfl
  simp only [ConditionalBufferedStream.post]
  split <;> rename_i k hk <;> exact { Extends.refl hs with closed := by rw [← hclosed, hk] }

theorem Extends.of_post (hs : s.stream.Valid) {fd : Fd} {o : Outcome Unit}
    (hpost : s.post S fd = (o, s')) : Extends s [] s' := by
  have hext := Extends.post (S := S) hs fd
  rwa [hpost] at hext

theorem Extends.postsSucceed (h : Extends s rs s') (hp : s.PostsSucceed S) : s'.PostsSucceed S :=
  ⟨hp.kernel, h.closed.trans hp.opened⟩

/-- The state after a token has been written to the eventfd `fd`. -/
def posted (s : ConditionalBufferedStream) (fd : Fd) : ConditionalBufferedStream :=
  { s with eventFds := { s.eventFds with
      writes := s.eventFds.writes + 1
      counter := Function.update s.eventFds.counter fd (s.eventFds.counter fd + 1) } }

theorem post_of_succeeds (hp : s.PostsSucceed S) (fd : Fd) :
    s.post S fd = (.returned (), s.posted fd) := by
  simp [ConditionalBufferedStream.post, EventFds.write, hp.opened, hp.kernel, posted]

theorem Extends.postIfQueued (hs : s.stream.Valid) (fd : Fd) (v : Int32) :
    Extends s [] (s.postIfQueued S fd v).2 := by
  simp only [ConditionalBufferedStream.postIfQueued]
  split
  · exact .post hs fd
  · exact .refl hs

theorem queue_queueUnlessDiscarded (s : ConditionalBufferedStream) (fd fd' : Fd) (v : Int32)
    (segment : List Byte) :
    (s.queueUnlessDiscarded fd v segment).queue fd' = s.queue fd' ++ delivered fd' [⟨fd, v, segment⟩] := by
  simp only [queueUnlessDiscarded, ConditionalBufferedStream.queue, delivered]
  split
  · rename_i hv
    by_cases hfd : fd' = fd
    · subst hfd; simp [hv]
    · simp [hfd, Ne.symm hfd]
  · rename_i hv
    simp [hv]

theorem isSome_queueUnlessDiscarded {segment : List Byte} {fd' : Fd}
    (hsome : (s.receivedDataPerCondition fd').isSome) :
    ((s.queueUnlessDiscarded fd v segment).receivedDataPerCondition fd').isSome := by
  simp only [queueUnlessDiscarded]
  split
  · by_cases hfd : fd' = fd
    · simp [hfd]
    · simpa [hfd] using hsome
  · exact hsome

theorem popAndQueue_of_le (fd : Fd) (hs : s.stream.Valid) (hle : absSize v ≤ s.contents.length) :
    ∃ s', s.popAndQueue fd v = (.returned (), s') ∧
      Extends s [⟨fd, v, s.contents.take (absSize v)⟩] s' ∧
      s'.contents = s.contents.drop (absSize v) ∧ s'.evaluations = s.evaluations ∧
      s'.eventFds = s.eventFds := by
  obtain ⟨b', hpop, hp⟩ := BufferedStream.popFromBuffer_of_le hs hle
  have hcontents : b'.contents = s.contents.drop (absSize v) := hp.contents
  refine ⟨queueUnlessDiscarded { s with stream := b' } fd v (s.contents.take (absSize v)),
    by rw [popAndQueue, onStream, hpop]; rfl, ?_, hcontents, rfl, rfl⟩
  refine ⟨hp.valid, rfl, ?_, fun fd' => queue_queueUnlessDiscarded _ _ _ _ _,
    fun fd' hsome => isSome_queueUnlessDiscarded hsome, List.prefix_rfl, hp.stream, hp.size,
    rfl, rfl, rfl, rfl⟩
  show [s.contents.take (absSize v)].flatten ++ b'.contents = s.contents
  rw [hcontents, List.flatten_singleton, List.take_append_drop]

theorem popAndQueue_of_lt (fd : Fd) (hs : s.stream.Valid) (hlt : s.contents.length < absSize v) :
    ∃ what, s.popAndQueue fd v = (.threw (.outOfRange what), s) := by
  obtain ⟨what, hpop⟩ := BufferedStream.popFromBuffer_of_lt hs hlt
  exact ⟨what, by rw [popAndQueue, onStream, hpop]; rfl⟩

theorem of_popAndQueue_returned (hs : s.stream.Valid) (hpop : s.popAndQueue fd v = (.returned (), s')) :
    absSize v ≤ s.contents.length ∧ Extends s [⟨fd, v, s.contents.take (absSize v)⟩] s' ∧
      s'.contents = s.contents.drop (absSize v) ∧ s'.evaluations = s.evaluations ∧
      s'.eventFds = s.eventFds := by
  rcases Nat.lt_or_ge s.contents.length (absSize v) with hlt | hle
  · obtain ⟨what, hthrew⟩ := popAndQueue_of_lt fd hs hlt
    rw [hthrew] at hpop
    cases hpop
  · obtain ⟨s₁, hpop', h⟩ := popAndQueue_of_le fd hs hle
    rw [hpop'] at hpop
    cases hpop
    exact ⟨hle, h⟩

theorem of_popAndQueue_threw {e : Exception} (hs : s.stream.Valid)
    (hpop : s.popAndQueue fd v = (.threw e, s')) :
    s.contents.length < absSize v ∧ s' = s ∧ ∃ what, e = .outOfRange what := by
  rcases Nat.lt_or_ge s.contents.length (absSize v) with hlt | hle
  · obtain ⟨what, hthrew⟩ := popAndQueue_of_lt fd hs hlt
    rw [hthrew] at hpop
    cases hpop
    exact ⟨hlt, rfl, what, rfl⟩
  · obtain ⟨s₁, hpop', -⟩ := popAndQueue_of_le fd hs hle
    rw [hpop'] at hpop
    cases hpop

theorem Dispatched.popAndQueue (hs : s.stream.Valid) (fd : Fd) (v : Int32) :
    Dispatched s (s.popAndQueue fd v) := by
  rcases Nat.lt_or_ge s.contents.length (absSize v) with hlt | hle
  · obtain ⟨what, hpop⟩ := popAndQueue_of_lt fd hs hlt
    rw [hpop]
    exact ⟨[], .refl hs⟩
  · obtain ⟨s', hpop, hext, _⟩ := popAndQueue_of_le fd hs hle
    rw [hpop]
    exact ⟨_, hext⟩

theorem Extends.of_popAndQueue (hs : s.stream.Valid) {fd : Fd} {v : Int32} {o : Outcome Unit}
    (hpop : s.popAndQueue fd v = (o, s')) : ∃ rs, Extends s rs s' := by
  obtain ⟨rs, hext⟩ := Dispatched.popAndQueue hs fd v
  rw [hpop] at hext
  exact ⟨rs, hext⟩

/-! ## The dispatch as a whole -/

/-- One handler whose condition gave the nonzero result `v`: all that the loop does before it goes on
with the next handler. -/
def serve (S : Setup)
    (recur : List Byte → ConditionalBufferedStream → Outcome Unit × ConditionalBufferedStream)
    (data : List Byte) (s : ConditionalBufferedStream) (fd : Fd) (v : Int32) :
    Outcome Unit × ConditionalBufferedStream :=
  Outcome.andThen (s.popAndQueue fd v) fun _ s =>
  Outcome.andThen (s.postIfQueued S fd v) fun _ s =>
  recur (data.drop (absSize v)) s

variable {recur : List Byte → ConditionalBufferedStream → Outcome Unit × ConditionalBufferedStream}
  {rest : List BufferEventHandler}

theorem dispatchHandlers_cons :
    dispatchHandlers S recur data (h :: rest) s =
      (if data.length < absSize (s.evaluate h data).1 then
        (.threw tooMuchData, (s.evaluate h data).2)
      else if (s.evaluate h data).1 = 0 then
        dispatchHandlers S recur data rest (s.evaluate h data).2
      else Outcome.andThen (serve S recur data (s.evaluate h data).2 h.fd (s.evaluate h data).1)
        fun _ s => dispatchHandlers S recur data rest s) := by
  simp only [dispatchHandlers, serve, Outcome.andThen_assoc]

theorem serve_eq
    (recur : List Byte → ConditionalBufferedStream → Outcome Unit × ConditionalBufferedStream)
    (data : List Byte) (fd : Fd) (v : Int32) (hs : s.stream.Valid) (hp : s.PostsSucceed S)
    (hle : absSize v ≤ s.contents.length) :
    ∃ s', serve S recur data s fd v = recur (data.drop (absSize v)) s' ∧
      Extends s [⟨fd, v, s.contents.take (absSize v)⟩] s' ∧
      s'.contents = s.contents.drop (absSize v) ∧ s'.evaluations = s.evaluations := by
  obtain ⟨s₁, hpop, hext, hcontents, heval, -⟩ := popAndQueue_of_le fd hs hle
  have hp₁ := hext.postsSucceed hp
  rw [serve, hpop, Outcome.andThen_returned, ConditionalBufferedStream.postIfQueued]
  split
  · have hpost := Extends.post (S := S) hext.valid fd
    rw [post_of_succeeds hp₁] at hpost
    refine ⟨s₁.posted fd, by rw [post_of_succeeds hp₁]; rfl, ?_, hcontents, heval⟩
    exact hext.trans hpost
  · exact ⟨s₁, rfl, hext, hcontents, heval⟩

theorem serve_grows (hs : s.stream.Valid)
    (hrec : ∀ d s', s'.stream.Valid → Dispatched s' (recur d s')) {u : Unit}
    (hret : serve S recur data s fd v = (.returned u, s')) :
    ∃ r rs, Extends s (r :: rs) s' := by
  obtain ⟨_, s₁, hpop, hrest⟩ := Outcome.andThen_returned_inv hret
  obtain ⟨_, s₂, hpost, hcall⟩ := Outcome.andThen_returned_inv hrest
  rcases Nat.lt_or_ge s.contents.length (absSize v) with hlt | hle
  · obtain ⟨what, hthrew⟩ := popAndQueue_of_lt fd hs hlt
    rw [hthrew] at hpop
    cases hpop
  · obtain ⟨s₁', hpop', hext, -⟩ := popAndQueue_of_le fd hs hle
    rw [hpop'] at hpop
    cases hpop
    have hext₂ := Extends.postIfQueued (S := S) hext.valid fd v
    rw [hpost] at hext₂
    obtain ⟨rs, hext₃⟩ := hrec (data.drop (absSize v)) s₂ hext₂.valid
    rw [hcall] at hext₃
    exact ⟨_, _, hext.trans (hext₂.trans hext₃)⟩

theorem Dispatched.serve (hs : s.stream.Valid) (fd : Fd) (v : Int32)
    (hrec : ∀ d s', s'.stream.Valid → Dispatched s' (recur d s')) :
    Dispatched s (serve S recur data s fd v) := by
  refine (Dispatched.popAndQueue hs fd v).andThen fun _ s' hs' => ?_
  exact Dispatched.andThen ⟨[], .postIfQueued hs' fd v⟩ fun _ s'' hs'' => hrec _ s'' hs''

theorem Dispatched.dispatchHandlers (data : List Byte) (hs : s.stream.Valid)
    (rest : List BufferEventHandler)
    (hrec : ∀ d s', s'.stream.Valid → Dispatched s' (recur d s')) :
    Dispatched s (dispatchHandlers S recur data rest s) := by
  induction rest generalizing s with
  | nil => exact ⟨[], .refl hs⟩
  | cons h rest ih =>
      have hev := Extends.evaluate hs h data
      rw [dispatchHandlers_cons]
      split
      · exact ⟨[], hev⟩
      · split
        · obtain ⟨rs, hrs⟩ := ih hev.valid
          exact ⟨_, hev.trans hrs⟩
        · obtain ⟨rs, hrs⟩ := (Dispatched.serve hev.valid h.fd _ hrec).andThen
            fun _ s' hs' => ih hs'
          exact ⟨_, hev.trans hrs⟩

theorem Dispatched.processToDepth (depth : Nat) (hs : s.stream.Valid) (data : List Byte) :
    Dispatched s (processToDepth S depth data s) := by
  induction depth generalizing s data with
  | zero => exact ⟨[], .refl hs⟩
  | succ depth ih =>
      rw [ConditionalBufferedStream.processToDepth]
      split
      · exact ⟨[], .refl hs⟩
      · exact .dispatchHandlers data hs _ fun d s' hs' => ih hs' d

theorem Dispatched.processDataSendSignals (hs : s.stream.Valid) (data : List Byte) :
    Dispatched s (s.processDataSendSignals S data) :=
  .processToDepth _ hs data

/-! ## The recursion of the source -/

theorem dispatchHandlers_congr
    {recur' : List Byte → ConditionalBufferedStream → Outcome Unit × ConditionalBufferedStream}
    (hdata : data ≠ []) (heq : ∀ d s', d.length < data.length → recur d s' = recur' d s')
    (rest : List BufferEventHandler) (s : ConditionalBufferedStream) :
    dispatchHandlers S recur data rest s = dispatchHandlers S recur' data rest s := by
  induction rest generalizing s with
  | nil => rfl
  | cons h rest ih =>
      rw [dispatchHandlers_cons, dispatchHandlers_cons]
      split
      · rfl
      · split
        · exact ih _
        · rename_i hv
          have hshort : (data.drop (absSize (s.evaluate h data).1)).length < data.length := by
            have hpos := absSize_pos hv
            have hlen := List.length_pos_iff.mpr hdata
            simp only [List.length_drop]
            omega
          simp only [ih, serve, heq _ _ hshort]

/-- More depth than data makes no difference. -/
theorem processToDepth_of_le {depth : Nat} (h : data.length ≤ depth) (s : ConditionalBufferedStream) :
    processToDepth S depth data s = s.processDataSendSignals S data := by
  rw [processDataSendSignals]
  generalize hk : data.length = k at h
  induction k using Nat.strongRecOn generalizing depth data s with
  | ind k ih =>
      cases depth with
      | zero =>
          obtain rfl : k = 0 := Nat.le_zero.mp h
          rfl
      | succ depth =>
          cases k with
          | zero => simp [processToDepth, List.eq_nil_of_length_eq_zero hk]
          | succ k =>
              have hdata : data ≠ [] := fun h0 => by simp [h0] at hk
              simp only [processToDepth, hdata, ↓reduceIte]
              refine dispatchHandlers_congr hdata (fun d s' hd => ?_) _ _
              rw [ih d.length (hk ▸ hd) s' rfl (by omega : d.length ≤ depth),
                ih d.length (hk ▸ hd) s' rfl (by omega : d.length ≤ k)]

/-- The equation that the source gives for `processDataSendSignals`. -/
theorem processDataSendSignals_eq (s : ConditionalBufferedStream) (data : List Byte) :
    s.processDataSendSignals S data =
      if data = [] then (.returned (), s)
      else dispatchHandlers S (fun d s => s.processDataSendSignals S d) data S.handlers s := by
  rw [processDataSendSignals]
  cases data with
  | nil => rfl
  | cons a data =>
      simp only [List.length_cons, processToDepth, reduceCtorEq, ↓reduceIte]
      refine dispatchHandlers_congr (by simp) (fun d s' hd => ?_) _ _
      exact processToDepth_of_le (Nat.le_of_lt_succ hd) s'

end ConditionalBufferedStream

end SocketWrapper
