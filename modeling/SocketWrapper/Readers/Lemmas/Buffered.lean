import SocketWrapper.Base.Lemmas.Conservation
import SocketWrapper.Readers.Buffered

/-!
# What the calls find in the buffer

Refills only add to it, so what a call has found at its test is there until another call pops.
-/

namespace SocketWrapper

open Interleaved Transition

namespace BufferedReaders

variable {m m' : BufferedReaders} {sent : List Byte} {thread number : Nat} {call : BufferedRead}
  {allowed : BufferedReaders → Action → Prop}

/-! ## The steps -/

/-- A step of the machine, with what it does to the buffer. -/
inductive Moves (m : BufferedReaders) : Action → BufferedReaders → Prop
  | calls {thread bytesToRead : Nat} {timeoutMs : Int} :
      Moves m (.call thread bytesToRead timeoutMs)
        { m with calls := m.calls.enter thread ⟨bytesToRead, timeoutMs, .checking⟩ }
  | refuses {thread number : Nat} {call : BufferedRead} {what : String} :
      m.calls.At thread number call →
      Moves m (.check thread) (m.complete thread number call (.threw (.logicError what)))
  | accepts {thread number : Nat} {call : BufferedRead} :
      m.calls.At thread number call → Moves m (.check thread) (m.moveTo thread number call .testing)
  | fallsShort {thread number : Nat} {call : BufferedRead} :
      m.calls.At thread number call → Moves m (.test thread) (m.moveTo thread number call .filling)
  | passes {thread number : Nat} {call : BufferedRead} :
      m.calls.At thread number call → call.bytesToRead ≤ m.object.contents.length →
      Moves m (.test thread) (m.moveTo thread number call .popping)
  | fills {thread number : Nat} {call : BufferedRead} {answers : List Answer} {object : BufferedStream}
      {bytes : List Byte} :
      m.calls.At thread number call → object.Valid → object.contents = m.object.contents ++ bytes →
      m.object.stream.socket.unread = bytes ++ object.stream.socket.unread →
      Moves m (.fill thread answers) ({ m with object := object }.moveTo thread number call .testing)
  | fillFails {thread number : Nat} {call : BufferedRead} {answers : List Answer}
      {object : BufferedStream} {ex : SocketException} :
      m.calls.At thread number call → object.Valid → object.contents = m.object.contents →
      object.stream.socket.unread = m.object.stream.socket.unread →
      Moves m (.fill thread answers)
        ({ m with object := object }.complete thread number call (.threw (.socket ex)))
  | pops {thread number : Nat} {call : BufferedRead} {object : BufferedStream} :
      m.calls.At thread number call → call.place = .popping →
      call.bytesToRead ≤ m.object.contents.length →
      BufferedStream.Popped m.object call.bytesToRead object →
      Moves m (.pop thread) ({ m with
        object := object
        handed := m.handed ++ tag number (m.object.contents.take call.bytesToRead) }.complete thread number
          call (.returned (m.object.contents.take call.bytesToRead)))
  | popFails {thread number : Nat} {call : BufferedRead} {what : String} :
      m.calls.At thread number call → call.place = .popping →
      m.object.contents.length < call.bytesToRead →
      Moves m (.pop thread) (m.complete thread number call (.threw (.outOfRange what)))

theorem moves_of_fill {answers : List Answer} (hv : m.object.Valid) (hat : m.calls.At thread number call)
    (h : m.stepCall thread number call (.fill thread answers) = some m') :
    Moves m (.fill thread answers) m' := by
  simp only [stepCall] at h
  split at h
  · have hfuture : (m.object.withFuture m.object.stream.socket.unread answers).Valid := hv.withFuture
    have hrefill := BufferedStream.refill hfuture call.timeoutMs
    generalize (m.object.withFuture m.object.stream.socket.unread answers).readAvailableDataIntoBuffer
      call.timeoutMs = r at h hrefill
    cases hrefill with
    | data hr _ _ hcontents hunread _ _ =>
        cases h
        exact .fills hat hr.valid hcontents hunread
    | closed hr _ hcontents hunread _ =>
        cases h
        exact .fillFails hat hr.valid hcontents hunread
    | failed hr hcontents hsocket _ =>
        cases h
        exact .fillFails hat hr.valid hcontents (congrArg Socket.unread hsocket)
    | waiting => cases h
  · cases h

theorem moves_of_pop (hv : m.object.Valid) (hat : m.calls.At thread number call)
    (h : m.stepCall thread number call (.pop thread) = some m') : Moves m (.pop thread) m' := by
  simp only [stepCall] at h
  split at h
  · rename_i hplace
    rcases Nat.lt_or_ge m.object.contents.length call.bytesToRead with hlt | hle
    · obtain ⟨what, hpop⟩ := BufferedStream.popFromBuffer_of_lt hv hlt
      simp only [hpop, tag_nil, List.append_nil] at h
      cases h
      exact .popFails hat hplace hlt
    · obtain ⟨object, hpop, hpopped⟩ := BufferedStream.popFromBuffer_of_le hv hle
      simp only [hpop] at h
      cases h
      exact .pops hat hplace hle hpopped
  · cases h

theorem moves_of_step {a : Action} (hv : m.object.Valid) (h : m.step a = some m') : Moves m a m' := by
  cases a with
  | call thread bytesToRead timeoutMs =>
      simp only [step] at h
      split at h
      · cases h
        exact .calls
      · cases h
  | check thread =>
      simp only [step] at h
      split at h
      · rename_i hat
        have hat := Calls.call?_eq_some.mp hat
        simp only [stepCall] at h
        split at h
        · split at h
          · cases h
            exact .refuses hat
          · cases h
            exact .accepts hat
        · cases h
      · cases h
  | test thread =>
      simp only [step] at h
      split at h
      · rename_i call hat
        have hat := Calls.call?_eq_some.mp hat
        simp only [stepCall] at h
        split at h
        · cases h
          by_cases hlt : m.object.bufferWriteOffset < call.bytesToRead
          · rw [if_pos hlt]
            exact .fallsShort hat
          · rw [if_neg hlt]
            rw [← hv.length_contents, Nat.not_lt] at hlt
            exact .passes hat hlt
        · cases h
      · cases h
  | fill thread answers =>
      simp only [step] at h
      split at h
      · rename_i hat
        exact moves_of_fill hv (Calls.call?_eq_some.mp hat) h
      · cases h
  | pop thread =>
      simp only [step] at h
      split at h
      · rename_i hat
        exact moves_of_pop hv (Calls.call?_eq_some.mp hat) h
      · cases h

/-! ## Pieces of the stream -/

abbrev gone (m : BufferedReaders) : List Nat := m.completions.map BufferedReadDone.number

/-- What holds whatever the threads do. -/
structure Sound (sent : List Byte) (m : BufferedReaders) : Prop where
  valid : m.object.Valid
  distinct : Calls.Distinct m.calls m.gone
  handed : ∀ p ∈ m.handed, p.1 ∈ m.gone
  pieces : m.EachItsPiece sent

theorem sound_start (sent : List Byte) (bufferSize threads : Nat) :
    Sound sent (start sent bufferSize threads) where
  valid := .make _ _
  distinct := Calls.distinct_start threads
  handed := nofun
  pieces := ⟨by simp [start, BufferedStream.contents_make]; rfl, nofun, List.nodup_nil⟩

theorem Sound.without (h : Sound sent m) (hat : m.calls.At thread number call) :
    Without m.handed number :=
  fun p hp heq => h.distinct.not_gone hat (heq ▸ h.handed p hp)

theorem Sound.goesOn (h : Sound sent m) (hat : m.calls.At thread number call) (place : FillAt)
    {object : BufferedStream} (hv : object.Valid) (hrest : object.remaining = m.object.remaining) :
    Sound sent ({ m with object := object }.moveTo thread number call place) where
  valid := hv
  distinct := h.distinct.goOn hat _
  handed := h.handed
  pieces := by
    refine ⟨?_, h.pieces.piece, h.pieces.numbers⟩
    have horder := h.pieces.inOrder
    rw [List.append_assoc] at horder ⊢
    rw [← horder]
    exact congrArg (m.handed.map Prod.snd ++ ·) hrest

/-- A call comes back with bytes from the front of the buffer, or with none. -/
theorem Sound.complete (h : Sound sent m) (hat : m.calls.At thread number call) {object : BufferedStream}
    (hv : object.Valid) {bytes : List Byte} (hrest : bytes ++ object.remaining = m.object.remaining)
    {outcome : Outcome (List Byte)}
    (houtcome : ∀ given, outcome = .returned given → given = bytes ∧ bytes.length = call.bytesToRead) :
    Sound sent ({ m with
      object := object
      handed := m.handed ++ tag number bytes }.complete thread number call outcome) where
  valid := hv
  distinct := h.distinct.leave hat rfl
  handed p hp := by
    simp only [BufferedReaders.complete, gone, List.map_append, List.map_singleton]
    rcases List.mem_append.mp hp with hold | hnew
    · exact List.mem_append_left _ (h.handed p hold)
    · exact List.mem_append_right _ (List.mem_singleton.mpr (fst_of_mem_tag hnew))
  pieces := by
    refine ⟨?_, fun c hc given hgiven => ?_, (h.distinct.leave hat rfl).gone_nodup⟩
    · have horder := h.pieces.inOrder
      rw [List.append_assoc] at horder
      simp only [BufferedReaders.complete, List.map_append, map_snd_tag]
      rw [List.append_assoc, List.append_assoc, ← horder]
      exact congrArg (m.handed.map Prod.snd ++ ·) hrest
    · rcases List.mem_append.mp hc with hold | hnew
      · obtain ⟨hlen, hblock⟩ := h.pieces.piece c hold given hgiven
        refine ⟨hlen, hblock.append (without_tag ?_)⟩
        rintro rfl
        exact h.distinct.not_gone hat (List.mem_map_of_mem hold)
      · obtain rfl := List.mem_singleton.mp hnew
        obtain ⟨rfl, hlen⟩ := houtcome given hgiven
        have hends := (h.without hat).ends.extend given
        rw [List.nil_append] at hends
        exact ⟨hlen, hends.block⟩

theorem complete_eq (m : BufferedReaders) (thread number : Nat) (call : BufferedRead)
    (outcome : Outcome (List Byte)) :
    m.complete thread number call outcome =
      { m with object := m.object, handed := m.handed ++ tag number [] }.complete thread number call
        outcome := by
  simp [BufferedReaders.complete]

theorem Sound.move {a : Action} (h : Sound sent m) (hmoves : Moves m a m') : Sound sent m' := by
  cases hmoves with
  | calls =>
      exact ⟨h.valid, h.distinct.enter _ _, h.handed, ⟨h.pieces.inOrder, h.pieces.piece, h.pieces.numbers⟩⟩
  | refuses hat =>
      rw [complete_eq]
      exact h.complete hat h.valid rfl (by simp)
  | accepts hat => exact h.goesOn hat _ h.valid rfl
  | fallsShort hat => exact h.goesOn hat _ h.valid rfl
  | passes hat _ => exact h.goesOn hat _ h.valid rfl
  | fills hat hv hcontents hunread =>
      refine h.goesOn hat _ hv ?_
      rw [BufferedStream.remaining, BufferedStream.remaining, hcontents, hunread, List.append_assoc]
  | fillFails hat hv hcontents hunread =>
      rw [complete_eq]
      refine h.complete hat hv ?_ (by simp)
      rw [List.nil_append, BufferedStream.remaining, BufferedStream.remaining, hcontents, hunread]
  | pops hat _ hle hpopped =>
      refine h.complete hat hpopped.valid hpopped.remaining fun given hgiven => ?_
      rw [List.length_take, Nat.min_eq_left hle]
      exact ⟨(Outcome.returned.inj hgiven).symm, rfl⟩
  | popFails hat _ _ =>
      rw [complete_eq]
      exact h.complete hat h.valid rfl (by simp)

theorem Sound.of_reach {bufferSize threads : Nat}
    (h : Reach step allowed (start sent bufferSize threads) m) : Sound sent m :=
  h.invariant (sound_start sent bufferSize threads) fun _ _ _ hm _ hstep =>
    hm.move (moves_of_step hm.valid hstep)

/-! ## Enough for every call that is past its test -/

structure Enough (m : BufferedReaders) : Prop where
  never : m.NeverOutOfRange
  popping : ∀ {t n call}, m.calls.At t n call → call.place = .popping →
    call.bytesToRead ≤ m.object.contents.length

theorem Enough.goesOn (h : Enough m) {place : FillAt} {object : BufferedStream}
    (hmore : m.object.contents.length ≤ object.contents.length)
    (hplace : place = .popping → call.bytesToRead ≤ object.contents.length) :
    Enough ({ m with object := object }.moveTo thread number call place) where
  never := h.never
  popping hat hpopping := by
    rcases Calls.of_goOn hat with ⟨-, -, rfl⟩ | ⟨-, hold⟩
    · exact hplace hpopping
    · exact Nat.le_trans (h.popping hold hpopping) hmore

theorem Enough.complete (h : Enough m) {object : BufferedStream} {handed : List (Nat × Byte)}
    {outcome : Outcome (List Byte)} (houtcome : ∀ what, outcome ≠ .threw (.outOfRange what))
    (hothers : ∀ {t n other}, t ≠ thread → m.calls.At t n other → other.place = .popping →
      other.bytesToRead ≤ object.contents.length) :
    Enough ({ m with object := object, handed := handed }.complete thread number call outcome) where
  never c hc what := by
    rcases List.mem_append.mp hc with hold | hnew
    · exact h.never c hold what
    · obtain rfl := List.mem_singleton.mp hnew
      exact houtcome what
  popping hat hpopping := by
    obtain ⟨hne, hold⟩ := Calls.of_leave hat
    exact hothers hne hold hpopping

theorem Enough.move {a : Action} (h : Enough m) (ha : m.LeavesEnough a) (hmoves : Moves m a m') :
    Enough m' := by
  have hsame {t n : Nat} {other : BufferedRead} (hat : m.calls.At t n other)
      (hpopping : other.place = .popping) : other.bytesToRead ≤ m.object.contents.length :=
    h.popping hat hpopping
  cases hmoves with
  | calls =>
      refine ⟨h.never, fun hat hpopping => ?_⟩
      rcases Calls.of_enter hat with ⟨-, -, rfl⟩ | ⟨-, hold⟩
      · cases hpopping
      · exact hsame hold hpopping
  | refuses hat => exact h.complete nofun fun _ => hsame
  | accepts => exact h.goesOn (Nat.le_refl _) nofun
  | fallsShort => exact h.goesOn (Nat.le_refl _) nofun
  | passes _ hle => exact h.goesOn (Nat.le_refl _) fun _ => hle
  | fills _ _ hcontents _ =>
      refine h.goesOn ?_ nofun
      rw [hcontents, List.length_append]
      exact Nat.le_add_right _ _
  | fillFails _ _ hcontents _ =>
      refine h.complete nofun fun _ hat hpopping => ?_
      rw [hcontents]
      exact hsame hat hpopping
  | @pops thread number call object hat _ hle hpopped =>
      refine h.complete nofun fun hne hother hpopping => ?_
      have hsum := ha _ (Calls.call?_eq_some.mpr hat) _ (Calls.mem_others.mpr ⟨_, _, hne, hother⟩) hpopping
      rw [hpopped.contents, List.length_drop]
      simp only at hsum
      omega
  | popFails hat hplace hlt => exact absurd (hsame hat hplace) (Nat.not_le.mpr hlt)

theorem Enough.of_reach {bufferSize threads : Nat}
    (h : Reach step (fun m a => m.LeavesEnough a) (start sent bufferSize threads) m) : Enough m := by
  have hstart : Enough (start sent bufferSize threads) := ⟨nofun, fun hat => absurd hat Calls.not_at_start⟩
  exact h.invariant_of hstart (fun _ hr => Sound.of_reach hr) fun _ _ _ hs hm ha hstep =>
    hm.move ha (moves_of_step hs.valid hstep)

/-! ## A pop that leaves less -/

theorem step_pop_of_lt (hv : m.object.Valid) (hat : m.calls.At thread number call)
    (hplace : call.place = .popping) (hlt : m.object.contents.length < call.bytesToRead) :
    ∃ what, m.step (.pop thread) =
      some (m.complete thread number call (.threw (.outOfRange what))) := by
  obtain ⟨what, hpop⟩ := BufferedStream.popFromBuffer_of_lt hv hlt
  exact ⟨what, by simp [step, Calls.call?_eq_some.mpr hat, stepCall, hplace, hpop]⟩

/-- A call that is past its test and finds less than it needs at its pop throws. -/
theorem Enough.disturbed {a : Action} (h : Enough m) (ha : ¬ m.LeavesEnough a) (hmoves : Moves m a m') :
    ∃ last, Reach step (fun _ _ => True) m' last ∧ ¬ last.NeverOutOfRange := by
  cases hmoves with
  | @pops thread number call object hat _ hle hpopped =>
      simp only [LeavesEnough, Calls.call?_eq_some.mpr hat, Option.mem_some_iff, forall_eq', not_forall] at ha
      obtain ⟨other, hother, hpopping, hsum⟩ := ha
      obtain ⟨t, n, hne, hkept⟩ := Calls.mem_others.mp hother
      have hlt : object.contents.length < other.bytesToRead := by
        rw [hpopped.contents, List.length_drop]
        omega
      have hthere : ({ m with
          object := object
          handed := m.handed ++ tag number (m.object.contents.take call.bytesToRead) }.complete thread
            number call (.returned (m.object.contents.take call.bytesToRead))).calls.At t n other :=
        hkept.leave_other hne
      obtain ⟨what, hstep⟩ := step_pop_of_lt hpopped.valid hthere hpopping hlt
      exact ⟨_, .single trivial hstep, fun hnever =>
        hnever _ (List.mem_append_right _ (List.mem_singleton.mpr rfl)) what rfl⟩
  | popFails hat hplace hlt => exact absurd (h.popping hat hplace) (Nat.not_le.mpr hlt)
  | _ => exact absurd trivial ha

end BufferedReaders

end SocketWrapper
