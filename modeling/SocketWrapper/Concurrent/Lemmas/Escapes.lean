import SocketWrapper.Concurrent.Lemmas.Recorded

/-!
# What ends the worker

An exception leaves the thread function if a condition asks for more than is in the buffer, and, where
the posts succeed, for no other reason.
-/

namespace SocketWrapper

open ConditionalBufferedStream

variable {S : Setup} {s s' : ConditionalBufferedStream} {w w' : WorkerAt} {m m' : Machine} {fd : Fd}
  {allowed : Machine → Action → Prop} {size : Nat} {bytes : List Byte} {answers : List Answer} {consumers : Nat}

/-! ## The data of the calls -/

/-- Every call has at least as much data as there is in the buffer. -/
def Covers (s : ConditionalBufferedStream) (frames : List Frame) : Prop :=
  ∀ f ∈ frames, s.contents.length ≤ f.data.length

/-- The calls cover the buffer, and after a pop also the one that comes next. -/
def Covered (s : ConditionalBufferedStream) : WorkerAt → Prop
  | .dispatching frames => Covers s frames
  | .popping _ _ frame frames => Covers s (frame :: frames)
  | .posting _ v frame frames => Covers s (⟨frame.data.drop (absSize v), []⟩ :: frame :: frames)
  | _ => True

theorem Covers.of_le {frames : List Frame} (h : Covers s frames)
    (hle : s'.contents.length ≤ s.contents.length) : Covers s' frames :=
  fun f hf => Nat.le_trans hle (h f hf)

theorem Covers.of_bytes {frames : List Frame} (h : Covers s frames)
    (hsame : s'.contents = s.contents) : Covers s' frames :=
  h.of_le (Nat.le_of_eq (congrArg List.length hsame))

theorem Covers.replace {frames : List Frame} {f f' : Frame} (h : Covers s (f :: frames))
    (hdata : f'.data = f.data) : Covers s (f' :: frames) := by
  intro g hg
  rcases List.mem_cons.mp hg with rfl | hg
  · rw [hdata]
    exact h f (List.mem_cons_self ..)
  · exact h g (List.mem_cons_of_mem _ hg)

theorem Covers.popped {frames : List Frame} {frame : Frame} {v : Int32}
    (h : Covers s (frame :: frames)) (hcontents : s'.contents = s.contents.drop (absSize v)) :
    Covers s' (⟨frame.data.drop (absSize v), []⟩ :: frame :: frames) := by
  have hlen : s'.contents.length = s.contents.length - absSize v := by
    rw [hcontents, List.length_drop]
  have hframe := h frame (List.mem_cons_self ..)
  intro f hf
  rcases List.mem_cons.mp hf with rfl | hf
  · simp only [List.length_drop]
    omega
  · exact Nat.le_trans (hlen ▸ Nat.sub_le ..) (h f hf)

@[simp] theorem covered_raised (e : Exception) : Covered s (.raised e) := by
  cases e <;> trivial

theorem contents_post {o : Outcome Unit} (hpost : s.post S fd = (o, s')) : s'.contents = s.contents := by
  obtain rfl := eq_of_post hpost
  rfl

theorem Covered.worker (h : Covered s w) (hv : s.stream.Valid) (hmove : WorkerMove S w s w' s') :
    Covered s' w' := by
  cases hmove with
  | filled =>
      intro f hf
      rw [List.mem_singleton.mp hf]
      exact Nat.le_refl _
  | readFailed => exact covered_raised _
  | drained => trivial
  | returned => exact fun f hf => h f (List.mem_cons_of_mem _ hf)
  | refused => exact covered_raised _
  | skipped => exact (Covers.of_bytes h rfl).replace rfl
  | matched => exact (Covers.of_bytes h rfl).replace rfl
  | popped hpop _ =>
      obtain ⟨-, -, hcontents, -, -⟩ := of_popAndQueue_returned hv hpop
      exact Covers.popped h hcontents
  | discarded hpop _ =>
      obtain ⟨-, -, hcontents, -, -⟩ := of_popAndQueue_returned hv hpop
      exact (Covers.popped h hcontents).replace rfl
  | popFailed => exact covered_raised _
  | posted hpost => exact (Covers.of_bytes h (contents_post hpost)).replace rfl
  | postFailed => exact covered_raised _
  | _ => trivial

theorem Covered.of_reach
    (h : Transition.Reach (Machine.step S) allowed (.connected S size bytes answers consumers) m) :
    Covered m.stream m.worker := by
  refine h.invariant_of (P := fun m : Machine => Covered m.stream m.worker) trivial
    (fun _ hr => Conserved.of_reach hr) fun m a m' hq hm _ hstep => ?_
  cases (move_of_step hstep).2 with
  | start => trivial
  | worker hw => exact hm.worker hq.valid hw
  | consumer hc =>
      obtain ⟨q, k, cs, done, rfl⟩ := hc.frame
      exact hm
  | _ => exact hm

/-! ## Evaluations that ask for too much -/

/-- No condition has asked for more than was in the buffer. -/
def WithinBuffer (es : List Evaluation) : Prop := ∀ e ∈ es, absSize e.value ≤ e.buffer.length

theorem not_withinBuffer {es : List Evaluation} :
    ¬ WithinBuffer es ↔ ∃ e ∈ es, e.buffer.length < absSize e.value := by
  simp [WithinBuffer]

theorem WithinBuffer.concat {es : List Evaluation} {e : Evaluation} (h : WithinBuffer es)
    (he : absSize e.value ≤ e.buffer.length) : WithinBuffer (es ++ [e]) := by
  intro d hd
  rcases List.mem_append.mp hd with hd | hd
  · exact h d hd
  · exact List.mem_singleton.mp hd ▸ he

theorem not_withinBuffer_concat {es : List Evaluation} {e : Evaluation}
    (he : e.buffer.length < absSize e.value) : ¬ WithinBuffer (es ++ [e]) :=
  fun h => Nat.not_le_of_lt he (h e (by simp))

/-- By the place of the worker: whether the conditions have kept to the buffer. Before the pop it is not
known of the last one. -/
def Asked (s : ConditionalBufferedStream) : WorkerAt → Prop
  | .terminated _ => ¬ WithinBuffer s.evaluations
  | .popping _ v _ _ => ∃ asked e, s.evaluations = asked ++ [e] ∧ WithinBuffer asked ∧ e.value = v ∧
      e.buffer = s.contents
  | _ => WithinBuffer s.evaluations

theorem evaluations_evaluate (s : ConditionalBufferedStream) (h : BufferEventHandler) (data : List Byte) :
    (s.evaluate h data).2.evaluations =
      s.evaluations ++ [⟨h.fd, data, s.contents, (s.evaluate h data).1⟩] := rfl

theorem evaluations_post {o : Outcome Unit} (hpost : s.post S fd = (o, s')) :
    s'.evaluations = s.evaluations := by
  obtain rfl := eq_of_post hpost
  rfl

theorem of_read_threw (hv : s.stream.Valid) {e : Exception} {b : BufferedStream}
    (hread : s.stream.readAvailableDataIntoBuffer (-1) = (.threw e, b)) :
    ∃ ex, e = .socket ex := by
  have hrefill := BufferedStream.refill hv (-1)
  rw [hread] at hrefill
  cases hrefill with
  | closed => exact ⟨_, rfl⟩
  | failed => exact ⟨_, rfl⟩

theorem Asked.popped {v : Int32} {frame : Frame} {frames : List Frame}
    (h : Asked s (.popping fd v frame frames)) (hv : s.stream.Valid)
    (hpop : s.popAndQueue fd v = (.returned (), s')) : WithinBuffer s'.evaluations := by
  obtain ⟨asked, e, heq, hwithin, hvalue, hbuffer⟩ := h
  obtain ⟨hle, -, -, hevaluations, -⟩ := of_popAndQueue_returned hv hpop
  rw [hevaluations, heq]
  exact hwithin.concat (by rw [hvalue, hbuffer]; exact hle)

theorem Asked.worker (h : Asked s w) (hcovered : Covered s w) (hv : s.stream.Valid)
    (hp : s.PostsSucceed S) (hmove : WorkerMove S w s w' s') : Asked s' w' := by
  cases hmove with
  | filled => exact h
  | readFailed hread =>
      obtain ⟨ex, rfl⟩ := of_read_threw hv hread
      exact h
  | drained => exact h
  | returned => exact h
  | @refused s data handler rest frames hlt =>
      have hle := hcovered ⟨data, handler :: rest⟩ (List.mem_cons_self ..)
      exact not_withinBuffer_concat (Nat.lt_of_le_of_lt hle hlt)
  | skipped hzero =>
      show WithinBuffer _
      rw [evaluations_evaluate]
      exact WithinBuffer.concat h (by simp [hzero])
  | matched => exact ⟨_, _, evaluations_evaluate _ _ _, h, rfl, rfl⟩
  | popped hpop _ => exact h.popped hv hpop
  | discarded hpop _ => exact h.popped hv hpop
  | popFailed hpop =>
      obtain ⟨asked, e, heq, -, hvalue, hbuffer⟩ := h
      obtain ⟨hlt, rfl, what, rfl⟩ := of_popAndQueue_threw hv hpop
      show ¬ WithinBuffer _
      rw [heq]
      exact not_withinBuffer_concat (by rw [hvalue, hbuffer]; exact hlt)
  | posted hpost =>
      show WithinBuffer _
      rw [evaluations_post hpost]
      exact h
  | postFailed hpost =>
      rw [post_of_succeeds hp] at hpost
      cases hpost
  | terminates => exact h
  | records => exact h
  | notified hpost =>
      show WithinBuffer _
      rw [evaluations_post hpost]
      exact h
  | notifyFailed hpost =>
      rw [post_of_succeeds hp] at hpost
      cases hpost
  | ends => exact h

theorem closed_of_reach (hallowed : ∀ m a, allowed m a → a ≠ .destructor)
    (h : Transition.Reach (Machine.step S) allowed (.connected S size bytes answers consumers) m) :
    m.stream.eventFds.closed = [] := by
  refine h.invariant_of (P := fun m : Machine => m.stream.eventFds.closed = []) rfl
    (fun _ hr => Conserved.of_reach hr) fun m a m' hq hm ha hstep => ?_
  have hliving := hallowed m a ha
  cases (move_of_step hstep).2 with
  | worker hw =>
      obtain ⟨new, rs, hflow⟩ := hw.flow hq.valid
      exact hflow.closed.trans hm
  | consumer hc =>
      obtain ⟨q, k, cs, done, rfl⟩ := hc.frame
      exact hm
  | closes => exact absurd rfl hliving
  | _ => exact hm

theorem Asked.of_reach (hallowed : ∀ m a, allowed m a → a ≠ .destructor)
    (hwrite : ∀ n, S.eventfdWrite n = none)
    (h : Transition.Reach (Machine.step S) allowed (.connected S size bytes answers consumers) m) :
    Asked m.stream m.worker := by
  have h₀ : WithinBuffer (connected S size bytes 0 answers).evaluations := fun _ he => by cases he
  refine h.invariant_of (P := fun m : Machine => Asked m.stream m.worker) h₀
    (fun _ hr => And.intro (Conserved.of_reach hr)
      (And.intro (Covered.of_reach hr) (closed_of_reach hallowed hr)))
    fun m a m' hq hm ha hstep => ?_
  obtain ⟨hconserved, hcovered, hopened⟩ := hq
  cases (move_of_step hstep).2 with
  | start hw =>
      rw [hw] at hm
      exact hm
  | worker hw => exact hm.worker hcovered hconserved.valid ⟨hwrite, hopened⟩ hw
  | consumer hc =>
      obtain ⟨q, k, cs, done, rfl⟩ := hc.frame
      exact hm
  | _ => exact hm

/-! ## Exceptions that leave the thread function -/

/-- An exception has left the thread function, or will with the next step, which asks no condition. -/
def Machine.Escapes (S : Setup) (m : Machine) : Prop :=
  (∃ e, m.worker = .terminated e) ∨
    ∃ e s, workerStep S m.worker m.stream = some (.terminated e, s) ∧ s.evaluations = m.stream.evaluations

theorem workerStep_popping_of_lt {v : Int32} {frame : Frame} {frames : List Frame} (hv : s.stream.Valid)
    (hlt : s.contents.length < absSize v) :
    ∃ e, workerStep S (.popping fd v frame frames) s = some (.terminated e, s) := by
  obtain ⟨what, hpop⟩ := popAndQueue_of_lt fd hv hlt
  exact ⟨.outOfRange what, by simp [workerStep, hpop, WorkerAt.raised]⟩

theorem Asked.escapes_iff (h : Asked m.stream m.worker) (hcovered : Covered m.stream m.worker)
    (hv : m.stream.stream.Valid) (hp : m.stream.PostsSucceed S) :
    m.Escapes S ↔ ∃ e ∈ m.stream.evaluations, e.buffer.length < absSize e.value := by
  rw [← not_withinBuffer]
  constructor
  · rintro (⟨e, hw⟩ | ⟨e, s, hstep, hsame⟩)
    · rw [hw] at h
      exact h
    · have hasked := h.worker hcovered hv hp (workerMove_of_step hstep)
      exact hsame ▸ hasked
  · intro hnot
    obtain ⟨s, w, cs, stopping, stopped, d, done⟩ := m
    cases w with
    | terminated e => exact .inl ⟨e, rfl⟩
    | popping fd v frame frames =>
        obtain ⟨asked, e, heq, hwithin, rfl, hbuffer⟩ := h
        have hlt : s.contents.length < absSize e.value := by
          by_contra hle
          rw [heq] at hnot
          exact hnot (hwithin.concat (hbuffer ▸ Nat.not_lt.mp hle))
        obtain ⟨e', hstep⟩ := workerStep_popping_of_lt (S := S) hv hlt
        exact .inr ⟨e', s, hstep, rfl⟩
    | _ => exact absurd h hnot

end SocketWrapper
