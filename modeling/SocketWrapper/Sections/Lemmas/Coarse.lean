import SocketWrapper.Sections.Lemmas.Fine

/-!
# A step is a section

A thread that meets no other in its section does in it what the step does.
-/

namespace SocketWrapper

open ConditionalBufferedStream Transition FineMachine

variable {S : Setup} {m m' : Machine} {f f' : FineMachine} {fd : Fd} {token : Bool} {c : Nat}
  {a : SocketWrapper.Action} {place : ReadAt} {size consumers : Nat} {bytes : List Byte}
  {answers : List Answer} {inside : QueueSection}

/-- The fine machine gets from `f` to `f'`. -/
abbrev Passes (S : Setup) : FineMachine → FineMachine → Prop :=
  Reach (FineMachine.step S) (fun _ _ => True)

theorem passes_act {b : FineMachine.Action} (hopen : f.machine.halted = false) (h : f.act S b = some f') :
    Passes S f f' := by
  apply Reach.single (a := b) trivial
  rw [FineMachine.step, hopen, if_neg Bool.false_ne_true, h]

theorem passes_unlock {thread : SectionThread} (hopen : m.halted = false) :
    Passes S ⟨m, .leaving thread⟩ ⟨m, .free⟩ :=
  passes_act (b := .unlock) hopen rfl

/-- A step that needs no mutex. -/
theorem passes_other (hopen : m.halted = false) (hlocks : entersSection m a = false) (h : m.act S a = some m') :
    Passes S ⟨m, .free⟩ ⟨m', .free⟩ := by
  apply passes_act (b := .other a) hopen
  have hnot : ¬ (entersSection m a = true ∨ (thread? a).isSome ∧ thread? a = QueueSection.free.thread?) := by
    rw [not_or, hlocks]
    refine ⟨by simp, fun ⟨hsome, hnone⟩ => ?_⟩
    rw [hnone] at hsome
    cases hsome
  simp only [FineMachine.act, if_neg hnot, h, Option.map_some]

/-! ## `read` -/

theorem passes_accessRead (hopen : m.halted = false) (hat : m.consumers[c]? = some (.popping fd token))
    (place : ReadAt) : Passes S ⟨m, .reading c place⟩ (accessRead m c fd token place) := by
  apply passes_act (b := .access) hopen
  simp only [FineMachine.act, access, hat]

theorem passes_lock_consumer (hopen : m.halted = false) (hat : m.consumers[c]? = some (.popping fd token)) :
    Passes S ⟨m, .free⟩ ⟨m, .reading c .find⟩ := by
  apply passes_act (b := .lock (.consumer c)) hopen
  simp only [FineMachine.act, hat]

/-- The accesses of `read`, one after the other. -/
theorem passes_read (hopen : m.halted = false) (hat : m.consumers[c]? = some (.popping fd token)) :
    Passes S ⟨m, .reading c .find⟩
      ⟨{ m with stream := (m.stream.read fd).2 }.complete c fd token (m.stream.read fd).1,
        .leaving (.consumer c)⟩ := by
  have hfind := passes_accessRead (S := S) hopen hat .find
  have hempty := passes_accessRead (S := S) hopen hat .empty
  cases hqueue : m.stream.receivedDataPerCondition fd with
  | none =>
      rw [read_of_none hqueue]
      simp only [accessRead, hqueue] at hfind
      exact hfind
  | some queue =>
      simp only [accessRead, hqueue] at hfind
      refine hfind.trans ?_
      cases queue with
      | nil =>
          simp only [accessRead, ConditionalBufferedStream.queue, hqueue, Option.getD_some, ↓reduceIte] at hempty
          refine hempty.trans ?_
          have hlastEx := passes_accessRead (S := S) hopen hat .lastEx
          by_cases hlast : m.stream.lastEx ≠ .SOCKET_OK
          · rw [read_of_failed hqueue hlast]
            simp only [accessRead, if_pos hlast] at hlastEx
            exact hlastEx.trans (passes_accessRead hopen hat .throwLastEx)
          · rw [read_of_nil hqueue hlast]
            simp only [accessRead, if_neg hlast] at hlastEx
            exact hlastEx
      | cons data queue =>
          rw [read_of_cons hqueue]
          have hfront := passes_accessRead (S := S) hopen hat .front
          simp only [accessRead, ConditionalBufferedStream.queue, hqueue, Option.getD_some, reduceCtorEq,
            ↓reduceIte, List.headD_cons] at hempty hfront
          exact (hempty.trans hfront).trans (passes_accessRead hopen hat (.popFront data))

/-! ## The section of the worker -/

theorem passes_lock_worker {v : Int32} {frame : Frame} {frames : List Frame} (hopen : m.halted = false)
    (hw : m.worker = .popping fd v frame frames) : Passes S ⟨m, .free⟩ ⟨m, .popping .pop⟩ := by
  apply passes_act (b := .lock .worker) hopen
  simp only [FineMachine.act, hw]

theorem passes_accessPop {v : Int32} {frame : Frame} {frames : List Frame} {place : PopAt}
    (hopen : m.halted = false) (hw : m.worker = .popping fd v frame frames)
    (h : accessPop S m fd v frame frames place = some f') : Passes S ⟨m, .popping place⟩ f' := by
  apply passes_act (b := .access) hopen
  simp only [FineMachine.act, access, hw, h]

/-- The worker's step from `PopFromBuffer` on. -/
theorem passes_popping {v : Int32} {frame : Frame} {frames : List Frame} {w : WorkerAt}
    {s : ConditionalBufferedStream} (hopen : m.halted = false) (hw : m.worker = .popping fd v frame frames)
    (h : workerStep S (.popping fd v frame frames) m.stream = some (w, s)) :
    Passes S ⟨m, .popping .pop⟩ ⟨{ m with worker := w, stream := s }, .leaving .worker⟩ := by
  cases hpop : m.stream.stream.popFromBuffer (absSize v) with
  | mk o b =>
      cases o with
      | waiting => simp [workerStep, popAndQueue, onStream, hpop, Outcome.andThen] at h
      | threw e =>
          simp only [workerStep, popAndQueue, onStream, hpop, Outcome.andThen_threw, Option.some.injEq,
            Prod.mk.injEq] at h
          obtain ⟨rfl, rfl⟩ := h
          apply passes_accessPop hopen hw
          simp only [accessPop, hpop]
      | returned readData =>
          have hpopped : accessPop S m fd v frame frames .pop =
              some ⟨{ m with stream := { m.stream with stream := b } }, .popping (.push readData)⟩ := by
            simp only [accessPop, hpop]
          refine (passes_accessPop hopen hw hpopped).trans (passes_accessPop hopen hw ?_)
          simp only [workerStep, popAndQueue, onStream, hpop, Outcome.andThen_returned] at h
          simp only [accessPop]
          split at h
          · rename_i hpos
            cases h
            rw [if_pos hpos]
          · rename_i hpos
            cases h
            rw [if_neg hpos]

/-! ## The steps -/

/-- The fine machine is where the other one is, and nobody is in a section, unless the process is terminated
before the one that was in it unlocks. -/
structure Rests (m : Machine) (f : FineMachine) : Prop where
  machine : f.machine = m
  ended : f.inside = .free ∨ m.halted = true ∧ f.inside.Over

/-- The one that has locked unlocks, unless the process is terminated before. -/
theorem exists_unlocked {thread : SectionThread} (h : Passes S f ⟨m, .leaving thread⟩) :
    ∃ f', Passes S f f' ∧ Rests m f' := by
  cases hhalted : m.halted with
  | false => exact ⟨_, h.trans (passes_unlock hhalted), rfl, .inl rfl⟩
  | true => exact ⟨_, h, rfl, .inr ⟨hhalted, trivial⟩⟩

theorem rests_pop (hopen : m.halted = false) (hmove : ConsumerMove m c .pop m') :
    ∃ f', Passes S ⟨m, .free⟩ f' ∧ Rests m' f' := by
  cases hmove with
  | pops hat => exact exists_unlocked ((passes_lock_consumer hopen hat).trans (passes_read hopen hat))

theorem rests_worker (hopen : m.halted = false) (hpopping : isPopping m.worker = true)
    (hact : m.act S .worker = some m') : ∃ f', Passes S ⟨m, .free⟩ f' ∧ Rests m' f' := by
  obtain ⟨⟨w, s⟩, hstep, rfl⟩ := Option.map_eq_some_iff.mp hact
  cases hw : m.worker with
  | popping fd v frame frames =>
      rw [hw] at hstep
      exact exists_unlocked ((passes_lock_worker hopen hw).trans (passes_popping hopen hw hstep))
  | _ =>
      rw [hw] at hpopping
      cases hpopping

/-- Each step of the machine is a step of the fine one, or a whole section. -/
theorem rests_step (h : Rests m f) (hstep : m.step S a = some m') : ∃ f', Passes S f f' ∧ Rests m' f' := by
  obtain ⟨machine, inside⟩ := f
  obtain ⟨hopen, hmove⟩ := move_of_step hstep
  obtain ⟨rfl, hended⟩ := h
  obtain rfl : inside = .free := hended.resolve_right fun hhalted => by simp [hopen] at hhalted
  have hact : machine.act S a = some m' := by
    rwa [Machine.step, hopen, if_neg Bool.false_ne_true] at hstep
  cases hlocks : entersSection machine a with
  | false => exact ⟨_, passes_other hopen hlocks hact, rfl, .inl rfl⟩
  | true =>
      cases a with
      | worker => exact rests_worker hopen hlocks hact
      | consumer c a =>
          cases a with
          | pop =>
              cases hmove with
              | consumer hpop => exact rests_pop hopen hpop
          | _ => cases hlocks
      | _ => cases hlocks

/-- Wherever the machine gets, the fine one does. -/
theorem exists_rests
    (h : Reach (Machine.step S) (fun _ _ => True) (.connected S size bytes answers consumers) m) :
    ∃ f, Passes S (.start (.connected S size bytes answers consumers)) f ∧ Rests m f :=
  h.simulate (R := Rests) ⟨rfl, .inl rfl⟩ fun _ _ _ _ _ hrests _ hstep => rests_step hrests hstep

end SocketWrapper
