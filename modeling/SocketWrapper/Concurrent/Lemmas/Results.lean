import SocketWrapper.Concurrent.Lemmas.Terminates

/-!
# What becomes of a condition's result

The result is an `int`; it is compared with a `size_t` and given to `PopFromBuffer` as one.
-/

namespace SocketWrapper

open ConditionalBufferedStream

variable {S : Setup} {s : ConditionalBufferedStream} {h : BufferEventHandler}
  {rest : List BufferEventHandler} {data : List Byte} {frames : List Frame}

/-- In the loop over the handlers, with `h` the next one. -/
def WorkerAt.atHandler (h : BufferEventHandler) (rest : List BufferEventHandler) (data : List Byte)
    (frames : List Frame) : WorkerAt :=
  .dispatching (⟨data, h :: rest⟩ :: frames)

/-- The condition's result `v` is refused exactly if `|v|` is more than the length of the data, and if it
is not, the pop that it leads to takes `|v|` bytes. -/
structure HonoursResult (S : Setup) (s : ConditionalBufferedStream) (h : BufferEventHandler)
    (rest : List BufferEventHandler) (data : List Byte) (frames : List Frame) : Prop where
  refused : workerSteps S 1 (.atHandler h rest data frames, s) =
      some (.raised tooMuchData, (s.evaluate h data).2) ↔
    data.length < (s.evaluate h data).1.toInt.natAbs
  popped : (s.evaluate h data).1.toInt.natAbs ≤ data.length →
    ∃ p, workerSteps S (if (s.evaluate h data).1 = 0 then 1 else 2)
        (.atHandler h rest data frames, s) = some p ∧
      p.2.contents = s.contents.drop (s.evaluate h data).1.toInt.natAbs ∧
      p.2.contents.length + (s.evaluate h data).1.toInt.natAbs = s.contents.length

/-! ## The steps -/

theorem refused_iff : workerSteps S 1 (.atHandler h rest data frames, s) =
    some (.raised tooMuchData, (s.evaluate h data).2) ↔ data.length < absSize (s.evaluate h data).1 := by
  simp only [workerSteps, WorkerAt.atHandler, workerStep]
  by_cases hlt : data.length < absSize (s.evaluate h data).1
  · simp [hlt]
  · by_cases hzero : (s.evaluate h data).1 = 0
    · simp [hzero, WorkerAt.raised, tooMuchData]
    · simp [hlt, hzero, WorkerAt.raised, tooMuchData]

theorem workerSteps_of_zero (hzero : (s.evaluate h data).1 = 0) :
    workerSteps S 1 (.atHandler h rest data frames, s) =
      some (.dispatching (⟨data, rest⟩ :: frames), (s.evaluate h data).2) := by
  simp [workerSteps, WorkerAt.atHandler, workerStep, hzero]

/-- The pop after a result that is not refused. -/
theorem workerSteps_of_le (hne : (s.evaluate h data).1 ≠ 0)
    (hle : absSize (s.evaluate h data).1 ≤ data.length) :
    workerSteps S 2 (.atHandler h rest data frames, s) =
      workerStep S (.popping h.fd (s.evaluate h data).1 ⟨data, rest⟩ frames) (s.evaluate h data).2 := by
  simp only [workerSteps, WorkerAt.atHandler, workerStep, if_neg (Nat.not_lt.mpr hle), if_neg hne,
    Option.bind_some]
  exact Option.bind_fun_some _

/-- The pop takes as many bytes as it is asked for, or none. -/
theorem exists_popStep (fd : Fd) (v : Int32) (frame : Frame) (frames : List Frame) (hv : s.stream.Valid) :
    ∃ p, workerStep S (.popping fd v frame frames) s = some p ∧
      p.2.contents = if absSize v ≤ s.contents.length then s.contents.drop (absSize v) else s.contents := by
  by_cases hle : absSize v ≤ s.contents.length
  · obtain ⟨s', hpop, -, hcontents, -⟩ := popAndQueue_of_le fd hv hle
    simp only [workerStep, hpop, if_pos hle]
    by_cases hpos : 0 < v
    · exact ⟨_, if_pos hpos, hcontents⟩
    · exact ⟨_, if_neg hpos, hcontents⟩
  · obtain ⟨what, hpop⟩ := popAndQueue_of_lt fd hv (Nat.not_le.mp hle)
    simp only [workerStep, hpop, if_neg hle]
    exact ⟨_, rfl, rfl⟩

/-! ## The condition -/

theorem honoursResult_of_ne (hv : s.stream.Valid) (hne : (s.evaluate h data).1 ≠ Int32.minValue) :
    HonoursResult S s h rest data frames ↔
      ((s.evaluate h data).1.toInt.natAbs ≤ data.length →
        (s.evaluate h data).1.toInt.natAbs ≤ s.contents.length) := by
  have habs := absSize_eq hne
  constructor
  · intro hhonours hle
    obtain ⟨p, -, -, hlength⟩ := hhonours.popped hle
    omega
  · intro hroom
    refine ⟨habs ▸ refused_iff, fun hle => ?_⟩
    by_cases hzero : (s.evaluate h data).1 = 0
    · rw [if_pos hzero, workerSteps_of_zero hzero, hzero]
      exact ⟨_, rfl, rfl, rfl⟩
    · obtain ⟨p, hstep, hcontents⟩ := exists_popStep (S := S) (s := (s.evaluate h data).2)
        h.fd (s.evaluate h data).1 ⟨data, rest⟩ frames hv
      rw [if_neg hzero, workerSteps_of_le hzero (habs ▸ hle)]
      have hroom' : absSize (s.evaluate h data).1 ≤ (s.evaluate h data).2.contents.length :=
        habs ▸ hroom hle
      rw [if_pos hroom', habs] at hcontents
      refine ⟨p, hstep, hcontents, ?_⟩
      rw [hcontents, List.length_drop]
      exact Nat.sub_add_cancel (hroom hle)

/-- `abs` leaves the minimum `int` as it is, and as a `size_t` it is larger than any `|v|`. -/
theorem honoursResult_of_eq (hv : s.stream.Valid) (heq : (s.evaluate h data).1 = Int32.minValue) :
    HonoursResult S s h rest data frames ↔ data.length < 2 ^ 31 := by
  have hsize : absSize (s.evaluate h data).1 = 2 ^ 64 - 2 ^ 31 := heq ▸ absSize_minValue
  have habs : (s.evaluate h data).1.toInt.natAbs = 2 ^ 31 := heq ▸ toInt_minValue_natAbs
  have hne : (s.evaluate h data).1 ≠ 0 := heq ▸ by decide
  constructor
  · intro hhonours
    by_contra hge
    have hrefused := refused_iff.symm.trans hhonours.refused
    obtain ⟨p, hsteps, -, hlength⟩ := hhonours.popped (by omega)
    obtain ⟨p', hstep, hcontents⟩ := exists_popStep (S := S) (s := (s.evaluate h data).2)
      h.fd (s.evaluate h data).1 ⟨data, rest⟩ frames hv
    rw [if_neg hne, workerSteps_of_le hne (by omega), hstep] at hsteps
    cases hsteps
    have hsame : (s.evaluate h data).2.contents = s.contents := rfl
    rw [hsame] at hcontents
    split at hcontents
    · rw [hcontents, List.length_drop] at hlength
      omega
    · rw [hcontents] at hlength
      omega
  · intro hlt
    refine ⟨refused_iff.trans ?_, fun hle => ?_⟩
    · omega
    · omega

theorem honoursResult_iff (hv : s.stream.Valid) :
    HonoursResult S s h rest data frames ↔
      ((s.evaluate h data).1 = Int32.minValue → data.length < 2 ^ 31) ∧
      ((s.evaluate h data).1.toInt.natAbs ≤ data.length →
        (s.evaluate h data).1.toInt.natAbs ≤ s.contents.length) := by
  by_cases heq : (s.evaluate h data).1 = Int32.minValue
  · have habs : (s.evaluate h data).1.toInt.natAbs = 2 ^ 31 := heq ▸ toInt_minValue_natAbs
    rw [honoursResult_of_eq hv heq]
    exact ⟨fun hlt => ⟨fun _ => hlt, fun hle => by omega⟩, fun hboth => hboth.1 heq⟩
  · rw [honoursResult_of_ne hv heq]
    exact ⟨fun hroom => ⟨fun h => absurd h heq, hroom⟩, fun hboth => hboth.2⟩

end SocketWrapper
