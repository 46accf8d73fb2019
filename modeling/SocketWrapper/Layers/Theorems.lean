import SocketWrapper.Layers.Lemmas.Rules

/-!
# Deadlocks of the layers

Any number of threads, on any number of streams.
-/

namespace SocketWrapper

open Guards Layers Transition

variable {conditions : Nat → Code LayerMutex Procedure} {g : Layers} {n i j s : Nat} {worker : Nat → Nat}

/-! ## A run -/

/-- Conditions that answer what they see. -/
def replies : Nat → Code LayerMutex Procedure := fun s => .call (.write s)

theorem replies_callsOnly {allowed : Procedure → Bool} (h : ∀ s, allowed (.write s) = true) (s : Nat) :
    CallsOnly allowed (replies s) := h s

/-- The worker of a stream is about to pop a segment, and a thread that reads wants the queue. -/
def queueLocked : Layers :=
  after (Layers.step replies) (UsesConditional fun _ => 0) (Threads.start 2)
    (.start 0 (.conditionalBufferWorker 0) ::
      ([true, true, true, true, true, true, true, false, true, true, false, true, true, true, true, true, true,
        true, false, false, true, true].map (.advance 0)) ++ [.start 1 (.read 0), .advance 1 true])

theorem reach_queueLocked :
    Reach (Layers.step replies) (UsesConditional fun _ => 0) (Threads.start 2) queueLocked := .after _ _

theorem queueLocked_worker : .receivedDataPerConditionMtx 0 ∈ held (queueLocked.stack 0) := by decide

theorem queueLocked_reader : queueLocked.Wants 1 (.receivedDataPerConditionMtx 0) := ⟨.skip, [], by decide⟩

/-! ## The layers -/

/-- No run gets into a deadlock in which the conditions call public functions only, whichever these are, and
the moves are orderly: no stream gets its own value back over the assignments, and none that is constructed
from is assigned to or from. A thread that cannot lock a mutex waits, through others, for one that can go
on. -/
theorem layers_never_deadlock {moves : List LockingCall} (hmoves : LockingCall.Orderly moves)
    (hconditions : ∀ s, CallsOnly (Procedure.IsPublicAmong moves) (conditions s))
    (h : Reach (Layers.step conditions) (Uses moves) (Threads.start n) g) :
    ¬ g.Deadlocked ∧ ∀ i, g.Blocked LayerMutex.recursive i →
      ∃ j, Relation.TransGen (g.WaitsFor LayerMutex.recursive) i j ∧
        ∀ b, ∃ g', g.step conditions (.advance j b) = some g' := by
  obtain ⟨order⟩ := hmoves.exists_lockOrder
  have hrespected : (rules order fun _ _ => True).Respected (Procedure.body conditions) :=
    rules_respected (fun _ hp => ⟨hp, fun _ _ _ => trivial⟩) hconditions
  obtain ⟨hfit, hexclusive⟩ := Threads.fit_and_exclusive_of_reach hrespected
    (h.mono fun _ _ => started_of_uses)
  have hordered := rules_ordered order fun _ _ => True
  refine ⟨fun ⟨S, hstuck⟩ => Threads.not_stuck hfit hexclusive hordered S hstuck, fun i hblocked => ?_⟩
  obtain ⟨j, hchain, hfree⟩ := Threads.exists_not_blocked hfit hexclusive hordered hblocked
  refine ⟨j, hchain, Threads.exists_advance ?_ hfree⟩
  obtain ⟨l, -, m, -, hheld, -⟩ := Relation.TransGen.tail'_iff.mp hchain
  exact Threads.stack_ne_nil hheld

/-- An assignment, and a stream that is constructed from another. -/
def movesApart : List LockingCall := [.assign 1 2, .construct 0]

theorem movesApart_orderly : LockingCall.Orderly movesApart where
  acyclic := by
    refine WaitFor.acyclic_of_lt (fun s => s) fun target src hmem => ?_
    simp only [LockingCall.AssignedFrom, movesApart, List.mem_cons, LockingCall.assign.injEq, reduceCtorEq,
      List.not_mem_nil, or_false] at hmem
    omega
  apart hconstruct hassign := by
    simp only [movesApart, List.mem_cons, LockingCall.construct.injEq, LockingCall.assign.injEq, reduceCtorEq,
      List.not_mem_nil, or_false, false_or] at hconstruct hassign
    omega

/-- A stream is being constructed from another. The assignment waits for the mutex of a thread that reads from
its source, and a thread that reads from its target waits for the assignment. -/
def assignmentWaiting : Layers :=
  after (Layers.step replies) (Uses movesApart) (Threads.start 4)
    ([.start 0 (.construct 0), .advance 0 true, .advance 0 true, .start 1 (.streamRead 2)] ++
      List.replicate 3 (.advance 1 true) ++ [.start 2 (.moveAssign 1 2)] ++
      List.replicate 4 (.advance 2 true) ++ [.start 3 (.streamRead 1), .advance 3 true, .advance 3 true])

theorem assignmentWaiting_waits :
    assignmentWaiting.WaitsFor LayerMutex.recursive 3 2 ∧
      assignmentWaiting.WaitsFor LayerMutex.recursive 2 1 :=
  ⟨⟨.streamMtx (.readMtx 1), ⟨.wait, _, rfl⟩, by decide, by decide⟩,
    ⟨.streamMtx (.readMtx 2), ⟨.skip, _, rfl⟩, by decide, by decide⟩⟩

theorem layers_never_deadlock_assignmentWaiting :
    ¬ assignmentWaiting.Deadlocked ∧
      ∃ j, Relation.TransGen (assignmentWaiting.WaitsFor LayerMutex.recursive) 3 j ∧
        ∀ b, ∃ g', assignmentWaiting.step replies (.advance j b) = some g' := by
  have hreach : Reach (Layers.step replies) (Uses movesApart) (Threads.start 4) assignmentWaiting := .after _ _
  have h := layers_never_deadlock movesApart_orderly (replies_callsOnly fun _ => rfl) hreach
  exact ⟨h.1, h.2 3 ⟨2, assignmentWaiting_waits.1⟩⟩

/-- A thread in `ConditionalBufferedStream::read` waits for no data and for no other thread that waits: whoever
has locked the queue before it can go on by itself. -/
theorem read_waits_for_no_data (hconditions : ∀ s, CallsOnly Procedure.OfConditional (conditions s))
    (h : Reach (Layers.step conditions) (UsesConditional worker) (Threads.start n) g)
    (hlocked : .receivedDataPerConditionMtx s ∈ held (g.stack j)) :
    ¬ g.Polls j ∧ ¬ g.Blocked LayerMutex.recursive j ∧
      ∀ b, ∃ g', g.step conditions (.advance j b) = some g' := by
  obtain ⟨order⟩ := LockingCall.orderly_nil.exists_lockOrder
  have hrespected : (rules order fun i s => i = worker s).Respected (Procedure.body conditions) := by
    refine rules_respected (fun p hp => ?_) hconditions
    obtain ⟨hpublic, hbuffer, hmove⟩ := of_conditional hp
    refine ⟨isPublicAmong_iff.mpr ⟨hpublic, mem_of_move?_eq_none hmove⟩, fun i s hs => ?_⟩
    rw [hbuffer] at hs
    cases hs
  obtain ⟨hfit, -⟩ := Threads.fit_and_exclusive_of_reach hrespected
    (h.mono fun _ _ => started_of_usesConditional)
  have hfree := not_blocked hfit hlocked
  exact ⟨not_polls hfit hlocked, hfree, Threads.exists_advance (Threads.stack_ne_nil hlocked) hfree⟩

theorem read_waits_for_no_data_queueLocked :
    queueLocked.Wants 1 (.receivedDataPerConditionMtx 0) ∧
      ∀ b, ∃ g', queueLocked.step replies (.advance 0 b) = some g' :=
  ⟨queueLocked_reader,
    (read_waits_for_no_data (replies_callsOnly fun _ => rfl) reach_queueLocked queueLocked_worker).2.2⟩

end SocketWrapper
