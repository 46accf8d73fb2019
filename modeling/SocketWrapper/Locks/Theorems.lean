import SocketWrapper.Locks.Lemmas.Circles

/-!
# Deadlocks of the mutexes of `Stream`
-/

namespace SocketWrapper

open Locks LockingCall Transition

/-- No run gets into a deadlock in which a call only begins while it and those in progress are orderly: no
stream gets its own value back over the assignments, and none that is constructed from is assigned to or
from. Threads that make the calls of a list never get into one exactly if the list is orderly. -/
theorem no_deadlock_iff_orderly (threads : Nat) (calls : List LockingCall) :
    (∀ m, Reach step (fun m a => m.KeepsOrder a) (Locks.start threads) m → ¬ m.Deadlocked) ∧
    ((∀ m, Reach step (fun _ a => a.Of calls) (Locks.start calls.length) m → ¬ m.Deadlocked) ↔
      Orderly calls) := by
  refine ⟨fun m hreach hdeadlocked => ?_, fun hnever => ?_, fun h m hreach hdeadlocked => ?_⟩
  · exact hdeadlocked.not_orderly (.of_reach hreach) (orderly_of_reach hreach)
  · by_contra hnot
    obtain ⟨m, hreach, hdeadlocked⟩ := deadlock_of_not_orderly hnot
    exact hnever m hreach hdeadlocked
  · exact hdeadlocked.not_orderly (.of_reach hreach) (h.mono (mem_of_inProgress hreach))

/-- Two assignments in a row, and a thread that reads from the stream between. -/
def callsInOrder : List LockingCall := [.assign 0 1, .assign 1 2, .read 1]

theorem callsInOrder_orderly : Orderly callsInOrder where
  acyclic := by
    refine WaitFor.acyclic_of_lt (fun stream => stream) fun target src hmem => ?_
    simp only [AssignedFrom, callsInOrder, List.mem_cons, LockingCall.assign.injEq, reduceCtorEq,
      List.not_mem_nil, or_false] at hmem
    omega
  apart hconstruct := by simp [callsInOrder] at hconstruct

/-- The reader and the first assignment wait for the second. -/
def lockedInOrder : Locks :=
  after step (fun _ a => a.Of callsInOrder) (Locks.start 3)
    [.call 1 (.assign 1 2), .lock 1, .lock 1, .call 2 (.read 1), .call 0 (.assign 0 1), .lock 0, .lock 0]

theorem no_deadlock_inOrder :
    lockedInOrder.WaitsFor 0 1 ∧ lockedInOrder.WaitsFor 2 1 ∧ ¬ lockedInOrder.Deadlocked := by
  refine ⟨?_, ?_, ?_⟩
  · exact ⟨2, ⟨.assign 0 1, 2, false⟩, 0, ⟨.assign 1 2, 2, false⟩, .writeMtx 1, by decide, by decide,
      by decide, by decide⟩
  · exact ⟨1, ⟨.read 1, 0, false⟩, 0, ⟨.assign 1 2, 2, false⟩, .readMtx 1, by decide, by decide,
      by decide, by decide⟩
  · exact (no_deadlock_iff_orderly 3 callsInOrder).2.mpr callsInOrder_orderly _ (.after _ _)

/-- `a = std::move(b)` in one thread and `b = std::move(a)` in another: each has locked both mutexes of its
target. -/
theorem crossed_assignments_deadlock :
    ∃ m, Reach step (fun _ _ => True) (Locks.start 2) m ∧ m.inProgress = [.assign 0 1, .assign 1 0] ∧
      m.Deadlocked := by
  refine ⟨_, .after _ [.call 0 (.assign 0 1), .call 1 (.assign 1 0), .lock 0, .lock 0, .lock 1, .lock 1],
    by decide, {0, 1}, ⟨0, .inl rfl⟩, ?_⟩
  rintro _ (rfl | rfl)
  · exact ⟨1, .inr rfl, 0, ⟨.assign 0 1, 2, false⟩, 1, ⟨.assign 1 0, 2, false⟩, .writeMtx 1, by decide,
      by decide, by decide, by decide⟩
  · exact ⟨0, .inl rfl, 1, ⟨.assign 1 0, 2, false⟩, 0, ⟨.assign 0 1, 2, false⟩, .writeMtx 0, by decide,
      by decide, by decide, by decide⟩

end SocketWrapper
