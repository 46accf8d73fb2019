import SocketWrapper.Writers.Lemmas.Blocks

/-!
# Writing to a `Stream` from several threads
-/

namespace SocketWrapper

open Writers Transition

/-- If the kernel takes bytes from a call only while no other is partway, every call that returns has
its bytes on the wire in one piece. A step that is not so leads to a state where one has not. -/
theorem writes_atomic_undisturbed (threads : Nat) :
    (∀ m, Reach step (fun m a => m.Undisturbed a) (start threads) m → m.Atomic) ∧
    ∀ m a m', Reach step (fun _ _ => True) (start threads) m → m.step a = some m' →
      ¬ m.Undisturbed a → ∃ m'', Reach step (fun _ _ => True) m' m'' ∧ ¬ m''.Atomic := by
  constructor
  · intro m hreach
    exact (Whole.of_reach hreach).atomic
  · intro m a m' hreach hstep ha
    exact not_atomic_of_disturbed (Numbered.of_reach hreach) ha (Writers.move_of_step hstep)

/-- Two threads write through a `BufferedStream`. The kernel takes the first buffer in two pieces before
it takes the second. -/
def writtenInTurn : Writers :=
  after step (fun m a => m.Undisturbed a) (start 2)
    [.callBuffered 0 [97, 98], .attempt 0 (.accepts 1),
      .callBuffered 1 [99], .attempt 0 (.accepts 1), .attempt 1 (.accepts 1)]

theorem writes_atomic_undisturbed_inTurn :
    writtenInTurn.wire = [(0, 97), (0, 98), (1, 99)] ∧ writtenInTurn.Atomic :=
  ⟨by decide, (writes_atomic_undisturbed 2).1 _ (.after _ _)⟩

/-- The same calls, but the kernel takes the second buffer between the two pieces of the first. -/
theorem writes_interleaved :
    ∃ m, Reach step (fun _ _ => True) (start 2) m ∧
      m.completions = [⟨1, [99], .returned ()⟩, ⟨0, [97, 98], .returned ()⟩] ∧
      m.wire = [(0, 97), (1, 99), (0, 98)] ∧ ¬ m.Atomic := by
  refine ⟨_, .after _ [.callBuffered 0 [97, 98], .attempt 0 (.accepts 1), .callBuffered 1 [99],
    .attempt 1 (.accepts 1), .attempt 0 (.accepts 1)], by decide, by decide, fun hatomic => ?_⟩
  have hblock := hatomic ⟨0, [97, 98], .returned ()⟩ (by decide) rfl
  exact Interleaved.not_block_of_between (a := []) (b := []) (c := []) (d := []) (i := 0) (j := 1)
    (x := 97) (y := 99) (z := 98) (by decide) (by decide) hblock

end SocketWrapper
