import SocketWrapper.Readers.Lemmas.Buffered
import SocketWrapper.Readers.Lemmas.Contiguous

/-!
# Reading from one object in several threads
-/

namespace SocketWrapper

open Transition

/-! ## `Stream` -/

/-- Every call that returns has one piece of what has been received, as long as nothing is received by
another while it is partway. The first step that is not so leads to a call that returns with two. -/
theorem stream_reads_contiguous (sent : List Byte) (threads : Nat) :
    (∀ m, Reach StreamReaders.step (fun m a => m.Undisturbed a) (.start sent threads) m →
      m.Contiguous sent) ∧
    ∀ m a m', Reach StreamReaders.step (fun _ _ => True) (.start sent threads) m → m.step a = some m' →
      ¬ m.Undisturbed a →
      ∃ last, Reach StreamReaders.step (fun _ _ => True) m' last ∧ ¬ last.Contiguous sent := by
  constructor
  · intro m hreach
    have hsound := StreamReaders.Sound.of_reach hreach
    exact (StreamReaders.Whole.of_reach hreach).contiguous hsound
  · intro m a m' hreach hstep ha
    exact (StreamReaders.Sound.of_reach hreach).disturbed ha (StreamReaders.moves_of_step hstep)

/-- Two threads read two bytes each from "abcd". The first gets both of its own, one after the other, before
the second gets any. -/
def streamReadInTurn : StreamReaders :=
  after StreamReaders.step (fun m a => m.Undisturbed a) (.start [97, 98, 99, 100] 2)
    [.call 0 2 2 (-1), .call 1 2 2 (-1), .round 0 (.readable 0), .round 0 (.readable 0),
      .round 1 (.readable 1), .finish 1, .finish 0]

theorem stream_reads_contiguous_inTurn :
    streamReadInTurn.completions = [⟨1, [99, 100], .returned 2⟩, ⟨0, [97, 98], .returned 2⟩] ∧
      streamReadInTurn.Contiguous [97, 98, 99, 100] :=
  ⟨by decide, (stream_reads_contiguous [97, 98, 99, 100] 2).1 _ (.after _ _)⟩

/-- The same calls, but the second gets both of its bytes between the two of the first. -/
theorem stream_read_in_two_pieces :
    ∃ m, Reach StreamReaders.step (fun _ _ => True) (.start [97, 98, 99, 100] 2) m ∧
      m.completions = [⟨1, [98, 99], .returned 2⟩, ⟨0, [97, 100], .returned 2⟩] ∧
      ¬ m.Contiguous [97, 98, 99, 100] := by
  refine ⟨_, .after _ [.call 0 2 2 (-1), .call 1 2 2 (-1), .round 0 (.readable 0), .round 1 (.readable 1),
    .finish 1, .round 0 (.readable 0), .finish 0], by decide, fun h => ?_⟩
  obtain ⟨-, hblock⟩ := h.piece ⟨0, [97, 100], .returned 2⟩ (by decide) 2 rfl
  exact Interleaved.not_block_of_between (a := []) (b := []) (c := [(1, 99)]) (d := []) (i := 0) (j := 1)
    (x := 97) (y := 98) (z := 100) (by decide) (by decide) hblock

/-! ## `BufferedStream` -/

/-- Every call that returns gives the bytes it was asked for, in one piece, whatever the threads do. No
call throws `std::out_of_range` as long as each pop leaves enough for the others that are past their test;
the first pop that does not leads to one that throws. -/
theorem buffered_reads_undisturbed (sent : List Byte) (bufferSize threads : Nat) :
    (∀ m, Reach BufferedReaders.step (fun _ _ => True) (.start sent bufferSize threads) m →
      m.EachItsPiece sent) ∧
    (∀ m, Reach BufferedReaders.step (fun m a => m.LeavesEnough a) (.start sent bufferSize threads) m →
      m.NeverOutOfRange) ∧
    ∀ m a m', Reach BufferedReaders.step (fun m a => m.LeavesEnough a) (.start sent bufferSize threads) m →
      m.step a = some m' → ¬ m.LeavesEnough a →
      ∃ last, Reach BufferedReaders.step (fun _ _ => True) m' last ∧ ¬ last.NeverOutOfRange := by
  refine ⟨?_, ?_, ?_⟩
  · intro m hreach
    exact (BufferedReaders.Sound.of_reach hreach).pieces
  · intro m hreach
    exact (BufferedReaders.Enough.of_reach hreach).never
  · intro m a m' hreach hstep ha
    have hsound := BufferedReaders.Sound.of_reach hreach
    exact (BufferedReaders.Enough.of_reach hreach).disturbed ha
      (BufferedReaders.moves_of_step hsound.valid hstep)

/-- Two readers find two bytes at their tests, one for each. -/
def poppedInTurn : BufferedReaders :=
  after BufferedReaders.step (fun m a => m.LeavesEnough a) (.start [97, 98] 4 2)
    [.call 0 1 (-1), .check 0, .test 0, .fill 0 [.readable 1], .test 0,
      .call 1 1 (-1), .check 1, .test 1, .pop 0, .pop 1]

theorem buffered_reads_undisturbed_inTurn :
    poppedInTurn.completions = [⟨0, 1, .returned [97]⟩, ⟨1, 1, .returned [98]⟩] ∧
      poppedInTurn.NeverOutOfRange :=
  ⟨by decide, (buffered_reads_undisturbed [97, 98] 4 2).2.1 _ (.after _ _)⟩

/-- The same calls, but only one byte is there for the two. -/
theorem buffered_read_out_of_range :
    ∃ m, Reach BufferedReaders.step (fun _ _ => True) (.start [97] 4 2) m ∧
      m.completions = [⟨0, 1, .returned [97]⟩,
        ⟨1, 1, .threw (.outOfRange
          "the buffer does not contain enough data yet, should read 1 can read 0")⟩] ∧
      ¬ m.NeverOutOfRange := by
  refine ⟨_, .after _ [.call 0 1 (-1), .check 0, .test 0, .fill 0 [.readable 1], .test 0,
    .call 1 1 (-1), .check 1, .test 1, .pop 0, .pop 1], by decide, fun h => ?_⟩
  exact h ⟨1, 1, .threw (.outOfRange "the buffer does not contain enough data yet, should read 1 can read 0")⟩
    (by decide) _ rfl

end SocketWrapper
