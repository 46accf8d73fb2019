import SocketWrapper.Sections.Lemmas.Coarse

/-!
# The sections are atomic
-/

namespace SocketWrapper

open Transition FineMachine

variable {S : Setup} {m : Machine} {f : FineMachine} {size consumers : Nat} {bytes : List Byte}
  {answers : List Answer}

theorem Agrees.eq_of_over (h : Agrees f m) (hover : f.inside.Over) : f.machine = m := by
  rcases f with ⟨machine, inside⟩
  cases inside with
  | free => exact h
  | leaving thread => exact h
  | _ => exact hover.elim

/-- The machine whose threads lock the mutex, make an access at a time and unlock, with steps of the others in
between, and the one whose sections are steps: what the one reaches with no section under way is what the other
reaches. -/
theorem sections_atomic :
    Reach (Machine.step S) (fun _ _ => True) (.connected S size bytes answers consumers) m ↔
      ∃ inside : QueueSection, (inside = .free ∨ m.halted = true ∧ inside.Over) ∧
        Reach (FineMachine.step S) (fun _ _ => True) (.start (.connected S size bytes answers consumers))
          ⟨m, inside⟩ := by
  constructor
  · intro h
    obtain ⟨⟨machine, inside⟩, hfine, hrests⟩ := exists_rests h
    obtain rfl : machine = m := hrests.machine
    exact ⟨inside, hrests.ended, hfine⟩
  · rintro ⟨inside, hended, hfine⟩
    obtain ⟨m', hreach, hagrees⟩ := exists_agrees hfine
    have hover : inside.Over := by
      rcases hended with rfl | ⟨-, hover⟩
      · trivial
      · exact hover
    obtain rfl : m = m' := hagrees.eq_of_over hover
    exact hreach

end SocketWrapper
