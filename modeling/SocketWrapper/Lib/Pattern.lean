import Mathlib

/-!
# Replacing the matches of a pattern

Regular expressions whose matches are one character wide, with their meaning in ECMAScript.
-/

/-- A character, `.`, or two patterns with `|` between them. -/
inductive Pattern
  | char (c : Char)
  | any
  | alt (p q : Pattern)

namespace Pattern

variable {p : Pattern} {s replacement : String}

/-- `.` stands for every character but the ends of a line. -/
def accepts : Pattern → Char → Bool
  | char d, c => c == d
  | any, c => c != '\n' && c != '\r'
  | alt p q, c => p.accepts c || q.accepts c

/-- Each match is replaced, and all else is kept. -/
def replaceAll (p : Pattern) (s replacement : String) : String :=
  .ofList (s.toList.flatMap fun c => if p.accepts c then replacement.toList else [c])

theorem length_replaceAll (h : replacement.length = 1) :
    (p.replaceAll s replacement).length = s.length := by
  have hone (c : Char) :
      (if p.accepts c then replacement.toList else [c]).length = 1 := by
    split
    · exact h
    · rfl
  simp [replaceAll, List.length_flatMap, hone, List.map_const', String.length_toList]

end Pattern
