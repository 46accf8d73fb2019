import SocketWrapper.Conditional.Stream
import SocketWrapper.Conditional.Lemmas.Dispatch
import SocketWrapper.Lib.Segmenter

/-!
# The reference dispatcher

What the documentation of `buffer_event_condition` describes: the first handler in the order of
registration whose condition is not 0 takes its bytes off the buffer, and the search starts again.
-/

namespace SocketWrapper

/-- A handler whose condition depends on the data alone and never asks for more than there is. -/
structure ContractedHandler where
  condition : List Byte → Int32
  fd : Fd
  contract : ∀ x, (condition x).toInt.natAbs ≤ x.length

namespace ContractedHandler

def toHandler (h : ContractedHandler) : BufferEventHandler := ⟨fun _ => h.condition, h.fd⟩

end ContractedHandler

namespace Reference

/-- The first handler that has something to take off the buffer `x`. On the empty buffer the contract
leaves every condition at 0. -/
def firstMatch (hs : List ContractedHandler) (x : List Byte) : Option ContractedHandler :=
  hs.find? (fun h => h.condition x ≠ 0)

/-- The dispatcher takes `|c(x)|` bytes. The tag is the handler with its result, whose sign tells
whether the segment is delivered. -/
def dispatcher (hs : List ContractedHandler) : Segmenter Unit Byte (Fd × Int32) where
  cut _ x := (firstMatch hs x).map fun h =>
    ((h.condition x).toInt.natAbs, (h.fd, h.condition x), ())
  cut_pos := by
    intro s x n b s' h
    obtain ⟨g, hg, heq⟩ := Option.map_eq_some_iff.mp h
    obtain ⟨rfl, -⟩ := Prod.mk.inj heq
    exact natAbs_toInt_pos (by simpa using List.find?_some hg)
  cut_le := by
    intro s x n b s' h
    obtain ⟨g, hg, heq⟩ := Option.map_eq_some_iff.mp h
    obtain ⟨rfl, -⟩ := Prod.mk.inj heq
    exact g.contract x

/-- The segments taken off the buffer `x`, in order, with the handler and the result for each. -/
def removals (hs : List ContractedHandler) (x : List Byte) : List Removal :=
  ((dispatcher hs).drain () x).segments.map fun c => ⟨c.1.1, c.1.2, c.2⟩

/-- What is left in the buffer. -/
def remaining (hs : List ContractedHandler) (x : List Byte) : List Byte :=
  ((dispatcher hs).drain () x).rest

/-- While it works on `x` the dispatcher comes to look at the buffer `y`. -/
def LooksAt (hs : List ContractedHandler) (x y : List Byte) : Prop :=
  (dispatcher hs).Reaches () x () y

/-- The call `r` of `processDataSendSignals` in state `s` did what the reference does. -/
structure SameOutcome (hs : List ContractedHandler) (s : ConditionalBufferedStream)
    (r : Outcome Unit × ConditionalBufferedStream) : Prop where
  returned : r.1 = .returned ()
  removals : r.2.removals = s.removals ++ removals hs s.contents
  contents : r.2.contents = remaining hs s.contents
  queue : ∀ fd, r.2.queue fd =
    s.queue fd ++ ConditionalBufferedStream.delivered fd (Reference.removals hs s.contents)

/-- It also asked conditions about the present buffer only, and no condition is left to match. -/
structure Refines (hs : List ContractedHandler) (s : ConditionalBufferedStream)
    (r : Outcome Unit × ConditionalBufferedStream) : Prop extends SameOutcome hs s r where
  current : ∀ e ∈ r.2.evaluations.drop s.evaluations.length, e.data = e.buffer
  exhausted : ∀ h ∈ hs, h.condition r.2.contents = 0

/-- At most one condition matches `x`, and it does not give the minimum `int`. -/
structure OneMatch (hs : List ContractedHandler) (x : List Byte) : Prop where
  disjoint : hs.Pairwise (fun g h => g.condition x = 0 ∨ h.condition x = 0)
  ne_min : ∀ h ∈ hs, h.condition x ≠ Int32.minValue

/-- No condition but that of the last handler matches `x`, and none gives the minimum `int`. -/
structure OnlyLastMatches (hs : List ContractedHandler) (x : List Byte) : Prop where
  others : ∀ h ∈ hs.dropLast, h.condition x = 0
  ne_min : ∀ h ∈ hs, h.condition x ≠ Int32.minValue

end Reference

end SocketWrapper
