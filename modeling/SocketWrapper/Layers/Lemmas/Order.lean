import SocketWrapper.Layers.Machine
import SocketWrapper.Locks.Lemmas.Waiting

/-!
# The order of the mutexes

The handlers come first, then the queues, the buffers and the mutexes of `Stream`. Among these the move
assignment begins with the target and with the mutex for writing, the move constructor with the one for
reading.
-/

namespace SocketWrapper

open LockingCall

/-- An order in which the mutexes are locked, if the streams are moved as in `moves`. -/
structure LockOrder (moves : List LockingCall) where
  rank : LayerMutex → Nat
  handlers : ∀ s, rank (.bufferEventHandlersMtx s) = 0
  received : ∀ s, rank (.receivedDataPerConditionMtx s) = 1
  buffer : ∀ s, rank (.bufferLock s) = 2
  stream : ∀ m, 2 < rank (.streamMtx m)
  constructs : ∀ {src}, .construct src ∈ moves →
    rank (.streamMtx (.readMtx src)) < rank (.streamMtx (.writeMtx src))
  assigns : ∀ {target src}, .assign target src ∈ moves →
    rank (.streamMtx (.writeMtx target)) < rank (.streamMtx (.readMtx target)) ∧
      rank (.streamMtx (.readMtx target)) < rank (.streamMtx (.writeMtx src)) ∧
      rank (.streamMtx (.writeMtx src)) < rank (.streamMtx (.readMtx src))

/-! ## Orderly moves have one -/

def LockingCall.assigns (s : Nat) : LockingCall → Bool
  | .assign target src => s == target || s == src
  | _ => false

/-- The streams follow each other as `place` has it. -/
def LayerMutex.rank (moves : List LockingCall) (place : Nat → Nat) : LayerMutex → Nat
  | .bufferEventHandlersMtx _ => 0
  | .receivedDataPerConditionMtx _ => 1
  | .bufferLock _ => 2
  | .streamMtx (.readMtx s) => 3 + 2 * place s + if moves.any (LockingCall.assigns s) then 1 else 0
  | .streamMtx (.writeMtx s) => 3 + 2 * place s + if moves.any (LockingCall.assigns s) then 0 else 1

variable {moves : List LockingCall} {place : Nat → Nat} {src target s : Nat}

theorem LockingCall.Orderly.not_assigns (h : Orderly moves) (hmem : .construct src ∈ moves) :
    moves.any (LockingCall.assigns src) = false := by
  rw [List.any_eq_false]
  intro call hcall
  cases call with
  | assign target src' =>
      obtain ⟨htarget, hsrc⟩ := h.apart hmem hcall
      simp [LockingCall.assigns, htarget, hsrc]
  | _ => simp [LockingCall.assigns]

theorem rank_lt_of_assigns (h : moves.any (LockingCall.assigns s) = true) :
    LayerMutex.rank moves place (.streamMtx (.writeMtx s)) <
      LayerMutex.rank moves place (.streamMtx (.readMtx s)) := by
  simp [LayerMutex.rank, h]

theorem rank_lt_of_place_lt {s' : Nat} (h : place s < place s') :
    LayerMutex.rank moves place (.streamMtx (.readMtx s)) <
      LayerMutex.rank moves place (.streamMtx (.writeMtx s')) := by
  simp only [LayerMutex.rank]
  split <;> split <;> omega

theorem LockingCall.Orderly.exists_lockOrder (h : Orderly moves) : Nonempty (LockOrder moves) := by
  obtain ⟨place, hplace⟩ := h.acyclic.exists_lt (finite_targets moves)
  refine ⟨{
    rank := LayerMutex.rank moves place
    handlers := fun _ => rfl
    received := fun _ => rfl
    buffer := fun _ => rfl
    stream := fun m => ?_
    constructs := fun {src} hmem => ?_
    assigns := fun {target src} hmem => ⟨?_, ?_, ?_⟩ }⟩
  · cases m <;> simp only [LayerMutex.rank] <;> omega
  · simp [LayerMutex.rank, h.not_assigns hmem]
  · exact rank_lt_of_assigns (List.any_eq_true.mpr ⟨_, hmem, by simp [LockingCall.assigns]⟩)
  · exact rank_lt_of_place_lt (hplace target src hmem)
  · exact rank_lt_of_assigns (List.any_eq_true.mpr ⟨_, hmem, by simp [LockingCall.assigns]⟩)

/-! ## Above what is held -/

/-- `m` is above what is held, or held already and recursive. -/
def Above (order : LockOrder moves) (ms : List LayerMutex) (m : LayerMutex) : Prop :=
  ∀ m' ∈ ms, order.rank m' < order.rank m ∨ (m' = m ∧ m.recursive = true)

variable {order : LockOrder moves} {ms : List LayerMutex} {m m' : LayerMutex}

theorem Above.trans (h : Above order ms m) (hlt : order.rank m < order.rank m') : Above order ms m' := by
  intro m'' hmem
  rcases h m'' hmem with hbelow | ⟨rfl, -⟩
  · exact .inl (hbelow.trans hlt)
  · exact .inl hlt

/-- What is above `m` can be locked within `m`. -/
theorem Above.within (h : Above order ms m) (hlt : order.rank m < order.rank m') : Above order (m :: ms) m' := by
  intro m'' hmem
  rcases List.mem_cons.mp hmem with rfl | hmem
  · exact .inl hlt
  · exact h.trans hlt m'' hmem

/-- A recursive mutex can be locked within itself. -/
theorem Above.again (h : Above order ms m) (hrecursive : m.recursive = true) : Above order (m :: ms) m := by
  intro m' hmem
  rcases List.mem_cons.mp hmem with rfl | hmem
  · exact .inr ⟨rfl, hrecursive⟩
  · exact h m' hmem

theorem Above.ordered (h : Above order ms m) :
    (∀ m' ∈ ms, order.rank m' < order.rank m) ∨ (m ∈ ms ∧ m.recursive = true) := by
  by_cases hmem : m ∈ ms ∧ m.recursive = true
  · exact .inr hmem
  · left
    intro m' hm'
    rcases h m' hm' with hlt | ⟨rfl, hrecursive⟩
    · exact hlt
    · exact absurd ⟨hm', hrecursive⟩ hmem

end SocketWrapper
