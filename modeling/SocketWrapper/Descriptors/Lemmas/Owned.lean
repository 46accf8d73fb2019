import SocketWrapper.Descriptors.Lemmas.Ledger

/-!
# Who owns the sockets and the blocks

In every state that a program reaches, each open descriptor is a socket of one object, an eventfd or a
socket that a move assignment has overwritten, and each block belongs to one object.
-/

namespace SocketWrapper.Descriptors

open Ownership Transition

variable {C : Choices} {k : Kernel} {fd : Fd} {p p' : Program}

/-! ## Steps -/

inductive Move (C : Choices) (p : Program) : Action → Program → Prop
  | creates {c : Creation} {v : Verdicts} {created : List Object} {k : Kernel} :
      c.perform C v p.kernel = (.returned created, k) →
      Move C p (.create c v) { p with kernel := k, objects := p.objects ++ created.map some }
  | moves {i : Nat} {o created left : Object} :
      p.objects[i]? = some (some o) → o.moveConstruct = some (created, left) →
      Move C p (.moveConstruct i) { p with objects := p.objects.set i (some left) ++ [some created] }
  | assigns {i j : Nat} {o src assigned left : Object} :
      i ≠ j → p.objects[i]? = some (some o) → p.objects[j]? = some (some src) →
      o.moveAssign src = some (assigned, left) →
      Move C p (.moveAssign i j) { p with
        objects := (p.objects.set i (some assigned)).set j (some left)
        overwritten := o.sockets ++ p.overwritten }
  | wraps {i bufferSize : Nat} {s : Stream} :
      p.objects[i]? = some (some (.stream s)) →
      Move C p (.wrap i bufferSize) { p with
        kernel := (BufferedStream.wrap C s bufferSize p.kernel).2.2
        objects := p.objects.set i (some (.stream (BufferedStream.wrap C s bufferSize p.kernel).2.1)) ++
          [some (.buffered (BufferedStream.wrap C s bufferSize p.kernel).1)] }
  | stops {i : Nat} {o : Object} :
      p.objects[i]? = some (some o) →
      Move C p (.stop i) { p with
        kernel := (o.stop p.kernel).2, objects := p.objects.set i (some (o.stop p.kernel).1) }
  | destroys {i : Nat} {o : Object} :
      p.objects[i]? = some (some o) →
      Move C p (.destroy i) { p with kernel := o.destroy p.kernel, objects := p.objects.set i none }

theorem object?_eq_some {i : Nat} {o : Object} (h : p.object? i = some o) :
    p.objects[i]? = some (some o) := by
  simpa [Program.object?, Option.join_eq_some_iff] using h

theorem move_of_step {a : Action} (h : p.step C a = some p') : Move C p a p' := by
  simp only [Program.step] at h
  split at h
  · cases h
  · cases a with
    | create c v =>
        simp only [Program.act] at h
        split at h
        · rename_i hcreate
          cases h
          exact .creates hcreate
        · cases h
    | moveConstruct i =>
        obtain ⟨o, ho, h⟩ := Option.bind_eq_some_iff.mp h
        obtain ⟨⟨created, left⟩, hmove, h⟩ := Option.bind_eq_some_iff.mp h
        cases h
        exact .moves (object?_eq_some ho) hmove
    | moveAssign i j =>
        simp only [Program.act] at h
        split at h
        · cases h
        · rename_i hne
          obtain ⟨o, ho, h⟩ := Option.bind_eq_some_iff.mp h
          obtain ⟨src, hsrc, h⟩ := Option.bind_eq_some_iff.mp h
          obtain ⟨⟨assigned, left⟩, hassign, h⟩ := Option.bind_eq_some_iff.mp h
          cases h
          exact .assigns hne (object?_eq_some ho) (object?_eq_some hsrc) hassign
    | wrap i bufferSize =>
        simp only [Program.act] at h
        split at h
        · rename_i ho
          cases h
          exact .wraps (object?_eq_some ho)
        · cases h
    | stop i =>
        obtain ⟨o, ho, h⟩ := Option.bind_eq_some_iff.mp h
        cases h
        exact .stops (object?_eq_some ho)
    | destroy i =>
        obtain ⟨o, ho, h⟩ := Option.bind_eq_some_iff.mp h
        cases h
        exact .destroys (object?_eq_some ho)

/-! ## The invariant -/

/-- The account of the program's objects. -/
def Owned (p : Program) : Prop :=
  Ledger (heldBy Object.sockets p.objects) p.overwritten (heldBy Object.blocks p.objects) p.kernel

theorem Owned.init : Owned .init := ⟨.empty, .empty, rfl⟩

section

variable {i j : Nat} {o o' : Object} {objects : List (Option Object)} {sockets lost : List Fd} {blocks : List Int}

/-- Object `i` is taken out of the list, to go through an operation. -/
theorem Owned.front (h : Owned p) (ho : p.objects[i]? = some (some o)) :
    Ledger (o.sockets ++ heldBy Object.sockets (p.objects.set i none)) p.overwritten
      (o.blocks ++ heldBy Object.blocks (p.objects.set i none)) p.kernel :=
  h.of_perm (perm_heldBy_front ho) (perm_heldBy_front ho)

theorem Ledger.replace (ho : objects[i]? = some (some o))
    (h : Ledger (o'.sockets ++ heldBy Object.sockets (objects.set i none)) lost
      (o'.blocks ++ heldBy Object.blocks (objects.set i none)) k) :
    Ledger (heldBy Object.sockets (objects.set i (some o'))) lost
      (heldBy Object.blocks (objects.set i (some o'))) k :=
  h.of_perm (perm_heldBy_replace ho o') (perm_heldBy_replace ho o')

theorem Ledger.append (created : List Object)
    (h : Ledger (created.flatMap Object.sockets ++ heldBy Object.sockets objects) lost
      (created.flatMap Object.blocks ++ heldBy Object.blocks objects) k) :
    Ledger (heldBy Object.sockets (objects ++ created.map some)) lost
      (heldBy Object.blocks (objects ++ created.map some)) k := by
  refine h.of_perm ?_ ?_
  · simpa using List.perm_append_comm
  · simpa using List.perm_append_comm

theorem Owned.moves {created left : Object} (h : Owned p) (ho : p.objects[i]? = some (some o))
    (hmove : o.moveConstruct = some (created, left)) :
    Owned { p with objects := p.objects.set i (some left) ++ [some created] } := by
  obtain ⟨hcreated, hleft, hcreated', hleft'⟩ := of_moveConstruct hmove
  refine .append [created] ?_
  refine (h.front ho).of_perm ?_ ?_
  · simpa [hcreated] using (perm_heldBy_left ho hleft).append_left o.sockets
  · simpa [hcreated'] using (perm_heldBy_left ho hleft').append_left o.blocks

theorem Owned.assigns {src assigned left : Object} (h : Owned p) (hne : i ≠ j)
    (ho : p.objects[i]? = some (some o)) (hsrc : p.objects[j]? = some (some src))
    (hassign : o.moveAssign src = some (assigned, left)) :
    Owned { p with
      objects := (p.objects.set i (some assigned)).set j (some left)
      overwritten := o.sockets ++ p.overwritten } := by
  obtain ⟨hsockets, hsockets', hblocks, hblocks', hblocks'', hleft⟩ := of_moveAssign hassign
  have hfront := h.front ho
  rw [hblocks, List.nil_append] at hfront
  exact hfront.lose.of_perm (perm_heldBy_transfer hne ho hsrc hsockets hsockets')
    (perm_heldBy_transfer hne ho hsrc (hblocks''.trans hblocks'.symm) hleft)

theorem Owned.wraps {s : Stream} (bufferSize : Nat) (h : Owned p)
    (ho : p.objects[i]? = some (some (.stream s))) :
    Owned { p with
      kernel := (BufferedStream.wrap C s bufferSize p.kernel).2.2
      objects := p.objects.set i (some (.stream (BufferedStream.wrap C s bufferSize p.kernel).2.1)) ++
        [some (.buffered (BufferedStream.wrap C s bufferSize p.kernel).1)] } := by
  have hsockets : (Object.buffered (BufferedStream.wrap C s bufferSize p.kernel).1).sockets =
    (Object.stream s).sockets := rfl
  have hblocks : (Object.stream s).blocks = [] := rfl
  refine .append [.buffered (BufferedStream.wrap C s bufferSize p.kernel).1] ?_
  refine ((h.front ho).wrap (C := C) s bufferSize).of_perm ?_ ?_
  · simpa [hsockets] using (perm_heldBy_left ho rfl).append_left (Object.stream s).sockets
  · simpa [hblocks] using (perm_heldBy_left ho rfl).append_left _

theorem Owned.stops (h : Owned p) (ho : p.objects[i]? = some (some o)) :
    Owned { p with
      kernel := (o.stop p.kernel).2, objects := p.objects.set i (some (o.stop p.kernel).1) } :=
  .replace ho (h.front ho).stopObject

theorem Owned.destroys (h : Owned p) (ho : p.objects[i]? = some (some o)) :
    Owned { p with kernel := o.destroy p.kernel, objects := p.objects.set i none } :=
  (h.front ho).destroy

theorem Owned.move {a : Action} (h : Owned p) (hmove : Move C p a p') : Owned p' := by
  cases hmove with
  | creates hcreate => exact Ledger.append _ (Ledger.create h hcreate)
  | moves ho hmove => exact h.moves ho hmove
  | assigns hne ho hsrc hassign => exact h.assigns hne ho hsrc hassign
  | wraps ho => exact h.wraps _ ho
  | stops ho => exact h.stops ho
  | destroys ho => exact h.destroys ho

end

theorem Owned.of_reach {allowed : Program → Action → Prop}
    (h : Reach (Program.step C) allowed .init p) : Owned p :=
  h.invariant .init fun _ _ _ hp _ hstep => hp.move (move_of_step hstep)

end SocketWrapper.Descriptors
