import SocketWrapper.Base.Stream
import SocketWrapper.Lib.Ownership

/-!
# The kernel's and the heap's side of the objects

Descriptors and allocated blocks are numbers that are handed out while they are not in use and may be
handed out again later. A system call that fails does so with an `errno` value.
-/

namespace SocketWrapper.Descriptors

open Ownership

structure Kernel where
  /-- The descriptors that the library has opened. -/
  fds : Table Fd
  /-- The counters of the eventfds. -/
  counter : Fd → Nat
  /-- The blocks allocated by `calloc`; the null pointer is 0. -/
  heap : Table Int
  /-- History: the eventfds created, and the descriptors given to `::poll` and to `::accept`. -/
  eventFds : List Fd
  polled : List Fd
  accepted : List Fd
  /-- `std::terminate` has been called. -/
  terminated : Bool

/-- Before the library has opened anything. -/
def Kernel.init : Kernel := ⟨.empty, fun _ => 0, .empty, [], [], [], false⟩

/-- How the kernel and the heap choose. -/
structure Choices where
  descriptor : Kernel → Fd
  descriptor_nonneg : ∀ k, 0 ≤ descriptor k
  descriptor_fresh : ∀ k, descriptor k ∉ k.fds.opened
  /-- The address for a block of a size, or 0. -/
  block : Kernel → Nat → Int
  block_nonneg : ∀ k size, 0 ≤ block k size
  block_fresh : ∀ k size, block k size ∉ k.heap.opened

/-- The lowest number from 0 on that is not in the list. -/
def lowest (used : List Int) : Int :=
  (((List.range (used.length + 1)).map Int.ofNat).find? (· ∉ used)).getD 0

theorem lowest_spec (used : List Int) : 0 ≤ lowest used ∧ lowest used ∉ used := by
  have hnodup : ((List.range (used.length + 1)).map Int.ofNat).Nodup :=
    List.nodup_range.map fun _ _ h => Int.ofNat.inj h
  cases hfind : ((List.range (used.length + 1)).map Int.ofNat).find? (· ∉ used) with
  | some n =>
      obtain ⟨m, -, rfl⟩ := List.mem_map.mp (List.mem_of_find?_eq_some hfind)
      have hfresh : Int.ofNat m ∉ used := by simpa using List.find?_some hfind
      rw [lowest, hfind]
      exact ⟨Int.natCast_nonneg m, hfresh⟩
  | none =>
      -- more numbers than the list is long
      have hall : (List.range (used.length + 1)).map Int.ofNat ⊆ used := fun n hn => by
        simpa using List.find?_eq_none.mp hfind n hn
      have hlength := (List.subperm_of_subset hnodup hall).length_le
      rw [List.length_map, List.length_range] at hlength
      omega

/-- Descriptors and addresses from the lowest that is free. -/
def Choices.lowestFree : Choices where
  descriptor := fun k => lowest k.fds.opened
  descriptor_nonneg := fun k => (lowest_spec k.fds.opened).1
  descriptor_fresh := fun k => (lowest_spec k.fds.opened).2
  block := fun k _ => lowest (0 :: k.heap.opened)
  block_nonneg := fun k _ => (lowest_spec (0 :: k.heap.opened)).1
  block_fresh := fun k _ h => (lowest_spec (0 :: k.heap.opened)).2 (List.mem_cons_of_mem _ h)

/-- The system calls that the creating operations make, by the place they are made from. -/
inductive Syscall
  | socketpair
  | socket
  | connect
  | setReuseAddr
  | setReusePort
  | bind
  | listen
  | poll
  | accept
  /-- The `n`-th `eventfd` of the operation. -/
  | eventfd (n : Nat)
  deriving DecidableEq, Repr

/-- The `errno` of each call that fails. -/
abbrev Verdicts := Syscall → Option Nat

/-- No call fails. -/
def Verdicts.succeed : Verdicts := fun _ => none

namespace Kernel

variable (C : Choices) (k : Kernel)

/-- Hand out a descriptor. -/
def openFd : Fd × Kernel :=
  (C.descriptor k, { k with fds := k.fds.acquire (C.descriptor k) })

/-- `eventfd(0, EFD_SEMAPHORE)`. -/
def eventfd (verdict : Option Nat) : Fd × Kernel :=
  match verdict with
  | some _ => (-1, k)
  | none =>
      let r := k.openFd C
      (r.1, { r.2 with
        counter := Function.update r.2.counter r.1 0
        eventFds := r.1 :: r.2.eventFds })

/-- `::write` of a value to an eventfd. Nobody looks at its result. -/
def write (fd : Fd) (value : Nat) : Kernel :=
  if fd ∈ k.fds.opened then
    { k with counter := Function.update k.counter fd (k.counter fd + value) }
  else k

/-- `::close`: whether it succeeded. It fails on a descriptor that is not open only. -/
def close (fd : Fd) : Bool × Kernel :=
  (decide (fd ∈ k.fds.opened), { k with fds := k.fds.release fd })

/-- `std::terminate`. -/
def terminate : Kernel := { k with terminated := true }

/-- `calloc(size, 1)`. -/
def calloc (size : Nat) : Int × Kernel :=
  (C.block k size,
    if C.block k size = 0 then k else { k with heap := k.heap.acquire (C.block k size) })

/-- `free`. -/
def free (ptr : Int) : Kernel := if ptr = 0 then k else { k with heap := k.heap.release ptr }

end Kernel

end SocketWrapper.Descriptors
