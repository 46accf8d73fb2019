import SocketWrapper.Lib.Transition
import SocketWrapper.Lib.WaitFor

/-!
# Threads with mutexes that are held for the time of a block

Of what the threads run, only the blocks, the calls and the control flow around them are kept. If what a
thread locks is always above what it holds, or held already and recursive, then no set of threads is stuck.
-/

namespace Guards

/-- `π` are the procedures and `μ` the mutexes. -/
inductive Code (μ π : Type*)
  | skip
  /-- It takes as long as others like. -/
  | wait
  | seq (a c : Code μ π)
  | choose (a c : Code μ π)
  | loop (a : Code μ π)
  | guard (m : μ) (a : Code μ π)
  | call (p : π)
  deriving DecidableEq

/-- What a thread has left to do; `unlock` is the end of a block. -/
inductive Item (μ π : Type*)
  | code (c : Code μ π)
  | unlock (m : μ)
  deriving DecidableEq

variable {μ π : Type*}

/-- The mutex that is locked first of all. -/
def Code.wants? : Code μ π → Option μ
  | .guard m _ => some m
  | _ => none

/-- What is left after a step; `b` is the way taken at a branch. -/
def Code.resume (body : π → Code μ π) (b : Bool) : Code μ π → List (Item μ π)
  | .skip => []
  | .wait => []
  | .seq a c => [.code a, .code c]
  | .choose a c => [.code (if b then a else c)]
  | .loop a => if b then [.code a, .code (.loop a)] else []
  | .guard m a => [.code a, .unlock m]
  | .call p => [.code (body p)]

def Item.mutex? : Item μ π → Option μ
  | .unlock m => some m
  | .code _ => none

/-- What a thread holds, the innermost first; a recursive mutex as often as it was locked. -/
def held (k : List (Item μ π)) : List μ := k.filterMap Item.mutex?

@[simp] theorem held_nil : held ([] : List (Item μ π)) = [] := rfl

@[simp] theorem held_code {c : Code μ π} {k : List (Item μ π)} : held (.code c :: k) = held k := rfl

@[simp] theorem held_unlock {m : μ} {k : List (Item μ π)} : held (.unlock m :: k) = m :: held k := rfl

/-- The only mutex that a step adds to those held is the one that the thread wanted. -/
theorem held_resume {body : π → Code μ π} (b : Bool) (c : Code μ π) (k : List (Item μ π)) :
    held (c.resume body b ++ k) = c.wants?.toList ++ held k := by
  cases c with
  | loop a => cases b <;> rfl
  | _ => rfl

structure Threads (μ π : Type*) where
  frames : List (List (Item μ π))

namespace Threads

/-- No thread is in a procedure. -/
def start (n : Nat) : Threads μ π := ⟨List.replicate n []⟩

def stack (g : Threads μ π) (i : Nat) : List (Item μ π) := g.frames[i]?.getD []

def set (g : Threads μ π) (i : Nat) (k : List (Item μ π)) : Threads μ π := ⟨g.frames.set i k⟩

variable {g : Threads μ π} {i j : Nat} {k k' : List (Item μ π)} {c : Code μ π} {m : μ}

theorem stack_of_getElem? (h : g.frames[i]? = some k) : g.stack i = k := by rw [stack, h, Option.getD_some]

theorem stack_set (h : g.frames[i]? = some k) : (g.set i k').stack i = k' := by
  have hlt : i < g.frames.length := (List.getElem?_eq_some_iff.mp h).1
  rw [stack, set, List.getElem?_set_self hlt, Option.getD_some]

theorem stack_set_of_ne (h : j ≠ i) : (g.set i k).stack j = g.stack j := by
  rw [stack, set, List.getElem?_set_ne (Ne.symm h), stack]

@[simp] theorem stack_start {n : Nat} : (start n : Threads μ π).stack i = [] := by
  simp only [stack, start, List.getElem?_replicate]
  split <;> rfl

theorem lt_of_stack_ne_nil (h : g.stack i ≠ []) : i < g.frames.length := by
  by_contra hge
  refine h ?_
  rw [stack, List.getElem?_eq_none (Nat.le_of_not_lt hge), Option.getD_none]

theorem stack_ne_nil (h : m ∈ held (g.stack i)) : g.stack i ≠ [] := by
  intro hnil
  rw [hnil] at h
  cases h

/-- Nobody else holds `m`, and `i` does not hold it either, or it is recursive. -/
def Available (recursive : μ → Bool) (g : Threads μ π) (i : Nat) (m : μ) : Prop :=
  (∀ j < g.frames.length, j ≠ i → m ∉ held (g.stack j)) ∧ (m ∈ held (g.stack i) → recursive m = true)

instance [DecidableEq μ] (recursive : μ → Bool) (g : Threads μ π) (i : Nat) (m : μ) :
    Decidable (g.Available recursive i m) :=
  inferInstanceAs (Decidable (_ ∧ _))

inductive Action (π : Type*)
  | start (thread : Nat) (p : π)
  | advance (thread : Nat) (b : Bool)
  /-- An exception leaves the statement; what was locked around it is unlocked on the way. -/
  | throw (thread : Nat)

variable {body : π → Code μ π} {recursive : μ → Bool} {g' : Threads μ π}

inductive Moves (body : π → Code μ π) (recursive : μ → Bool) (g : Threads μ π) :
    Action π → Threads μ π → Prop
  | starts {i : Nat} {p : π} : g.frames[i]? = some [] →
      Moves body recursive g (.start i p) (g.set i [.code (.call p)])
  | advances {i : Nat} {b : Bool} {c : Code μ π} {k : List (Item μ π)} : g.frames[i]? = some (.code c :: k) →
      (∀ m ∈ c.wants?, g.Available recursive i m) →
      Moves body recursive g (.advance i b) (g.set i (c.resume body b ++ k))
  | unlocks {i : Nat} {b : Bool} {m : μ} {k : List (Item μ π)} : g.frames[i]? = some (.unlock m :: k) →
      Moves body recursive g (.advance i b) (g.set i k)
  | throws {i : Nat} {c : Code μ π} {k : List (Item μ π)} : g.frames[i]? = some (.code c :: k) →
      Moves body recursive g (.throw i) (g.set i k)

/-! ## Only one thread holds a mutex -/

def Exclusive (g : Threads μ π) : Prop :=
  ∀ i j m, m ∈ held (g.stack i) → m ∈ held (g.stack j) → i = j

/-- A step of a thread after which it holds nothing more, or what nobody else holds. -/
theorem Exclusive.set (h : g.Exclusive) (hi : g.frames[i]? = some k)
    (hheld : ∀ m ∈ held k', m ∈ held k ∨ ∀ j, j ≠ i → m ∉ held (g.stack j)) : (g.set i k').Exclusive := by
  have hown : ∀ j m, j ≠ i → m ∈ held k' → m ∉ held (g.stack j) := by
    intro j m hj hm hmj
    rcases hheld m hm with hold | hnone
    · rw [← stack_of_getElem? hi] at hold
      exact hj (h j i m hmj hold)
    · exact hnone j hj hmj
  intro a b m ha hb
  by_cases hai : a = i
  · by_cases hbi : b = i
    · rw [hai, hbi]
    · rw [hai, stack_set hi] at ha
      rw [stack_set_of_ne hbi] at hb
      exact absurd hb (hown b m hbi ha)
  · rw [stack_set_of_ne hai] at ha
    by_cases hbi : b = i
    · rw [hbi, stack_set hi] at hb
      exact absurd ha (hown a m hai hb)
    · rw [stack_set_of_ne hbi] at hb
      exact h a b m ha hb

theorem Available.notMem (h : g.Available recursive i m) (hj : j ≠ i) : m ∉ held (g.stack j) := by
  intro hmem
  exact h.1 j (lt_of_stack_ne_nil (stack_ne_nil hmem)) hj hmem

theorem Exclusive.moves {a : Action π} (h : g.Exclusive) (hmove : Moves body recursive g a g') :
    g'.Exclusive := by
  cases hmove with
  | starts hi => exact h.set hi (by simp)
  | @advances i b c k hi hfree =>
      refine h.set hi fun m hm => ?_
      rw [held_resume, List.mem_append] at hm
      rcases hm with hwanted | hold
      · exact .inr fun j hj => (hfree m (by simpa using hwanted)).notMem hj
      · exact .inl hold
  | unlocks hi => exact h.set hi fun m hm => .inl (by simp [hm])
  | throws hi => exact h.set hi fun m hm => .inl hm

theorem exclusive_start (n : Nat) : (start n : Threads μ π).Exclusive := by
  intro i j m hi
  simp at hi

end Threads

/-! ## Rules for what may be locked and called where -/

/-- What a thread may lock, wait for and call, given what it holds. -/
structure Rules (μ π : Type*) where
  locks : Nat → List μ → μ → Prop
  waits : Nat → List μ → Prop
  calls : Nat → List μ → π → Prop

namespace Rules

variable {R : Rules μ π} {i : Nat} {m : μ}

/-- The code keeps the rules where `ms` are held. -/
def Fits (R : Rules μ π) (i : Nat) (ms : List μ) : Code μ π → Prop
  | .skip => True
  | .wait => R.waits i ms
  | .seq a c => Fits R i ms a ∧ Fits R i ms c
  | .choose a c => Fits R i ms a ∧ Fits R i ms c
  | .loop a => Fits R i ms a
  | .guard m a => R.locks i ms m ∧ Fits R i (m :: ms) a
  | .call p => R.calls i ms p

def FitsAll (R : Rules μ π) (i : Nat) : List (Item μ π) → Prop
  | [] => True
  | .code c :: k => R.Fits i (held k) c ∧ FitsAll R i k
  | .unlock m :: k => R.locks i (held k) m ∧ FitsAll R i k

/-- Each procedure keeps the rules where it may be called. -/
def Respected (R : Rules μ π) (body : π → Code μ π) : Prop :=
  ∀ i ms p, R.calls i ms p → R.Fits i ms (body p)

theorem FitsAll.resume {body : π → Code μ π} (hbody : R.Respected body) (b : Bool) {c : Code μ π}
    {k : List (Item μ π)} (h : R.FitsAll i (.code c :: k)) : R.FitsAll i (c.resume body b ++ k) := by
  obtain ⟨hc, hk⟩ := h
  cases c with
  | skip => exact hk
  | wait => exact hk
  | seq a c => exact ⟨hc.1, hc.2, hk⟩
  | choose a c =>
      cases b with
      | true => exact ⟨hc.1, hk⟩
      | false => exact ⟨hc.2, hk⟩
  | loop a =>
      cases b with
      | true => exact ⟨hc, hc, hk⟩
      | false => exact hk
  | guard m a => exact ⟨hc.2, hc.1, hk⟩
  | call p => exact ⟨hbody i _ p hc, hk⟩

/-- The mutexes held have been locked one after the other, as the rules have it. -/
theorem FitsAll.held {k : List (Item μ π)} (h : R.FitsAll i k) :
    ∀ ms m ms', held k = ms ++ m :: ms' → R.locks i ms' m := by
  induction k with
  | nil => simp
  | cons item k ih =>
      cases item with
      | code c => exact ih h.2
      | unlock m =>
          intro ms m' ms' heq
          cases ms with
          | nil =>
              obtain ⟨rfl, rfl⟩ := List.cons.inj heq
              exact h.1
          | cons m'' ms => exact ih h.2 ms m' ms' (List.cons.inj heq).2

end Rules

namespace Threads

variable {R : Rules μ π} {body : π → Code μ π} {recursive : μ → Bool}
  {g g' : Threads μ π} {i j : Nat} {n : Nat} {m : μ}

/-- A thread starts with what the rules let it call while it holds nothing. -/
def Started (R : Rules μ π) (_ : Threads μ π) : Action π → Prop
  | .start i p => R.calls i [] p
  | _ => True

def Fit (R : Rules μ π) (g : Threads μ π) : Prop := ∀ i, R.FitsAll i (g.stack i)

theorem Fit.set {k k' : List (Item μ π)} (h : g.Fit R) (hi : g.frames[i]? = some k) (hk : R.FitsAll i k') :
    (g.set i k').Fit R := by
  intro j
  by_cases hj : j = i
  · rw [hj, stack_set hi]
    exact hk
  · rw [stack_set_of_ne hj]
    exact h j

theorem Fit.moves {a : Action π} (h : g.Fit R) (hbody : R.Respected body) (ha : Started R g a)
    (hmove : Moves body recursive g a g') : g'.Fit R := by
  have hstack : ∀ {i k}, g.frames[i]? = some k → R.FitsAll i k := fun hi => stack_of_getElem? hi ▸ h _
  cases hmove with
  | starts hi => exact h.set hi ⟨ha, trivial⟩
  | @advances i b c k hi _ => exact h.set hi ((hstack hi).resume hbody b)
  | unlocks hi => exact h.set hi (hstack hi).2
  | throws hi => exact h.set hi (hstack hi).2

/-! ## Waiting -/

/-- The thread is at a block that begins with locking `m`. -/
def Wants (g : Threads μ π) (i : Nat) (m : μ) : Prop := ∃ a k, g.stack i = .code (.guard m a) :: k

/-- `i` cannot lock what it wants because of `j`. -/
def WaitsFor (recursive : μ → Bool) (g : Threads μ π) (i j : Nat) : Prop :=
  ∃ m, g.Wants i m ∧ m ∈ held (g.stack j) ∧ (i = j → recursive m = false)

def Blocked (recursive : μ → Bool) (g : Threads μ π) (i : Nat) : Prop := ∃ j, g.WaitsFor recursive i j

/-- What a thread may lock is above all that it holds, or is recursive and held already. -/
def Ordered (R : Rules μ π) (recursive : μ → Bool) (rank : μ → Nat) : Prop :=
  ∀ i ms m, R.locks i ms m → (∀ m' ∈ ms, rank m' < rank m) ∨ (m ∈ ms ∧ recursive m = true)

theorem Fit.wants (h : g.Fit R) (hwants : g.Wants i m) : R.locks i (held (g.stack i)) m := by
  obtain ⟨a, k, hi⟩ := hwants
  have hfits := h i
  rw [hi] at hfits
  rw [hi, held_code]
  exact hfits.1.1

theorem WaitsFor.rank_lt {rank : μ → Nat} (hfit : g.Fit R) (hexclusive : g.Exclusive)
    (hordered : Ordered R recursive rank) (h : g.WaitsFor recursive i j) (hj : g.Wants j m)
    (hblocked : g.Blocked recursive j) : ∀ m', g.Wants i m' → rank m' < rank m := by
  obtain ⟨m', hwants, hmem, -⟩ := h
  intro m'' hm''
  obtain rfl : m' = m'' := by
    obtain ⟨a, k, hi⟩ := hwants
    obtain ⟨a', k', hi'⟩ := hm''
    rw [hi] at hi'
    cases hi'
    rfl
  rcases hordered j _ m (hfit.wants hj) with habove | ⟨hheld, hrecursive⟩
  · exact habove m' hmem
  · -- what `j` holds and may lock again does not block it
    obtain ⟨l, m₂, ⟨a, k, hjm⟩, hl, hself⟩ := hblocked
    obtain ⟨a', k', hjm'⟩ := hj
    rw [hjm] at hjm'
    cases hjm'
    have hjl : j = l := hexclusive j l m hheld hl
    rw [hself hjl] at hrecursive
    cases hrecursive

/-- `i` waits for a thread that is blocked itself. -/
def Waits (recursive : μ → Bool) (g : Threads μ π) (i j : Nat) : Prop :=
  g.WaitsFor recursive i j ∧ g.Blocked recursive j

theorem Blocked.wants (h : g.Blocked recursive i) : ∃ m, g.Wants i m := by
  obtain ⟨j, m, hwants, -⟩ := h
  exact ⟨m, hwants⟩

section Ordered

variable {rank : μ → Nat} (hfit : g.Fit R) (hexclusive : g.Exclusive) (hordered : Ordered R recursive rank)
include hfit hexclusive hordered

/-- Along a chain of blocked threads, what they want is ever higher. -/
theorem rank_lt_of_waits (h : Relation.TransGen (g.Waits recursive) i j) :
    ∀ m m', g.Wants i m → g.Wants j m' → rank m < rank m' := by
  induction h with
  | single h =>
      intro m m' hm hm'
      exact h.1.rank_lt hfit hexclusive hordered hm' h.2 m hm
  | @tail b c hprev h ih =>
      intro m m' hm hm'
      obtain ⟨n, hn, -⟩ := h.1
      exact (ih m n hm hn).trans (h.1.rank_lt hfit hexclusive hordered hm' h.2 n hn)

/-- No set of threads is stuck. -/
theorem not_stuck (S : Set Nat) : ¬ WaitFor.Stuck (g.WaitsFor recursive) S := by
  rintro ⟨hne, hwaits⟩
  have hblocked : ∀ i ∈ S, g.Blocked recursive i := by
    intro i hi
    obtain ⟨j, -, hj⟩ := hwaits i hi
    exact ⟨j, hj⟩
  have hfinite : S.Finite := by
    refine (Set.finite_lt_nat g.frames.length).subset fun i hi => ?_
    obtain ⟨m, a, k, hik⟩ := (hblocked i hi).wants
    exact lt_of_stack_ne_nil (by simp [hik])
  have hstuck : WaitFor.Stuck (g.Waits recursive) S := by
    refine ⟨hne, fun i hi => ?_⟩
    obtain ⟨j, hj, hij⟩ := hwaits i hi
    exact ⟨j, hj, hij, hblocked j hj⟩
  refine hstuck.not_acyclic hfinite fun i hcycle => ?_
  obtain ⟨k, -, -, hi⟩ := Relation.TransGen.tail'_iff.mp hcycle
  obtain ⟨m, hm⟩ := hi.wants
  exact Nat.lt_irrefl _ (rank_lt_of_waits hfit hexclusive hordered hcycle m m hm hm)

/-- A blocked thread waits, through others, for one that is not. -/
theorem exists_not_blocked (h : g.Blocked recursive i) :
    ∃ j, Relation.TransGen (g.WaitsFor recursive) i j ∧ ¬ g.Blocked recursive j := by
  by_contra hnone
  refine not_stuck hfit hexclusive hordered {j | Relation.TransGen (g.WaitsFor recursive) i j} ⟨?_, fun j hj => ?_⟩
  · obtain ⟨j, hj⟩ := h
    exact ⟨j, .single hj⟩
  · have hblocked : g.Blocked recursive j := by
      by_contra hfree
      exact hnone ⟨j, hj, hfree⟩
    obtain ⟨l, hl⟩ := hblocked
    exact ⟨l, hj.tail hl, hl⟩

end Ordered

theorem available_of_not_blocked (h : ¬ g.Blocked recursive i) (hwants : g.Wants i m) :
    g.Available recursive i m := by
  constructor
  · intro j _ hj hmem
    exact h ⟨j, m, hwants, hmem, fun heq => absurd heq.symm hj⟩
  · intro hmem
    by_contra hnot
    exact h ⟨i, m, hwants, hmem, fun _ => by simpa using hnot⟩

/-! ## The steps -/

variable [DecidableEq μ]

def step (body : π → Code μ π) (recursive : μ → Bool) (g : Threads μ π) : Action π → Option (Threads μ π)
  | .start i p =>
      match g.frames[i]? with
      | some [] => some (g.set i [.code (.call p)])
      | _ => none
  | .advance i b =>
      match g.frames[i]? with
      | some (.code c :: k) =>
          if ∀ m ∈ c.wants?, g.Available recursive i m then some (g.set i (c.resume body b ++ k)) else none
      | some (.unlock _ :: k) => some (g.set i k)
      | _ => none
  | .throw i =>
      match g.frames[i]? with
      | some (.code _ :: k) => some (g.set i k)
      | _ => none

theorem moves_of_step {a : Action π} (h : g.step body recursive a = some g') :
    Moves body recursive g a g' := by
  cases a with
  | start i p =>
      simp only [step] at h
      split at h
      · rename_i hi
        cases h
        exact .starts hi
      · cases h
  | advance i b =>
      simp only [step] at h
      split at h
      · rename_i hi
        split at h
        · rename_i hfree
          cases h
          exact .advances hi hfree
        · cases h
      · rename_i hi
        cases h
        exact .unlocks hi
      · cases h
  | throw i =>
      simp only [step] at h
      split at h
      · rename_i hi
        cases h
        exact .throws hi
      · cases h

theorem fit_and_exclusive_of_reach (hbody : R.Respected body)
    (h : Transition.Reach (step body recursive) (Started R) (start n) g) : g.Fit R ∧ g.Exclusive :=
  h.invariant (P := fun g => g.Fit R ∧ g.Exclusive)
    ⟨fun i => by rw [stack_start]; trivial, exclusive_start n⟩
    fun _ _ _ ⟨hfit, hexclusive⟩ ha hstep =>
      ⟨hfit.moves hbody ha (moves_of_step hstep), hexclusive.moves (moves_of_step hstep)⟩

/-- A thread in a procedure that is not blocked can go on. -/
theorem exists_advance (hne : g.stack j ≠ []) (hfree : ¬ g.Blocked recursive j) (b : Bool) :
    ∃ g', g.step body recursive (.advance j b) = some g' := by
  have hlt : j < g.frames.length := lt_of_stack_ne_nil hne
  have hj : g.frames[j]? = some (g.stack j) := by
    rw [stack, List.getElem?_eq_getElem hlt, Option.getD_some]
  cases hk : g.stack j with
  | nil => exact absurd hk hne
  | cons item k =>
      rw [hk] at hj
      cases item with
      | unlock m =>
          refine ⟨g.set j k, ?_⟩
          simp only [step, hj]
      | code c =>
          have havailable : ∀ m ∈ c.wants?, g.Available recursive j m := by
            intro m hm
            cases c with
            | guard m' a =>
                obtain rfl : m' = m := Option.some.inj hm
                exact available_of_not_blocked hfree ⟨a, k, hk⟩
            | _ => cases hm
          refine ⟨g.set j (c.resume body b ++ k), ?_⟩
          simp only [step, hj, if_pos havailable]

end Threads

end Guards
