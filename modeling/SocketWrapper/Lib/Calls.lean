import Mathlib

/-!
# Threads that are in calls

Each thread is in one call at most, and each call has a number of its own, from its beginning on. `κ` is
what is known of a call while it has not come back.
-/

structure Calls (κ : Type*) where
  /-- What each thread is in. -/
  threads : List (Option (Nat × κ))
  /-- History: how many calls have begun. -/
  begun : Nat

namespace Calls

variable {κ : Type*}

/-- No thread has called anything. -/
def start (threads : Nat) : Calls κ := ⟨List.replicate threads none, 0⟩

abbrev At (c : Calls κ) (thread number : Nat) (call : κ) : Prop :=
  c.threads[thread]? = some (some (number, call))

abbrev Idle (c : Calls κ) (thread : Nat) : Prop := c.threads[thread]? = some none

/-- The call that a thread is in, with its number. -/
def call? (c : Calls κ) (thread : Nat) : Option (Nat × κ) := (c.threads[thread]?).join

def enter (c : Calls κ) (thread : Nat) (call : κ) : Calls κ :=
  ⟨c.threads.set thread (some (c.begun, call)), c.begun + 1⟩

def goOn (c : Calls κ) (thread number : Nat) (call : κ) : Calls κ :=
  { c with threads := c.threads.set thread (some (number, call)) }

def leave (c : Calls κ) (thread : Nat) : Calls κ := { c with threads := c.threads.set thread none }

/-- The calls that the other threads are in. -/
def others (c : Calls κ) (thread : Nat) : List κ :=
  (c.threads.eraseIdx thread).filterMap (Option.map Prod.snd)

/-- The calls that the threads are in. -/
def all (c : Calls κ) : List κ := c.threads.filterMap (Option.map Prod.snd)

variable {c : Calls κ} {t t' n n' : Nat} {k k' : κ}

theorem call?_eq_some : c.call? t = some (n, k) ↔ c.At t n k := Option.join_eq_some_iff

theorem mem_others : k ∈ c.others t ↔ ∃ t' n, t' ≠ t ∧ c.At t' n k := by
  simp only [others, List.mem_filterMap, List.mem_eraseIdx_iff_getElem?, Option.map_eq_some_iff]
  constructor
  · rintro ⟨_, ⟨t', hne, hat⟩, ⟨n, _⟩, rfl, rfl⟩
    exact ⟨t', n, hne, hat⟩
  · rintro ⟨t', n, hne, hat⟩
    exact ⟨_, ⟨t', hne, hat⟩, _, rfl, rfl⟩

theorem mem_all : k ∈ c.all ↔ ∃ t n, c.At t n k := by
  rw [all, List.mem_filterMap]
  constructor
  · rintro ⟨x, hx, hk⟩
    obtain ⟨t, hat⟩ := List.mem_iff_getElem?.mp hx
    obtain ⟨⟨n, _⟩, rfl, rfl⟩ := Option.map_eq_some_iff.mp hk
    exact ⟨t, n, hat⟩
  · rintro ⟨t, n, hat⟩
    exact ⟨_, List.mem_of_getElem? hat, rfl⟩

theorem At.inj (h : c.At t n k) (h' : c.At t n' k') : k = k' := by
  have heq := h.symm.trans h'
  cases heq
  rfl

/-! ## What a step of one thread changes -/

theorem not_at_start {threads : Nat} : ¬ (start threads : Calls κ).At t n k := by
  intro h
  have hmem := List.mem_of_getElem? h
  rw [start, List.mem_replicate] at hmem
  cases hmem.2

/-- What a thread is in after a step is what it was in before, unless the step was its own. -/
theorem of_set {α : Type*} {l : List (Option α)} {x : Option α} {a : α}
    (h : (l.set t x)[t']? = some (some a)) : (t' = t ∧ x = some a) ∨ (t' ≠ t ∧ l[t']? = some (some a)) := by
  by_cases ht : t' = t
  · subst ht
    have hlt : t' < (l.set t' x).length := (List.getElem?_eq_some_iff.mp h).1
    rw [List.length_set] at hlt
    rw [List.getElem?_set_self hlt] at h
    exact .inl ⟨rfl, Option.some.inj h⟩
  · rw [List.getElem?_set_ne (Ne.symm ht)] at h
    exact .inr ⟨ht, h⟩

theorem of_enter (h : (c.enter t k).At t' n' k') :
    (t' = t ∧ n' = c.begun ∧ k' = k) ∨ (t' ≠ t ∧ c.At t' n' k') :=
  (of_set h).imp_left fun ⟨ht, heq⟩ => by cases heq; exact ⟨ht, rfl, rfl⟩

theorem of_goOn (h : (c.goOn t n k).At t' n' k') :
    (t' = t ∧ n' = n ∧ k' = k) ∨ (t' ≠ t ∧ c.At t' n' k') :=
  (of_set h).imp_left fun ⟨ht, heq⟩ => by cases heq; exact ⟨ht, rfl, rfl⟩

theorem of_leave (h : (c.leave t).At t' n' k') : t' ≠ t ∧ c.At t' n' k' :=
  (of_set h).resolve_left fun heq => by cases heq.2

theorem At.goOn_other (h : c.At t' n' k') (hne : t' ≠ t) : (c.goOn t n k).At t' n' k' := by
  rw [At, goOn, List.getElem?_set_ne (Ne.symm hne)]
  exact h

theorem At.leave_other (h : c.At t' n' k') (hne : t' ≠ t) : (c.leave t).At t' n' k' := by
  rw [At, leave, List.getElem?_set_ne (Ne.symm hne)]
  exact h

theorem At.goOn_same (h : c.At t n k) (n' : Nat) (k' : κ) : (c.goOn t n' k').At t n' k' :=
  List.getElem?_set_self (List.getElem?_eq_some_iff.mp h).1

@[simp] theorem goOn_goOn : (c.goOn t n k).goOn t n' k' = c.goOn t n' k' := by
  simp [goOn, List.set_set]

theorem idle_of (hlt : t < c.threads.length) (hnone : ∀ n k, ¬ c.At t n k) : c.Idle t := by
  cases hx : c.threads[t] with
  | none => exact List.getElem?_eq_some_iff.mpr ⟨hlt, hx⟩
  | some call => exact absurd (List.getElem?_eq_some_iff.mpr ⟨hlt, hx⟩) (hnone call.1 call.2)

theorem Idle.enter_at (h : c.Idle t) (k : κ) : (c.enter t k).At t c.begun k :=
  List.getElem?_set_self (List.getElem?_eq_some_iff.mp h).1

theorem At.enter_other (h : c.At t' n' k') (hne : t' ≠ t) : (c.enter t k).At t' n' k' := by
  rw [At, enter, List.getElem?_set_ne (Ne.symm hne)]
  exact h

theorem At.goOn_self (h : c.At t n k) : c.goOn t n k = c := by
  obtain ⟨hlt, heq⟩ := List.getElem?_eq_some_iff.mp h
  rw [goOn, ← heq, List.set_getElem_self]

/-! ## Numbers -/

/-- No number belongs to two calls; `gone` are those of the calls that have come back. -/
structure Distinct (c : Calls κ) (gone : List Nat) : Prop where
  begun : ∀ {t n k}, c.At t n k → n < c.begun
  distinct : ∀ {t t' n n' k k'}, c.At t n k → c.At t' n' k' → t ≠ t' → n ≠ n'
  gone_lt : ∀ n ∈ gone, n < c.begun
  not_gone : ∀ {t n k}, c.At t n k → n ∉ gone
  gone_nodup : gone.Nodup

variable {gone : List Nat}

theorem distinct_start (threads : Nat) : Distinct (start threads : Calls κ) [] where
  begun h := absurd h not_at_start
  distinct h := absurd h not_at_start
  gone_lt n h := by cases h
  not_gone h := absurd h not_at_start
  gone_nodup := List.nodup_nil

theorem Distinct.enter (h : Distinct c gone) (t : Nat) (k : κ) : Distinct (c.enter t k) gone where
  begun h' := by
    rcases of_enter h' with ⟨-, rfl, -⟩ | ⟨-, hold⟩
    · exact Nat.lt_succ_self _
    · exact Nat.lt_succ_of_lt (h.begun hold)
  distinct h₁ h₂ hne := by
    rcases of_enter h₁ with ⟨rfl, rfl, -⟩ | ⟨-, hold₁⟩
    · have hold₂ := ((of_enter h₂).resolve_left fun heq => hne heq.1.symm).2
      exact Nat.ne_of_gt (h.begun hold₂)
    · rcases of_enter h₂ with ⟨-, rfl, -⟩ | ⟨-, hold₂⟩
      · exact Nat.ne_of_lt (h.begun hold₁)
      · exact h.distinct hold₁ hold₂ hne
  gone_lt n hn := Nat.lt_succ_of_lt (h.gone_lt n hn)
  not_gone h' := by
    rcases of_enter h' with ⟨-, rfl, -⟩ | ⟨-, hold⟩
    · exact fun hmem => Nat.lt_irrefl _ (h.gone_lt _ hmem)
    · exact h.not_gone hold
  gone_nodup := h.gone_nodup

theorem Distinct.goOn (h : Distinct c gone) (hat : c.At t n k) (k' : κ) :
    Distinct (c.goOn t n k') gone where
  begun h' := by
    rcases of_goOn h' with ⟨-, rfl, -⟩ | ⟨-, hold⟩
    · exact h.begun hat
    · exact h.begun hold
  distinct h₁ h₂ hne := by
    rcases of_goOn h₁ with ⟨rfl, rfl, -⟩ | ⟨-, hold₁⟩
    · exact h.distinct hat ((of_goOn h₂).resolve_left fun heq => hne heq.1.symm).2 hne
    · rcases of_goOn h₂ with ⟨rfl, rfl, -⟩ | ⟨-, hold₂⟩
      · exact h.distinct hold₁ hat hne
      · exact h.distinct hold₁ hold₂ hne
  gone_lt := h.gone_lt
  not_gone h' := by
    rcases of_goOn h' with ⟨-, rfl, -⟩ | ⟨-, hold⟩
    · exact h.not_gone hat
    · exact h.not_gone hold
  gone_nodup := h.gone_nodup

/-- The call of a thread comes back. What is kept of a call has its number. -/
theorem Distinct.leave {δ : Type*} {number : δ → Nat} {done : List δ} {d : δ}
    (h : Distinct c (done.map number)) (hat : c.At t n k) (hd : number d = n) :
    Distinct (c.leave t) ((done ++ [d]).map number) := by
  rw [List.map_append, List.map_singleton, hd]
  refine ⟨fun h' => h.begun (of_leave h').2,
    fun h₁ h₂ => h.distinct (of_leave h₁).2 (of_leave h₂).2, ?_, ?_, ?_⟩
  · intro m hm
    rcases List.mem_append.mp hm with hold | hnew
    · exact h.gone_lt m hold
    · rw [List.mem_singleton.mp hnew]
      exact h.begun hat
  · intro t' n' k' h' hmem
    obtain ⟨hne, hold⟩ := of_leave h'
    rcases List.mem_append.mp hmem with hbefore | hnew
    · exact h.not_gone hold hbefore
    · exact h.distinct hold hat hne (List.mem_singleton.mp hnew)
  · exact List.nodup_append.mpr ⟨h.gone_nodup, List.nodup_singleton n, fun m hm k hk heq =>
      h.not_gone hat (List.mem_singleton.mp hk ▸ heq ▸ hm)⟩

end Calls
