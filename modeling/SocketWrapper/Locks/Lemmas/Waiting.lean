import SocketWrapper.Locks.Machine

/-!
# Who waits for whom

A call that holds a mutex and waits for another one is a move. As long as the moves in progress are
orderly, it waits for an assignment that holds both mutexes of its own target, and these cannot go round in
a circle.
-/

namespace SocketWrapper

open Transition LockingCall

/-! ## Orderly calls -/

namespace LockingCall

theorem Orderly.mono {calls calls' : List LockingCall} (h : Orderly calls)
    (hsub : ∀ call ∈ calls', call ∈ calls) : Orderly calls' where
  acyclic stream hcycle := by
    have hle : AssignedFrom calls' ≤ AssignedFrom calls := fun _ _ hmem => hsub _ hmem
    exact h.acyclic stream (Relation.TransGen.mono hle _ _ hcycle)
  apart hconstruct hassign := h.apart (hsub _ hconstruct) (hsub _ hassign)

theorem orderly_nil : Orderly [] where
  acyclic stream hcycle := by
    obtain ⟨_, hfirst, -⟩ := Relation.TransGen.head'_iff.mp hcycle
    cases hfirst
  apart hconstruct := by cases hconstruct

theorem finite_targets (calls : List LockingCall) :
    {target | ∃ src, AssignedFrom calls target src}.Finite := by
  induction calls with
  | nil => simp [AssignedFrom]
  | cons call calls ih =>
      have hsub : {target | ∃ src, AssignedFrom (call :: calls) target src} ⊆
          {target | ∃ src, .assign target src = call} ∪ {target | ∃ src, AssignedFrom calls target src} := by
        rintro target ⟨src, hsrc⟩
        exact (List.mem_cons.mp hsrc).imp (fun h => ⟨src, h⟩) fun h => ⟨src, h⟩
      have hone : {target | ∃ src, LockingCall.assign target src = call}.Finite := by
        refine Set.Subsingleton.finite ?_
        rintro target ⟨src, rfl⟩ target' ⟨src', heq⟩
        exact (LockingCall.assign.inj heq).1.symm
      exact (hone.union ih).subset hsub

end LockingCall

namespace Locks

variable {m m' : Locks} {thread t t' n n' : Nat} {l l' : Locking} {mutex : Mutex}
  {allowed : Locks → Action → Prop}

/-! ## The steps -/

inductive Moves (m : Locks) : Action → Locks → Prop
  | calls {thread : Nat} {call : LockingCall} :
      Moves m (.call thread call) ⟨m.calls.enter thread (.start call)⟩
  | locks {thread number : Nat} {l : Locking} {mutex : Mutex} :
      m.calls.At thread number l → l.next? = some mutex → m.Free mutex →
      Moves m (.lock thread) ⟨m.calls.goOn thread number { l with held := l.held + 1 }⟩
  | unlocks {thread number : Nat} {l : Locking} :
      m.calls.At thread number l → Moves m (.unlock thread) ⟨m.calls.goOn thread number l.release⟩
  | finishes {thread : Nat} : Moves m (.finish thread) ⟨m.calls.leave thread⟩

theorem moves_of_step {a : Action} (h : m.step a = some m') : Moves m a m' := by
  cases a with
  | call thread call =>
      simp only [step] at h
      split at h
      · cases h
        exact .calls
      · cases h
  | lock thread =>
      simp only [step] at h
      split at h
      · rename_i hat
        split at h
        · rename_i hnext
          split at h
          · rename_i hfree
            cases h
            exact .locks (Calls.call?_eq_some.mp hat) hnext hfree
          · cases h
        · cases h
      · cases h
  | unlock thread =>
      simp only [step] at h
      split at h
      · rename_i hat
        split at h
        · cases h
          exact .unlocks (Calls.call?_eq_some.mp hat)
        · cases h
      · cases h
  | finish thread =>
      simp only [step] at h
      split at h
      · split at h
        · cases h
          exact .finishes
        · cases h
      · cases h

/-! ## Mutual exclusion -/

theorem holding_of_next (h : l.next? = some mutex) :
    ({ l with held := l.held + 1 } : Locking).holding = l.holding ++ [mutex] := by
  simp only [Locking.next?] at h
  split at h
  · cases h
  · rw [Locking.holding, List.take_add_one, h]
    rfl

theorem mem_of_mem_release (h : mutex ∈ l.release.holding) : mutex ∈ l.holding := by
  have hsub : l.release.holding <+: l.holding := List.take_prefix_take_left (Nat.sub_le ..)
  exact hsub.subset h

/-- No mutex is held by two calls. -/
structure Exclusive (m : Locks) : Prop where
  same : ∀ {t t' n n' l l' mutex}, m.calls.At t n l → m.calls.At t' n' l' → mutex ∈ l.holding →
    mutex ∈ l'.holding → t = t'

theorem Exclusive.locks (h : m.Exclusive) (hat : m.calls.At thread n l) (hnext : l.next? = some mutex)
    (hfree : m.Free mutex) :
    Exclusive ⟨m.calls.goOn thread n { l with held := l.held + 1 }⟩ := by
  -- nobody else holds what the call holds now
  have hother {t' n' : Nat} {l' : Locking} {x : Mutex} (hat' : m.calls.At t' n' l')
      (hx : x ∈ ({ l with held := l.held + 1 } : Locking).holding) (hx' : x ∈ l'.holding) : thread = t' := by
    rw [holding_of_next hnext] at hx
    rcases List.mem_append.mp hx with hold | hnew
    · exact h.same hat hat' hold hx'
    · rw [List.mem_singleton.mp hnew] at hx'
      exact absurd hx' (hfree l' (Calls.mem_all.mpr ⟨_, _, hat'⟩))
  refine ⟨fun h₁ h₂ hx₁ hx₂ => ?_⟩
  rcases Calls.of_goOn h₁ with ⟨rfl, -, rfl⟩ | ⟨-, hold₁⟩
  · rcases Calls.of_goOn h₂ with ⟨rfl, -, -⟩ | ⟨-, hold₂⟩
    · rfl
    · exact hother hold₂ hx₁ hx₂
  · rcases Calls.of_goOn h₂ with ⟨rfl, -, rfl⟩ | ⟨-, hold₂⟩
    · exact (hother hold₁ hx₂ hx₁).symm
    · exact h.same hold₁ hold₂ hx₁ hx₂

theorem Exclusive.move {a : Action} (h : m.Exclusive) (hmoves : Moves m a m') : m'.Exclusive := by
  cases hmoves with
  | calls =>
      refine ⟨fun h₁ h₂ hx₁ hx₂ => ?_⟩
      rcases Calls.of_enter h₁ with ⟨-, -, rfl⟩ | ⟨-, hold₁⟩
      · cases hx₁
      · rcases Calls.of_enter h₂ with ⟨-, -, rfl⟩ | ⟨-, hold₂⟩
        · cases hx₂
        · exact h.same hold₁ hold₂ hx₁ hx₂
  | locks hat hnext hfree => exact h.locks hat hnext hfree
  | unlocks hat =>
      refine ⟨fun h₁ h₂ hx₁ hx₂ => ?_⟩
      rcases Calls.of_goOn h₁ with ⟨rfl, -, rfl⟩ | ⟨-, hold₁⟩
      · rcases Calls.of_goOn h₂ with ⟨rfl, -, -⟩ | ⟨-, hold₂⟩
        · rfl
        · exact h.same hat hold₂ (mem_of_mem_release hx₁) hx₂
      · rcases Calls.of_goOn h₂ with ⟨rfl, -, rfl⟩ | ⟨-, hold₂⟩
        · exact h.same hold₁ hat hx₁ (mem_of_mem_release hx₂)
        · exact h.same hold₁ hold₂ hx₁ hx₂
  | finishes =>
      exact ⟨fun h₁ h₂ => h.same (Calls.of_leave h₁).2 (Calls.of_leave h₂).2⟩

theorem Exclusive.of_reach {threads : Nat} (h : Reach step allowed (start threads) m) : m.Exclusive := by
  have hstart : (start threads).Exclusive := ⟨fun hat => absurd hat Calls.not_at_start⟩
  exact h.invariant hstart fun _ _ _ hm _ hstep => hm.move (moves_of_step hstep)

/-! ## Waiting for one mutex and holding another -/

/-- What a call holds where it may have to wait, and what it waits for. -/
inductive Blocked : LockingCall → List Mutex → Mutex → Prop
  | construct {src : Nat} : Blocked (.construct src) [.readMtx src] (.writeMtx src)
  | target {target src : Nat} : Blocked (.assign target src) [.writeMtx target] (.readMtx target)
  | source {target src : Nat} :
      Blocked (.assign target src) [.writeMtx target, .readMtx target] (.writeMtx src)
  | last {target src : Nat} :
      Blocked (.assign target src) [.writeMtx target, .readMtx target, .writeMtx src] (.readMtx src)

theorem blocked_of_next (hnext : l.next? = some mutex) (hne : l.holding ≠ []) :
    Blocked l.call l.holding mutex := by
  obtain ⟨call, held, releasing⟩ := l
  simp only [Locking.next?] at hnext
  split at hnext
  · cases hnext
  · cases call with
    | read stream =>
        rcases held with - | held
        · exact absurd rfl hne
        · cases hnext
    | write stream =>
        rcases held with - | held
        · exact absurd rfl hne
        · cases hnext
    | construct src =>
        rcases held with - | - | held
        · exact absurd rfl hne
        · cases hnext
          exact .construct
        · cases hnext
    | assign target src =>
        rcases held with - | - | - | - | held
        · exact absurd rfl hne
        · cases hnext
          exact .target
        · cases hnext
          exact .source
        · cases hnext
          exact .last
        · cases hnext

/-- A thread that holds a mutex waits for one that the other thread holds. -/
def WaitsHolding (m : Locks) (thread other : Nat) : Prop :=
  ∃ n l n' l' mutex, m.calls.At thread n l ∧ Blocked l.call l.holding mutex ∧ m.calls.At other n' l' ∧
    mutex ∈ l'.holding

/-- In a deadlock those that the others wait for hold something, and wait as well. -/
theorem Deadlocked.holding (h : m.Deadlocked) : ∃ threads, WaitFor.Stuck m.WaitsHolding threads := by
  obtain ⟨threads, ⟨t, ht⟩, hwaits⟩ := h
  refine ⟨{v | v ∈ threads ∧ ∃ n l, m.calls.At v n l ∧ l.holding ≠ []}, ?_, ?_⟩
  · obtain ⟨u, hu, _, _, n, l, x, -, -, hat, hmem⟩ := hwaits t ht
    exact ⟨u, hu, n, l, hat, List.ne_nil_of_mem hmem⟩
  · rintro v ⟨hv, n, l, hat, hne⟩
    obtain ⟨w, hw, n', l', n₂, l₂, x, hat', hnext, hat₂, hmem⟩ := hwaits v hv
    obtain rfl := hat.inj hat'
    refine ⟨w, ⟨hw, n₂, l₂, hat₂, List.ne_nil_of_mem hmem⟩, ?_⟩
    exact ⟨n, l, n₂, l₂, x, hat, blocked_of_next hnext hne, hat₂, hmem⟩

/-- A thread is in an assignment and holds both mutexes of the target and no other. -/
def OwnsTarget (m : Locks) (thread target src : Nat) : Prop :=
  ∃ n l, m.calls.At thread n l ∧ l.call = .assign target src ∧
    l.holding = [.writeMtx target, .readMtx target]

theorem mem_inProgress (hat : m.calls.At t n l) : l.call ∈ m.inProgress :=
  List.mem_map_of_mem (Calls.mem_all.mpr ⟨t, n, hat⟩)

theorem assignedFrom {target src : Nat} (hat : m.calls.At t n l) (hcall : l.call = .assign target src) :
    AssignedFrom m.inProgress target src := by
  rw [AssignedFrom, ← hcall]
  exact mem_inProgress hat

/-- Where a read mutex is waited for, the write mutex of the stream is held, by an assignment. -/
theorem Blocked.readMtx {call : LockingCall} {holding : List Mutex} {stream : Nat}
    (h : Blocked call holding (.readMtx stream)) :
    .writeMtx stream ∈ holding ∧ (.readMtx stream ∈ holding → call = .assign stream stream) ∧
      ∃ target src, call = .assign target src ∧ (stream = target ∨ stream = src) := by
  cases h with
  | target => exact ⟨by simp, by simp, _, _, rfl, .inl rfl⟩
  | last => exact ⟨by simp, by simp +contextual, _, _, rfl, .inr rfl⟩

/-- Where a read mutex is held, so is the write mutex of the stream, except in a construction. -/
theorem Blocked.of_readMtx_mem {call : LockingCall} {holding : List Mutex} {stream : Nat}
    (h : Blocked call holding mutex) (hmem : .readMtx stream ∈ holding) :
    call = .construct stream ∨ .writeMtx stream ∈ holding := by
  cases h with
  | construct => simp_all
  | target => simp at hmem
  | source => simp_all
  | last => simp_all

/-- Nobody waits for a read mutex that is held by one who waits. -/
theorem not_blocked_readMtx {stream : Nat} (hexclusive : m.Exclusive) (horderly : Orderly m.inProgress)
    (hat : m.calls.At t n l) (hblocked : Blocked l.call l.holding (.readMtx stream))
    (hat' : m.calls.At t' n' l') (hblocked' : Blocked l'.call l'.holding mutex) :
    .readMtx stream ∉ l'.holding := by
  intro hmem
  obtain ⟨hwrite, hself, target, src, hassign, hstream⟩ := hblocked.readMtx
  rcases hblocked'.of_readMtx_mem hmem with hconstruct | hwrite'
  · obtain ⟨htarget, hsrc⟩ := horderly.apart (hconstruct ▸ mem_inProgress hat') (assignedFrom hat hassign)
    exact hstream.elim htarget hsrc
  · obtain rfl := hexclusive.same hat hat' hwrite hwrite'
    obtain rfl := hat.inj hat'
    exact horderly.acyclic stream (.single (assignedFrom hat (hself hmem)))

/-- Nobody waits for the write mutex that a construction locks. -/
theorem not_blocked_construct {src : Nat} (horderly : Orderly m.inProgress) (hat : m.calls.At t n l)
    (hcall : l.call = .construct src) (hat' : m.calls.At t' n' l')
    (hblocked' : Blocked l'.call l'.holding mutex) : .writeMtx src ∉ l'.holding := by
  intro hmem
  have hapart {target src' : Nat} (hassign : l'.call = .assign target src') :
      src ≠ target ∧ src ≠ src' :=
    horderly.apart (hcall ▸ mem_inProgress hat) (assignedFrom hat' hassign)
  generalize hcall' : l'.call = call at hblocked'
  generalize l'.holding = holding at hblocked' hmem
  cases hblocked' with
  | construct => simp at hmem
  | target => exact (hapart hcall').1 (by simpa using hmem)
  | source => exact (hapart hcall').1 (by simpa using hmem)
  | last => exact (by simpa using hmem : src = _ ∨ src = _).elim (hapart hcall').1 (hapart hcall').2

/-- With orderly moves, one who waits for one who waits owns the target of an assignment, and the other
holds the write mutex of the source. -/
theorem WaitsHolding.ownsTarget {u v : Nat} (hexclusive : m.Exclusive) (horderly : Orderly m.inProgress)
    (htu : m.WaitsHolding t u) (huv : m.WaitsHolding u v) :
    ∃ target src, m.OwnsTarget t target src ∧
      ∃ n l, m.calls.At u n l ∧ .writeMtx src ∈ l.holding := by
  obtain ⟨n, l, n', l', x, hat, hblocked, hat', hmem⟩ := htu
  obtain ⟨n₁, l₁, -, -, y, hat₁, hblocked', -, -⟩ := huv
  obtain rfl := hat'.inj hat₁
  have hread {stream : Nat} (hx : x = .readMtx stream) : False := by
    subst hx
    exact not_blocked_readMtx hexclusive horderly hat hblocked hat' hblocked' hmem
  have hwrite {src : Nat} (hcall : l.call = .construct src) (hx : x = .writeMtx src) : False := by
    subst hx
    exact not_blocked_construct horderly hat hcall hat' hblocked' hmem
  generalize hcall : l.call = call at hblocked hwrite
  generalize hholding : l.holding = holding at hblocked
  cases hblocked with
  | construct => exact (hwrite rfl rfl).elim
  | target => exact (hread rfl).elim
  | source => exact ⟨_, _, ⟨n, l, hat, hcall, hholding⟩, n', l', hat', hmem⟩
  | last => exact (hread rfl).elim

theorem OwnsTarget.next {u src target' src' : Nat} (h : m.OwnsTarget u target' src')
    (hat : m.calls.At u n l) (hmem : .writeMtx src ∈ l.holding) : target' = src := by
  obtain ⟨_, l', hat', -, hholding⟩ := h
  obtain rfl := hat.inj hat'
  rw [hholding] at hmem
  simpa [eq_comm] using hmem

theorem OwnsTarget.inj {target src target' src' : Nat} (h : m.OwnsTarget t target src)
    (h' : m.OwnsTarget t target' src') : target = target' ∧ src = src' := by
  obtain ⟨n, l, hat, hcall, -⟩ := h
  obtain ⟨n', l', hat', hcall', -⟩ := h'
  obtain rfl := hat.inj hat'
  exact LockingCall.assign.inj (hcall.symm.trans hcall')

/-- The assignments of a deadlock go round in a circle. -/
theorem Deadlocked.not_orderly (h : m.Deadlocked) (hexclusive : m.Exclusive) :
    ¬ Orderly m.inProgress := by
  intro horderly
  obtain ⟨threads, ⟨t, ht⟩, hwaits⟩ := h.holding
  have howns {t : Nat} (ht : t ∈ threads) : ∃ target src, m.OwnsTarget t target src ∧
      ∃ u ∈ threads, ∃ next, m.OwnsTarget u src next := by
    obtain ⟨u, hu, htu⟩ := hwaits t ht
    obtain ⟨v, hv, huv⟩ := hwaits u hu
    obtain ⟨w, -, hvw⟩ := hwaits v hv
    obtain ⟨target, src, howns, n, l, hat, hmem⟩ := htu.ownsTarget hexclusive horderly huv
    obtain ⟨target', next, hnext, -⟩ := huv.ownsTarget hexclusive horderly hvw
    obtain rfl := hnext.next hat hmem
    exact ⟨target, target', howns, u, hu, next, hnext⟩
  have hstuck : WaitFor.Stuck (AssignedFrom m.inProgress)
      {target | ∃ t ∈ threads, ∃ src, m.OwnsTarget t target src} := by
    constructor
    · obtain ⟨target, src, hown, -⟩ := howns ht
      exact ⟨target, t, ht, src, hown⟩
    · rintro target ⟨t, ht, src, hown⟩
      obtain ⟨target', src', hown', u, hu, next, hnext⟩ := howns ht
      obtain ⟨rfl, rfl⟩ := hown.inj hown'
      obtain ⟨n, l, hat, hcall, -⟩ := hown
      exact ⟨src, ⟨u, hu, next, hnext⟩, assignedFrom hat hcall⟩
  refine hstuck.not_acyclic ?_ horderly.acyclic
  refine (finite_targets m.inProgress).subset ?_
  rintro target ⟨t, -, src, n, l, hat, hcall, -⟩
  exact ⟨src, assignedFrom hat hcall⟩

/-! ## Calls that begin in order -/

theorem mem_inProgress_iff {call : LockingCall} :
    call ∈ m.inProgress ↔ ∃ t n l, m.calls.At t n l ∧ l.call = call := by
  simp only [inProgress, List.mem_map, Calls.mem_all]
  constructor
  · rintro ⟨l, ⟨t, n, hat⟩, rfl⟩
    exact ⟨t, n, l, hat, rfl⟩
  · rintro ⟨t, n, l, hat, rfl⟩
    exact ⟨l, ⟨t, n, hat⟩, rfl⟩

theorem Moves.mem_inProgress {a : Action} {call : LockingCall} (h : Moves m a m')
    (hcall : call ∈ m'.inProgress) : call ∈ m.inProgress ∨ ∃ thread, a = .call thread call := by
  obtain ⟨t, n, l, hat, rfl⟩ := mem_inProgress_iff.mp hcall
  cases h with
  | calls =>
      rcases Calls.of_enter hat with ⟨-, -, rfl⟩ | ⟨-, hold⟩
      · exact .inr ⟨_, rfl⟩
      · exact .inl (Locks.mem_inProgress hold)
  | locks hat' =>
      rcases Calls.of_goOn hat with ⟨-, -, rfl⟩ | ⟨-, hold⟩
      · exact .inl (mem_inProgress_iff.mpr ⟨_, _, _, hat', rfl⟩)
      · exact .inl (Locks.mem_inProgress hold)
  | unlocks hat' =>
      rcases Calls.of_goOn hat with ⟨-, -, rfl⟩ | ⟨-, hold⟩
      · exact .inl (mem_inProgress_iff.mpr ⟨_, _, _, hat', rfl⟩)
      · exact .inl (Locks.mem_inProgress hold)
  | finishes => exact .inl (Locks.mem_inProgress (Calls.of_leave hat).2)

theorem inProgress_start (threads : Nat) : (start threads).inProgress = [] := by
  simp [inProgress, start, Calls.all, Calls.start]

theorem orderly_of_reach {threads : Nat} (h : Reach step (fun m a => m.KeepsOrder a) (start threads) m) :
    Orderly m.inProgress := by
  have hstart : Orderly (start threads).inProgress := inProgress_start threads ▸ orderly_nil
  refine h.invariant (P := fun m => Orderly m.inProgress) hstart fun m a m' hm ha hstep => ?_
  have hmem {call : LockingCall} (hcall : call ∈ m'.inProgress) :
      call ∈ m.inProgress ∨ ∃ thread, a = .call thread call :=
    (moves_of_step hstep).mem_inProgress hcall
  cases a with
  | call thread begun =>
      refine ha.mono fun call hcall => ?_
      rcases hmem hcall with hold | ⟨_, heq⟩
      · exact List.mem_cons_of_mem _ hold
      · cases heq
        exact List.mem_cons_self ..
  | lock | unlock | finish =>
      exact hm.mono fun call hcall => (hmem hcall).resolve_right fun ⟨_, heq⟩ => by cases heq

/-- Threads that make the calls of a list have no others in progress. -/
theorem mem_of_inProgress {calls : List LockingCall} {threads : Nat}
    (h : Reach step (fun _ a => a.Of calls) (start threads) m) : ∀ call ∈ m.inProgress, call ∈ calls := by
  refine h.invariant (P := fun m => ∀ call ∈ m.inProgress, call ∈ calls) (fun call hcall => ?_)
    fun m a m' hm ha hstep call hcall => ?_
  · rw [inProgress_start] at hcall
    cases hcall
  · rcases (moves_of_step hstep).mem_inProgress hcall with hold | ⟨thread, rfl⟩
    · exact hm call hold
    · exact List.mem_of_getElem? ha

end Locks

end SocketWrapper
