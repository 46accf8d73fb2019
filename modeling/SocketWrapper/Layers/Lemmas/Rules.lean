import SocketWrapper.Layers.Lemmas.Order

/-!
# Where the mutexes are locked

Every function locks in the order. While a queue is locked there is at most the buffer to be locked, and no
waiting.
-/

namespace SocketWrapper

open Guards

variable {moves : List LockingCall} {order : LockOrder moves} {ms : List LayerMutex} {m m' : LayerMutex}
  {s : Nat} {own : Nat → Nat → Prop} {i : Nat} {conditions : Nat → Code LayerMutex Procedure}

/-! ## The rules -/

namespace Procedure

/-- The lowest mutex that is locked in the procedure, whatever it calls. -/
def entry : Procedure → LayerMutex
  | .streamRead s | .construct s | .readUntilDelimiter s => .streamMtx (.readMtx s)
  | .streamWrite s | .moveAssign s _ | .bufferedWrite s | .write s => .streamMtx (.writeMtx s)
  | .bufferedRead s | .bufferedReadInto s | .popFromBuffer s | .readAvailableDataIntoBuffer s => .bufferLock s
  | .conditionalBufferWorker s | .processDataSendSignals s => .bufferEventHandlersMtx s
  | .condition s | .read s | .readBlocking s => .receivedDataPerConditionMtx s

/-- The stream whose buffer the procedure locks. -/
def buffer? : Procedure → Option Nat
  | .bufferedRead s | .bufferedReadInto s | .popFromBuffer s | .readAvailableDataIntoBuffer s
  | .conditionalBufferWorker s | .processDataSendSignals s | .condition s => some s
  | _ => none

def IsPop : Procedure → Bool
  | .popFromBuffer _ => true
  | _ => false

end Procedure

/-- No queue is locked. -/
def NoQueue (ms : List LayerMutex) : Prop := ∀ s, .receivedDataPerConditionMtx s ∉ ms

/-- `own i s`: thread `i` uses the buffer of stream `s`. -/
def rules (order : LockOrder moves) (own : Nat → Nat → Prop) : Rules LayerMutex Procedure where
  locks i ms m := Above order ms m ∧ (∀ s, m = .bufferLock s → own i s) ∧
    (NoQueue ms ∨ ∃ s, m = .bufferLock s)
  waits _ ms := NoQueue ms
  calls i ms p := Above order ms p.entry ∧ (∀ s, p.buffer? = some s → own i s) ∧
    (∀ call ∈ p.move?, call ∈ moves) ∧ (NoQueue ms ∨ p.IsPop = true)

theorem rules_ordered (order : LockOrder moves) (own : Nat → Nat → Prop) :
    Threads.Ordered (rules order own) LayerMutex.recursive order.rank :=
  fun _ _ _ h => h.1.ordered

theorem noQueue_nil : NoQueue [] := fun _ => List.not_mem_nil

theorem NoQueue.cons (h : NoQueue ms) (hm : ∀ s, m ≠ .receivedDataPerConditionMtx s) : NoQueue (m :: ms) := by
  intro s hmem
  rcases List.mem_cons.mp hmem with heq | hmem
  · exact hm s heq.symm
  · exact h s hmem

theorem NoQueue.handlers (h : NoQueue ms) : NoQueue (.bufferEventHandlersMtx s :: ms) := h.cons (by simp)

theorem NoQueue.buffer (h : NoQueue ms) : NoQueue (.bufferLock s :: ms) := h.cons (by simp)

theorem NoQueue.streamMtx {m : Mutex} (h : NoQueue ms) : NoQueue (.streamMtx m :: ms) := h.cons (by simp)

/-- What locks no buffer locks within no queue. -/
theorem rules_locks (h : Above order ms m) (hm : ∀ s, m ≠ .bufferLock s) (hqueue : NoQueue ms) :
    (rules order own).locks i ms m :=
  ⟨h, fun s heq => absurd heq (hm s), .inl hqueue⟩

theorem rules_locks_buffer (h : Above order ms (.bufferLock s)) (hown : own i s) :
    (rules order own).locks i ms (.bufferLock s) :=
  ⟨h, fun s' heq => by cases heq; exact hown, .inr ⟨s, rfl⟩⟩

theorem mem_of_move?_eq_none {p : Procedure} (h : p.move? = none) : ∀ call ∈ p.move?, call ∈ moves := by
  rw [h]
  exact nofun

theorem rules_calls {p : Procedure} (h : Above order ms p.entry) (hp : p.buffer? = none)
    (hmove : p.move? = none) (hqueue : NoQueue ms) : (rules order own).calls i ms p :=
  ⟨h, fun s heq => absurd (hp.symm.trans heq) (by simp), mem_of_move?_eq_none hmove, .inl hqueue⟩

theorem move?_of_buffer? {p : Procedure} (hp : p.buffer? = some s) : p.move? = none := by
  cases p <;> first | rfl | cases hp

theorem rules_calls_buffer {p : Procedure} (h : Above order ms p.entry) (hp : p.buffer? = some s)
    (hown : own i s) (hqueue : NoQueue ms) : (rules order own).calls i ms p :=
  ⟨h, fun _ heq => Option.some.inj (hp.symm.trans heq) ▸ hown,
    mem_of_move?_eq_none (move?_of_buffer? hp), .inl hqueue⟩

/-! ## The functions -/

theorem rank_entry_pos {p : Procedure} (h : p.IsPublic = true) : 0 < order.rank p.entry := by
  have hstream : ∀ m, 0 < order.rank (.streamMtx m) := fun m => (Nat.zero_lt_succ 1).trans (order.stream m)
  cases p <;> simp [Procedure.IsPublic, Procedure.entry, order.received, order.buffer, hstream] at h ⊢

theorem isPublicAmong_iff {p : Procedure} :
    p.IsPublicAmong moves = true ↔ p.IsPublic = true ∧ ∀ call ∈ p.move?, call ∈ moves := by
  simp [Procedure.IsPublicAmong, Option.all_eq_true]

/-- A condition is called with nothing but handlers locked, and calls what is above them. -/
theorem fits_of_callsOnly {allowed : Procedure → Bool} {c : Code LayerMutex Procedure}
    (hallowed : ∀ p, allowed p = true →
      p.IsPublicAmong moves = true ∧ ∀ i s, p.buffer? = some s → own i s)
    (hhandlers : ∀ m ∈ ms, order.rank m = 0) (hqueue : NoQueue ms) (hc : CallsOnly allowed c) :
    (rules order own).Fits i ms c := by
  induction c with
  | skip => trivial
  | wait => exact hqueue
  | seq a c iha ihc => exact ⟨iha hc.1, ihc hc.2⟩
  | choose a c iha ihc => exact ⟨iha hc.1, ihc hc.2⟩
  | loop a iha => exact iha hc
  | guard m a => cases hc
  | call p =>
      obtain ⟨hamong, hown⟩ := hallowed p hc
      obtain ⟨hpublic, hmoves⟩ := isPublicAmong_iff.mp hamong
      refine ⟨fun m hm => .inl ?_, hown i, hmoves, .inl hqueue⟩
      rw [hhandlers m hm]
      exact rank_entry_pos hpublic

theorem fits_popFromBuffer (h : Above order ms (.bufferLock s)) (hown : own i s) :
    (rules order own).Fits i ms (Procedure.body conditions (.popFromBuffer s)) :=
  ⟨rules_locks_buffer h hown, trivial⟩

theorem fits_streamRead (h : Above order ms (.streamMtx (.readMtx s))) (hqueue : NoQueue ms) :
    (rules order own).Fits i ms (Procedure.body conditions (.streamRead s)) :=
  ⟨rules_locks h (by simp) hqueue, hqueue.streamMtx⟩

theorem fits_streamWrite (h : Above order ms (.streamMtx (.writeMtx s))) (hqueue : NoQueue ms) :
    (rules order own).Fits i ms (Procedure.body conditions (.streamWrite s)) :=
  ⟨⟨rules_locks h (by simp) hqueue, hqueue.streamMtx⟩, hqueue⟩

theorem fits_construct {src : Nat} (h : Above order ms (.streamMtx (.readMtx src)))
    (hmoves : .construct src ∈ moves) (hqueue : NoQueue ms) :
    (rules order own).Fits i ms (Procedure.body conditions (.construct src)) := by
  have hwrite : Above order (.streamMtx (.readMtx src) :: ms) (.streamMtx (.writeMtx src)) :=
    h.within (order.constructs hmoves)
  exact ⟨rules_locks h (by simp) hqueue, rules_locks hwrite (by simp) hqueue.streamMtx, trivial⟩

/-- Both mutexes of the target come before those of the source. -/
theorem fits_moveAssign {target src : Nat} (h : Above order ms (.streamMtx (.writeMtx target)))
    (hmoves : .assign target src ∈ moves) (hqueue : NoQueue ms) :
    (rules order own).Fits i ms (Procedure.body conditions (.moveAssign target src)) := by
  obtain ⟨htarget, hbetween, hsrc⟩ := order.assigns hmoves
  have hread := h.within htarget
  have hsrcWrite := hread.within hbetween
  have hsrcRead := hsrcWrite.within hsrc
  have hqueueTarget : NoQueue (.streamMtx (.readMtx target) :: .streamMtx (.writeMtx target) :: ms) :=
    hqueue.streamMtx.streamMtx
  exact ⟨rules_locks h (by simp) hqueue, rules_locks hread (by simp) hqueue.streamMtx,
    rules_locks hsrcWrite (by simp) hqueueTarget, rules_locks hsrcRead (by simp) hqueueTarget.streamMtx, trivial⟩

theorem fits_readAvailableDataIntoBuffer (h : Above order ms (.bufferLock s)) (hown : own i s) (hqueue : NoQueue ms) :
    (rules order own).Fits i ms (Procedure.body conditions (.readAvailableDataIntoBuffer s)) := by
  have hread : Above order (.bufferLock s :: ms) (.streamMtx (.readMtx s)) :=
    h.within (by simp [order.buffer, order.stream])
  exact ⟨rules_locks_buffer h hown, rules_calls hread rfl rfl hqueue.buffer⟩

theorem fits_bufferedRead (h : Above order ms (.bufferLock s)) (hown : own i s) (hqueue : NoQueue ms) :
    (rules order own).Fits i ms (Procedure.body conditions (.bufferedRead s)) :=
  ⟨rules_calls_buffer h rfl hown hqueue, rules_calls_buffer h rfl hown hqueue⟩

theorem fits_bufferedReadInto (h : Above order ms (.bufferLock s)) (hown : own i s) (hqueue : NoQueue ms) :
    (rules order own).Fits i ms (Procedure.body conditions (.bufferedReadInto s)) := by
  have hagain : Above order (.bufferLock s :: ms) (.bufferLock s) := h.again rfl
  exact ⟨rules_locks_buffer h hown, rules_calls_buffer hagain rfl hown hqueue.buffer,
    rules_calls_buffer hagain rfl hown hqueue.buffer, rules_calls_buffer hagain rfl hown hqueue.buffer⟩

theorem fits_conditionalBufferWorker (h : Above order ms (.bufferEventHandlersMtx s)) (hown : own i s)
    (hqueue : NoQueue ms) :
    (rules order own).Fits i ms (Procedure.body conditions (.conditionalBufferWorker s)) := by
  have hbuffer : Above order ms (.bufferLock s) := h.trans (by simp [order.handlers, order.buffer])
  exact ⟨⟨rules_calls_buffer hbuffer rfl hown hqueue, rules_calls_buffer h rfl hown hqueue⟩, trivial,
    rules_locks h (by simp) hqueue, trivial⟩

/-- Within the lock on the queue there is only the pop. -/
theorem fits_processDataSendSignals (h : Above order ms (.bufferEventHandlersMtx s)) (hown : own i s)
    (hqueue : NoQueue ms) :
    (rules order own).Fits i ms (Procedure.body conditions (.processDataSendSignals s)) := by
  have hreceived : Above order (.bufferEventHandlersMtx s :: ms) (.receivedDataPerConditionMtx s) :=
    h.within (by simp [order.handlers, order.received])
  have hbuffer : Above order (.receivedDataPerConditionMtx s :: .bufferEventHandlersMtx s :: ms) (.bufferLock s) :=
    hreceived.within (by simp [order.received, order.buffer])
  have hpop : (rules order own).calls i (.receivedDataPerConditionMtx s :: .bufferEventHandlersMtx s :: ms)
      (.popFromBuffer s) := ⟨hbuffer, fun s' heq => by cases heq; exact hown, nofun, .inr rfl⟩
  refine ⟨trivial, rules_locks h (by simp) hqueue, ?_, trivial, ⟨?_, hpop⟩, ?_⟩
  · exact rules_calls_buffer hreceived rfl hown hqueue.handlers
  · exact rules_locks hreceived (by simp) hqueue.handlers
  · exact rules_calls_buffer (h.again rfl) rfl hown hqueue.handlers

/-- The functions keep to the rules. -/
theorem rules_respected {allowed : Procedure → Bool}
    (hallowed : ∀ p, allowed p = true →
      p.IsPublicAmong moves = true ∧ ∀ i s, p.buffer? = some s → own i s)
    (hconditions : ∀ s, CallsOnly allowed (conditions s)) :
    (rules order own).Respected (Procedure.body conditions) := by
  rintro i ms p ⟨h, hown, hmoves, hpop⟩
  have hqueue : p.IsPop = false → NoQueue ms := by
    intro hp
    simpa [hp] using hpop
  cases p with
  | streamRead s => exact fits_streamRead h (hqueue rfl)
  | streamWrite s => exact fits_streamWrite h (hqueue rfl)
  | construct src => exact fits_construct h (hmoves _ rfl) (hqueue rfl)
  | moveAssign target src => exact fits_moveAssign h (hmoves _ rfl) (hqueue rfl)
  | readUntilDelimiter s => exact rules_calls h rfl rfl (hqueue rfl)
  | bufferedRead s => exact fits_bufferedRead h (hown s rfl) (hqueue rfl)
  | bufferedReadInto s => exact fits_bufferedReadInto h (hown s rfl) (hqueue rfl)
  | popFromBuffer s => exact fits_popFromBuffer h (hown s rfl)
  | readAvailableDataIntoBuffer s => exact fits_readAvailableDataIntoBuffer h (hown s rfl) (hqueue rfl)
  | bufferedWrite s => exact rules_calls h rfl rfl (hqueue rfl)
  | conditionalBufferWorker s => exact fits_conditionalBufferWorker h (hown s rfl) (hqueue rfl)
  | processDataSendSignals s => exact fits_processDataSendSignals h (hown s rfl) (hqueue rfl)
  | condition s =>
      refine fits_of_callsOnly hallowed (fun m hm => ?_) (hqueue rfl) (hconditions s)
      rcases h m hm with hlt | ⟨rfl, -⟩
      · rw [Procedure.entry, order.received] at hlt
        exact Nat.lt_one_iff.mp hlt
      · exact absurd hm (hqueue rfl s)
  | read s => exact ⟨rules_locks h (by simp) (hqueue rfl), trivial⟩
  | readBlocking s => exact ⟨hqueue rfl, rules_calls h rfl rfl (hqueue rfl)⟩
  | write s => exact rules_calls h rfl rfl (hqueue rfl)

/-! ## Runs -/

/-- A thread that holds nothing may call what uses no buffer of others and moves as in `moves`. -/
theorem rules_calls_nil {p : Procedure} (hown : ∀ s, p.buffer? = some s → own i s)
    (hmoves : ∀ call ∈ p.move?, call ∈ moves) : (rules order own).calls i [] p :=
  ⟨fun _ hm => absurd hm List.not_mem_nil, hown, hmoves, .inl noQueue_nil⟩

namespace Layers

open Transition

variable {g : Layers} {n j : Nat} {worker : Nat → Nat}

theorem workerOf?_eq_some {p : Procedure} (h : p.workerOf? = some s) : p = .conditionalBufferWorker s := by
  cases p <;> simp [Procedure.workerOf?] at h ⊢
  exact h

theorem started_of_uses {a : Threads.Action Procedure} (h : Uses moves g a) :
    Threads.Started (rules order fun _ _ => True) g a := by
  cases a with
  | start i p =>
      refine rules_calls_nil (fun _ _ => trivial) ?_
      rcases h with hpublic | hworker
      · exact (isPublicAmong_iff.mp hpublic).2
      · obtain ⟨s, hs⟩ := Option.isSome_iff_exists.mp hworker
        obtain rfl := workerOf?_eq_some hs
        exact nofun
  | _ => trivial

theorem of_conditional {p : Procedure} (h : p.OfConditional = true) :
    p.IsPublic = true ∧ p.buffer? = none ∧ p.move? = none := by
  cases p <;> simp [Procedure.OfConditional, Procedure.IsPublic, Procedure.buffer?, Procedure.move?] at h ⊢

/-- The buffer of a stream is used by its worker only. -/
theorem started_of_usesConditional {a : Threads.Action Procedure} (h : UsesConditional worker g a) :
    Threads.Started (rules order fun i s => i = worker s) g a := by
  cases a with
  | start i p =>
      rcases h with hconditional | hworker
      · obtain ⟨-, hbuffer, hmove⟩ := of_conditional hconditional
        exact rules_calls_nil (by rw [hbuffer]; exact nofun) (mem_of_move?_eq_none hmove)
      · obtain ⟨s, hs, rfl⟩ := Option.map_eq_some_iff.mp hworker
        obtain rfl := workerOf?_eq_some hs
        exact rules_calls_nil (fun s' hs' => by cases hs'; rfl) nofun
  | _ => trivial

/-- While a queue is locked, its thread does not wait. -/
theorem not_polls (hfit : g.Fit (rules order own)) (hheld : .receivedDataPerConditionMtx s ∈ held (g.stack j)) :
    ¬ g.Polls j := by
  rintro ⟨k, hk⟩
  have hfits := hfit j
  rw [hk] at hfits hheld
  exact hfits.1 s hheld

/-- While a queue is locked, its thread wants nothing but the buffer that is its own. -/
theorem not_blocked (hfit : g.Fit (rules order fun i s => i = worker s))
    (hheld : .receivedDataPerConditionMtx s ∈ held (g.stack j)) :
    ¬ g.Blocked LayerMutex.recursive j := by
  rintro ⟨l, m, hwants, hmem, hself⟩
  obtain ⟨-, hown, hbuffer⟩ := hfit.wants hwants
  obtain ⟨s', rfl⟩ := hbuffer.resolve_left fun hnone => hnone s hheld
  obtain ⟨ms, ms', hl⟩ := List.append_of_mem hmem
  have hlocked := (hfit l).held ms _ ms' hl
  have heq : j = l := (hown s' rfl).trans (hlocked.2.1 s' rfl).symm
  cases hself heq

end Layers

end SocketWrapper
