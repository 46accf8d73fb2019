import SocketWrapper.Stopping.Machine

/-!
# The stop event of a stream

As long as no object is assigned to while a move constructor moves from it, an object names the eventfd of
the stream that it is, whatever has been moved where. Nothing lowers the counter of an eventfd, so that it is
positive from the first `stopReads` on.
-/

namespace SocketWrapper

open Transition

namespace Streams

variable {m m' : Streams} {a : Action} {allowed : Streams → Action → Prop}

/-! ## The steps -/

inductive Moves (m : Streams) : Action → Streams → Prop
  | constructs {socketFd eventFd : Fd} {sent : List Byte} :
      eventFd ∉ m.eventFds →
      Moves m (.construct socketFd eventFd sent) { m with
        objects := m.objects ++ [some ⟨⟨socketFd, eventFd⟩, m.eventFds.length⟩]
        sockets := Function.update m.sockets socketFd ⟨sent, []⟩
        counter := Function.update m.counter eventFd 0
        eventFds := m.eventFds ++ [eventFd] }
  | reads {thread i maxBytesToRead minBytesToRead : Nat} {timeoutMs : Int} :
      Moves m (.read thread i maxBytesToRead minBytesToRead timeoutMs) { m with
        calls := m.calls.enter thread (.reading i ⟨maxBytesToRead, minBytesToRead, timeoutMs, []⟩) }
  | polls {thread number i : Nat} {call : StreamRead} {o : StreamObject} :
      m.object? i = some o →
      Moves m (.poll thread) { m with calls := m.calls.goOn thread number (.polling i o call) }
  | answers {thread number i : Nat} {call : StreamRead} {o : StreamObject} {answer : Answer} :
      m.calls.At thread number (.polling i o call) →
      Moves m (.answer thread answer) (m.answered thread number i o call answer)
  | finishes {thread number : Nat} {call : StreamRead} {outcome : Outcome Nat} :
      Moves m (.finish thread) (m.complete thread number call outcome)
  | stops {thread i : Nat} {o : StreamObject} :
      m.object? i = some o →
      Moves m (.stopReads thread i) { m with
        calls := m.calls.enter thread (.stopping i o.number o.members.stopAllOperationsEventFd) }
  | posts {thread number i stream : Nat} {eventFd : Fd} :
      m.calls.At thread number (.stopping i stream eventFd) →
      Moves m (.post thread) { m.posted eventFd with
        calls := m.calls.leave thread
        stopped := stream :: m.stopped }
  | interrupts {thread number i stream : Nat} {eventFd : Fd} :
      m.calls.At thread number (.stopping i stream eventFd) → ¬ m.HasRoom eventFd →
      Moves m (.interrupt thread) { m with
        calls := m.calls.leave thread
        stopped := stream :: m.stopped }
  | moves {thread i : Nat} {o : StreamObject} :
      m.object? i = some o → ¬ m.Locked i →
      Moves m (.moveConstruct thread i) { m with
        objects := m.objects.set i (some (withoutSocket o))
        calls := m.calls.enter thread (.constructing i o.members.streamFileDescriptor o.number) }
  | moved {thread number i stream : Nat} {fd : Fd} {o : StreamObject} :
      m.calls.At thread number (.constructing i fd stream) → m.object? i = some o →
      Moves m (.moveConstructed thread) { m with
        objects := m.objects ++ [some ⟨⟨fd, o.members.stopAllOperationsEventFd⟩, stream⟩]
        calls := m.calls.leave thread }
  | assigns {thread i j : Nat} {o src : StreamObject} :
      m.object? i = some o → m.object? j = some src → i ≠ j →
      ¬ m.Locked i → ¬ m.Locked j →
      Moves m (.moveAssign thread i j) { m with
        objects := (m.objects.set i (some { o with members := { o.members with
            streamFileDescriptor := src.members.streamFileDescriptor } })).set j
          (some (withoutSocket src))
        calls := m.calls.enter thread (.assigning i j src.number) }
  | assigned {thread number i j stream : Nat} {o src : StreamObject} :
      m.calls.At thread number (.assigning i j stream) → m.object? j = some src →
      Moves m (.moveAssigned thread) { m with
        objects := m.objects.set i (some ⟨{ o.members with
          stopAllOperationsEventFd := src.members.stopAllOperationsEventFd }, stream⟩)
        calls := m.calls.leave thread }
  | destroys {i : Nat} : Moves m (.destroy i) { m with objects := m.objects.set i none }
  | destroysPosting {i : Nat} {eventFd : Fd} :
      Moves m (.destroy i) { m.posted eventFd with objects := m.objects.set i none }

theorem moves_of_step (h : m.step a = some m') : Moves m a m' := by
  cases a with
  | construct socketFd eventFd sent =>
      simp only [step] at h
      split at h
      · cases h
      · rename_i hnew
        cases h
        exact .constructs hnew
  | read =>
      simp only [step] at h
      split at h
      · cases h
        exact .reads
      · cases h
  | poll thread =>
      simp only [step] at h
      split at h
      · split at h
        · rename_i ho
          split at h
          · cases h
            exact .polls ho
          · cases h
        · cases h
      · cases h
  | answer thread answer =>
      simp only [step] at h
      split at h
      · rename_i hcall
        split at h
        · cases h
          exact .answers (Calls.call?_eq_some.mp hcall)
        · cases h
      · cases h
  | finish thread =>
      simp only [step] at h
      split at h
      · split at h
        · cases h
          exact .finishes
        · cases h
      · cases h
  | stopReads thread i =>
      simp only [step] at h
      split at h
      · rename_i ho
        cases h
        exact .stops ho
      · cases h
  | post thread =>
      simp only [step] at h
      split at h
      · rename_i hcall
        split at h
        · cases h
          exact .posts (Calls.call?_eq_some.mp hcall)
        · cases h
      · cases h
  | interrupt thread =>
      simp only [step] at h
      split at h
      · rename_i hcall
        split at h
        · cases h
        · rename_i hfull
          cases h
          exact .interrupts (Calls.call?_eq_some.mp hcall) hfull
      · cases h
  | moveConstruct thread i =>
      simp only [step] at h
      split at h
      · rename_i ho
        split at h
        · cases h
        · rename_i hlocked
          cases h
          exact .moves ho hlocked
      · cases h
  | moveConstructed thread =>
      simp only [step] at h
      split at h
      · rename_i hcall
        split at h
        · rename_i ho
          cases h
          exact .moved (Calls.call?_eq_some.mp hcall) ho
        · cases h
      · cases h
  | moveAssign thread i j =>
      simp only [step] at h
      split at h
      · rename_i ho hsrc
        split at h
        · cases h
        · rename_i hfree
          obtain ⟨hne, hi, hj⟩ := by simpa only [not_or] using hfree
          cases h
          exact .assigns ho hsrc hne hi hj
      · cases h
  | moveAssigned thread =>
      simp only [step] at h
      split at h
      · rename_i hcall
        split at h
        · rename_i hsrc
          cases h
          exact .assigned (Calls.call?_eq_some.mp hcall) hsrc
        · cases h
      · cases h
  | destroy i =>
      simp only [step] at h
      split at h
      · split at h
        · cases h
        · split at h
          · cases h
            exact .destroys
          · split at h
            · cases h
              exact .destroysPosting
            · cases h
      · cases h

/-! ## Objects -/

theorem object?_of_append {l : List (Option StreamObject)} {x : StreamObject} {k : Nat} {o : StreamObject}
    (h : (l ++ [some x])[k]?.join = some o) : l[k]?.join = some o ∨ (k = l.length ∧ x = o) := by
  rcases Nat.lt_trichotomy k l.length with hlt | rfl | hgt
  · rw [List.getElem?_append_left hlt] at h
    exact .inl h
  · rw [List.getElem?_concat_length] at h
    cases h
    exact .inr ⟨rfl, rfl⟩
  · rw [List.getElem?_eq_none (by rw [List.length_append]; exact hgt)] at h
    cases h

theorem object?_of_set {l : List (Option StreamObject)} {i k : Nat} {x : Option StreamObject}
    {o : StreamObject} (h : (l.set i x)[k]?.join = some o) :
    (k = i ∧ x = some o) ∨ (k ≠ i ∧ l[k]?.join = some o) :=
  (Calls.of_set (Option.join_eq_some_iff.mp h)).imp_right fun ⟨hne, hold⟩ =>
    ⟨hne, Option.join_eq_some_iff.mpr hold⟩

theorem lt_of_object? {i : Nat} {o : StreamObject} (h : m.object? i = some o) : i < m.objects.length :=
  (List.getElem?_eq_some_iff.mp (Option.join_eq_some_iff.mp h)).1

/-- Object `i` is the same stream in `m'` as in `m`, if it is still alive. -/
def Keeps (m m' : Streams) (i : Nat) : Prop :=
  i < m.objects.length → i < m'.objects.length ∧
    ∀ o', m'.object? i = some o' → ∃ o, m.object? i = some o ∧ o.number = o'.number

theorem Keeps.of_eq {i : Nat} (h : m'.objects = m.objects) : Keeps m m' i := by
  intro hlt
  refine ⟨h ▸ hlt, fun o' ho' => ⟨o', ?_, rfl⟩⟩
  rwa [object?, h] at ho'

theorem Keeps.of_append {i : Nat} {x : StreamObject} (h : m'.objects = m.objects ++ [some x]) :
    Keeps m m' i := by
  intro hlt
  refine ⟨by rw [h, List.length_append]; omega, fun o' ho' => ⟨o', ?_, rfl⟩⟩
  rw [object?, h] at ho'
  exact (object?_of_append ho').resolve_right fun heq => Nat.ne_of_lt hlt heq.1

/-- Another object is replaced, or this one by one of the same stream. -/
theorem Keeps.of_set {i k : Nat} {x : Option StreamObject} (h : m'.objects = m.objects.set i x)
    (hsame : k = i → ∀ o', x = some o' → ∃ o, m.object? k = some o ∧ o.number = o'.number) :
    Keeps m m' k := by
  intro hlt
  refine ⟨by rw [h, List.length_set]; exact hlt, fun o' ho' => ?_⟩
  rw [object?, h] at ho'
  rcases object?_of_set ho' with ⟨hk, hx⟩ | ⟨-, hold⟩
  · exact hsame hk o' hx
  · exact ⟨o', hold, rfl⟩

/-! ## The invariant -/

/-- What a thread in the call relies on. -/
def Fits (m : Streams) : StreamCall → Prop
  | .reading _ _ => True
  | .polling _ o _ => m.eventFds[o.number]? = some o.members.stopAllOperationsEventFd
  | .stopping _ number eventFd => m.eventFds[number]? = some eventFd
  | .constructing i _ number =>
      i < m.objects.length ∧ ∀ o, m.object? i = some o → o.number = number
  | .assigning _ j number => j < m.objects.length ∧ ∀ o, m.object? j = some o → o.number = number

theorem Fits.keep {c : StreamCall} (h : m.Fits c) (hfds : m.eventFds <+: m'.eventFds)
    (hkeeps : ∀ i ∈ c.moves, Keeps m m' i) : m'.Fits c := by
  obtain ⟨new, hfds⟩ := hfds
  have hlookup : ∀ {k : Nat} {e : Fd}, m.eventFds[k]? = some e → m'.eventFds[k]? = some e := by
    intro k e hk
    rw [← hfds, List.getElem?_append_left (List.getElem?_eq_some_iff.mp hk).1]
    exact hk
  have hmoved : ∀ {i k : Nat}, Keeps m m' i →
      (i < m.objects.length ∧ ∀ o, m.object? i = some o → o.number = k) →
      i < m'.objects.length ∧ ∀ o, m'.object? i = some o → o.number = k := by
    intro i k hkeep ⟨hlt, hnumber⟩
    obtain ⟨hlt', hall⟩ := hkeep hlt
    refine ⟨hlt', fun o' ho' => ?_⟩
    obtain ⟨o, ho, heq⟩ := hall o' ho'
    rw [← heq]
    exact hnumber o ho
  cases c with
  | reading => trivial
  | polling => exact hlookup h
  | stopping => exact hlookup h
  | constructing i fd number => exact hmoved (hkeeps i List.mem_cons_self) h
  | assigning i j number => exact hmoved (hkeeps j (List.mem_cons_of_mem _ List.mem_cons_self)) h

/-- An object that is assigned to is in no other move. -/
def Apart (calls : Calls StreamCall) : Prop :=
  ∀ {t t' n n' i j k c}, calls.At t n (.assigning i j k) → calls.At t' n' c → t ≠ t' → i ∉ c.moves

theorem Apart.of_new {calls calls' : Calls StreamCall} {t : Nat} {c : StreamCall} (h : Apart calls)
    (hof : ∀ {t' n' c'}, calls'.At t' n' c' → (t' = t ∧ c' = c) ∨ calls.At t' n' c')
    (hfrom : ∀ {i j k}, c = .assigning i j k → ∀ {t' n' c'}, calls.At t' n' c' → i ∉ c'.moves)
    (hto : ∀ {t' n' i j k}, calls.At t' n' (.assigning i j k) → i ∉ c.moves) : Apart calls' := by
  intro t₁ t₂ n₁ n₂ i j k c' h₁ h₂ hne
  rcases hof h₁ with ⟨rfl, heq⟩ | hold₁
  · rcases hof h₂ with ⟨rfl, -⟩ | hold₂
    · exact absurd rfl hne
    · exact hfrom heq.symm hold₂
  · rcases hof h₂ with ⟨-, rfl⟩ | hold₂
    · exact hto hold₁
    · exact h hold₁ hold₂ hne

theorem of_enter {calls : Calls StreamCall} {t : Nat} {c : StreamCall} {t' n' : Nat} {c' : StreamCall}
    (h : (calls.enter t c).At t' n' c') : (t' = t ∧ c' = c) ∨ calls.At t' n' c' :=
  (Calls.of_enter h).imp (fun h => ⟨h.1, h.2.2⟩) And.right

theorem of_goOn {calls : Calls StreamCall} {t n : Nat} {c : StreamCall} {t' n' : Nat} {c' : StreamCall}
    (h : (calls.goOn t n c).At t' n' c') : (t' = t ∧ c' = c) ∨ calls.At t' n' c' :=
  (Calls.of_goOn h).imp (fun h => ⟨h.1, h.2.2⟩) And.right

structure Sound (m : Streams) : Prop where
  named : ∀ i o, m.object? i = some o →
    m.eventFds[o.number]? = some o.members.stopAllOperationsEventFd
  fits : ∀ {t n c}, m.calls.At t n c → m.Fits c
  apart : Apart m.calls
  posted : ∀ k ∈ m.stopped, ∃ eventFd, m.eventFds[k]? = some eventFd ∧ 0 < m.counter eventFd

theorem sound_init (threads : Nat) : (init threads).Sound where
  named i o h := by cases h
  fits h := absurd h Calls.not_at_start
  apart h := absurd h Calls.not_at_start
  posted k h := by cases h

/-! ### Calls -/

theorem Sound.of_call {c : StreamCall} {calls : Calls StreamCall} {t : Nat} (h : m.Sound)
    (hof : ∀ {t' n' c'}, calls.At t' n' c' → (t' = t ∧ c' = c) ∨ m.calls.At t' n' c') (hfits : m.Fits c)
    (hfrom : ∀ {i j k}, c = .assigning i j k → ∀ {t' n' c'}, m.calls.At t' n' c' → i ∉ c'.moves)
    (hto : ∀ {t' n' i j k}, m.calls.At t' n' (.assigning i j k) → i ∉ c.moves) :
    Sound { m with calls := calls } where
  named := h.named
  fits hat := by
    rcases hof hat with ⟨-, rfl⟩ | hold
    · exact hfits
    · exact h.fits hold
  apart := Apart.of_new h.apart hof hfrom hto
  posted := h.posted

theorem Sound.of_quiet {c : StreamCall} {calls : Calls StreamCall} {t : Nat} (h : m.Sound)
    (hof : ∀ {t' n' c'}, calls.At t' n' c' → (t' = t ∧ c' = c) ∨ m.calls.At t' n' c') (hfits : m.Fits c)
    (hmoves : c.moves = []) : Sound { m with calls := calls } := by
  refine h.of_call hof hfits (fun heq => ?_) fun _ => ?_
  · subst heq
    cases hmoves
  · rw [hmoves]
    exact List.not_mem_nil

theorem Sound.leave (h : m.Sound) (t : Nat) : Sound { m with calls := m.calls.leave t } where
  named := h.named
  fits hat := h.fits (Calls.of_leave hat).2
  apart h₁ h₂ := h.apart (Calls.of_leave h₁).2 (Calls.of_leave h₂).2
  posted := h.posted

theorem notMem_locks {t n i : Nat} {c : StreamCall} (h : ¬ m.Locked i) (hat : m.calls.At t n c) :
    i ∉ c.locks :=
  fun hmem => h ⟨c, Calls.mem_all.mpr ⟨t, n, hat⟩, hmem⟩

theorem notMem_copies {t n i : Nat} {c : StreamCall} (h : ¬ m.Copied i) (hat : m.calls.At t n c) :
    i ∉ c.copies :=
  fun hmem => h ⟨c, Calls.mem_all.mpr ⟨t, n, hat⟩, hmem⟩

/-- A move constructor copies from the object that it moves from, a move assignment has both locked. -/
theorem notMem_moves {t n i : Nat} {c : StreamCall} (hlocked : ¬ m.Locked i) (hcopied : ¬ m.Copied i)
    (hat : m.calls.At t n c) : i ∉ c.moves := by
  cases c with
  | reading => exact List.not_mem_nil
  | polling => exact List.not_mem_nil
  | stopping => exact List.not_mem_nil
  | constructing => exact notMem_copies hcopied hat
  | assigning => exact notMem_locks hlocked hat

/-- No object that has its mutex free is being assigned to. -/
theorem ne_of_not_locked {t n i i' j k : Nat} (h : ¬ m.Locked i)
    (hat : m.calls.At t n (.assigning i' j k)) : i' ≠ i := by
  rintro rfl
  exact notMem_locks h hat List.mem_cons_self

/-! ### Counters -/

theorem le_counter_posted (m : Streams) (eventFd e : Fd) : m.counter e ≤ (m.posted eventFd).counter e := by
  simp only [posted, Function.update_apply]
  split
  · rename_i heq
    rw [heq]
    exact Nat.le_add_right _ _
  · exact Nat.le_refl _

theorem counter_posted_pos (m : Streams) (eventFd : Fd) : 0 < (m.posted eventFd).counter eventFd := by
  simp only [posted, Function.update_self]
  exact Nat.add_pos_right _ (by decide)

theorem Sound.post (h : m.Sound) (eventFd : Fd) : (m.posted eventFd).Sound where
  named := h.named
  fits hat := h.fits hat
  apart := h.apart
  posted k hk := by
    obtain ⟨e, he, hpos⟩ := h.posted k hk
    exact ⟨e, he, Nat.lt_of_lt_of_le hpos (le_counter_posted m eventFd e)⟩

theorem Sound.stop {t n i k : Nat} {eventFd : Fd} (h : m.Sound)
    (hat : m.calls.At t n (.stopping i k eventFd)) (hpos : 0 < m.counter eventFd) :
    Sound { m with calls := m.calls.leave t, stopped := k :: m.stopped } where
  named := h.named
  fits hat := h.fits (Calls.of_leave hat).2
  apart := (h.leave t).apart
  posted k' hk' := by
    rcases List.mem_cons.mp hk' with rfl | hold
    · exact ⟨eventFd, h.fits hat, hpos⟩
    · exact h.posted k' hold

/-! ### Objects -/

/-- Objects are replaced, and none that a move relies on by one of another stream. -/
theorem Sound.setObjects {objects : List (Option StreamObject)} (h : m.Sound)
    (hnamed : ∀ (k : Nat) (o : StreamObject), objects[k]?.join = some o →
      m.eventFds[o.number]? = some o.members.stopAllOperationsEventFd)
    (hkeeps : ∀ {t n c}, m.calls.At t n c → ∀ i ∈ c.moves, Keeps m { m with objects := objects } i) :
    Sound { m with objects := objects } where
  named := hnamed
  fits hat := (h.fits hat).keep List.prefix_rfl (hkeeps hat)
  apart := h.apart
  posted := h.posted

theorem Sound.setMembers {i : Nat} {o : StreamObject} (h : m.Sound) (ho : m.object? i = some o) (fd : Fd) :
    Sound { m with
      objects := m.objects.set i
        (some { o with members := { o.members with streamFileDescriptor := fd } }) } := by
  refine h.setObjects (fun k o' ho' => ?_) fun _ k _ => Keeps.of_set rfl fun hk o' ho' => ?_
  · rcases object?_of_set ho' with ⟨-, heq⟩ | ⟨-, hold⟩
    · cases heq
      exact h.named i o ho
    · exact h.named k o' hold
  · cases ho'
    exact ⟨o, hk ▸ ho, rfl⟩

theorem Sound.destroy (h : m.Sound) (i : Nat) : Sound { m with objects := m.objects.set i none } := by
  refine h.setObjects (fun k o ho => ?_) fun _ k _ => Keeps.of_set rfl fun _ o' ho' => by cases ho'
  rcases object?_of_set ho with ⟨-, heq⟩ | ⟨-, hold⟩
  · cases heq
  · exact h.named k o hold

theorem Sound.append {x : StreamObject} (h : m.Sound)
    (hx : m.eventFds[x.number]? = some x.members.stopAllOperationsEventFd) :
    Sound { m with objects := m.objects ++ [some x] } := by
  refine h.setObjects (fun k o ho => ?_) fun _ k _ => Keeps.of_append rfl
  rcases object?_of_append ho with hold | ⟨-, rfl⟩
  · exact h.named k o hold
  · exact hx

/-- The eventfd of a new stream is no other's. -/
theorem Sound.newEventFd {eventFd : Fd} (h : m.Sound) (hnew : eventFd ∉ m.eventFds) :
    Sound { m with
      counter := Function.update m.counter eventFd 0
      eventFds := m.eventFds ++ [eventFd] } where
  named i o ho := by
    have hold := h.named i o ho
    show (m.eventFds ++ [eventFd])[o.number]? = _
    rw [List.getElem?_append_left (List.getElem?_eq_some_iff.mp hold).1]
    exact hold
  fits hat := (h.fits hat).keep (List.prefix_append _ _) fun _ _ => Keeps.of_eq rfl
  apart := h.apart
  posted k hk := by
    obtain ⟨e, he, hpos⟩ := h.posted k hk
    have hne : e ≠ eventFd := fun heq => hnew (heq ▸ List.mem_of_getElem? he)
    refine ⟨e, ?_, ?_⟩
    · show (m.eventFds ++ [eventFd])[k]? = _
      rw [List.getElem?_append_left (List.getElem?_eq_some_iff.mp he).1]
      exact he
    · show 0 < Function.update m.counter eventFd 0 e
      rw [Function.update_of_ne hne]
      exact hpos

/-! ### What the invariant says nothing about -/

theorem Sound.withSockets (h : m.Sound) (sockets : Fd → Socket) : Sound { m with sockets := sockets } where
  named := h.named
  fits hat := h.fits hat
  apart := h.apart
  posted := h.posted

theorem Sound.withCompletions (h : m.Sound) (completions : List StreamReadDone) :
    Sound { m with completions := completions } where
  named := h.named
  fits hat := h.fits hat
  apart := h.apart
  posted := h.posted

theorem Sound.complete (h : m.Sound) (thread number : Nat) (call : StreamRead) (outcome : Outcome Nat) :
    (m.complete thread number call outcome).Sound :=
  (h.leave thread).withCompletions _

theorem Sound.answered (h : m.Sound) (thread number i : Nat) (o : StreamObject) (call : StreamRead)
    (answer : Answer) : (m.answered thread number i o call answer).Sound := by
  simp only [Streams.answered]
  split
  · exact (h.withSockets _).complete thread number call _
  · exact (h.of_quiet (c := .reading i _) of_goOn trivial rfl).withSockets _

/-! ### Moves -/

theorem Sound.beginMove {thread i : Nat} {o : StreamObject} (h : m.Sound) (ho : m.object? i = some o)
    (hfree : ¬ m.Locked i) :
    Sound { m with
      objects := m.objects.set i (some (withoutSocket o))
      calls := m.calls.enter thread (.constructing i o.members.streamFileDescriptor o.number) } := by
  have hset := h.setMembers ho Descriptors.kInvalidSocketFdMarker
  refine hset.of_call of_enter ⟨?_, fun o' ho' => ?_⟩ nofun fun hat hmem => ?_
  · rw [List.length_set]
    exact lt_of_object? ho
  · rcases object?_of_set ho' with ⟨-, heq⟩ | ⟨hne, -⟩
    · cases heq
      rfl
    · exact absurd rfl hne
  · exact ne_of_not_locked hfree hat (List.mem_singleton.mp hmem)

theorem Sound.endMove {thread number i k : Nat} {fd : Fd} {o : StreamObject} (h : m.Sound)
    (hat : m.calls.At thread number (.constructing i fd k)) (ho : m.object? i = some o) :
    Sound { m with
      objects := m.objects ++ [some ⟨⟨fd, o.members.stopAllOperationsEventFd⟩, k⟩]
      calls := m.calls.leave thread } := by
  have hnumber : o.number = k := (h.fits hat).2 o ho
  exact (h.leave thread).append (hnumber ▸ h.named i o ho)

theorem Sound.beginAssign {thread i j : Nat} {o src : StreamObject} (h : m.Sound)
    (ho : m.object? i = some o) (hsrc : m.object? j = some src) (hne : i ≠ j) (hi : ¬ m.Locked i)
    (hj : ¬ m.Locked j) (hcopied : ¬ m.Copied i) :
    Sound { m with
      objects := (m.objects.set i (some { o with members := { o.members with
          streamFileDescriptor := src.members.streamFileDescriptor } })).set j
        (some (withoutSocket src))
      calls := m.calls.enter thread (.assigning i j src.number) } := by
  have hset := h.setMembers ho src.members.streamFileDescriptor
  have hsrc' : Streams.object? { m with
      objects := m.objects.set i (some { o with members := { o.members with
        streamFileDescriptor := src.members.streamFileDescriptor } }) } j = some src := by
    rw [object?, List.getElem?_set_ne hne]
    exact hsrc
  refine (hset.setMembers hsrc' Descriptors.kInvalidSocketFdMarker).of_call of_enter
    ⟨?_, fun o' ho' => ?_⟩ (fun heq _ _ _ hat => ?_) fun hat hmem => ?_
  · rw [List.length_set, List.length_set]
    exact lt_of_object? hsrc
  · rcases object?_of_set ho' with ⟨-, heq⟩ | ⟨hne', -⟩
    · cases heq
      rfl
    · exact absurd rfl hne'
  · cases heq
    exact notMem_moves hi hcopied hat
  · rcases List.mem_cons.mp hmem with heq | hmem
    · exact ne_of_not_locked hi hat heq
    · exact ne_of_not_locked hj hat (List.mem_singleton.mp hmem)

theorem Sound.endAssign {thread number i j k : Nat} {o src : StreamObject} (h : m.Sound)
    (hat : m.calls.At thread number (.assigning i j k)) (hsrc : m.object? j = some src) :
    Sound { m with
      objects := m.objects.set i (some ⟨{ o.members with
        stopAllOperationsEventFd := src.members.stopAllOperationsEventFd }, k⟩)
      calls := m.calls.leave thread } := by
  have hnumber : src.number = k := (h.fits hat).2 src hsrc
  refine (h.leave thread).setObjects (fun i' o' ho' => ?_) fun hother i' hmem => ?_
  · rcases object?_of_set ho' with ⟨-, heq⟩ | ⟨-, hold⟩
    · cases heq
      exact hnumber ▸ h.named j src hsrc
    · exact h.named i' o' hold
  · obtain ⟨hthread, hold⟩ := Calls.of_leave hother
    have hapart := h.apart hat hold (Ne.symm hthread)
    exact Keeps.of_set rfl fun heq => absurd (heq ▸ hmem) hapart

/-! ### Runs -/

theorem Sound.move (h : m.Sound) (ha : m.KeepsApart a) (hmove : Moves m a m') : m'.Sound := by
  cases hmove with
  | constructs hnew =>
      exact ((h.newEventFd hnew).append (List.getElem?_concat_length)).withSockets _
  | reads => exact h.of_quiet of_enter trivial rfl
  | polls ho => exact h.of_quiet of_goOn (h.named _ _ ho) rfl
  | answers => exact h.answered _ _ _ _ _ _
  | finishes => exact h.complete _ _ _ _
  | stops ho => exact h.of_quiet of_enter (h.named _ _ ho) rfl
  | @posts thread number i stream eventFd hat =>
      exact (h.post eventFd).stop hat (counter_posted_pos m eventFd)
  | interrupts hat hfull =>
      rw [HasRoom, Nat.not_le] at hfull
      refine h.stop hat (Nat.pos_of_ne_zero fun hzero => ?_)
      rw [hzero] at hfull
      exact absurd hfull (by decide)
  | moves ho hfree => exact h.beginMove ho hfree
  | moved hat ho => exact h.endMove hat ho
  | assigns ho hsrc hne hi hj => exact h.beginAssign ho hsrc hne hi hj ha
  | assigned hat hsrc => exact h.endAssign hat hsrc
  | destroys => exact h.destroy _
  | destroysPosting => exact (h.post _).destroy _

theorem Sound.of_reach {threads : Nat} (h : Reach step KeepsApart (init threads) m) : m.Sound :=
  h.invariant (sound_init threads) fun _ _ _ hm ha hstep => hm.move ha (moves_of_step hstep)

theorem stopped_of_move {k : Nat} (h : k ∈ m.stopped) (hmove : Moves m a m') : k ∈ m'.stopped := by
  cases hmove with
  | posts => exact List.mem_cons_of_mem _ h
  | interrupts => exact List.mem_cons_of_mem _ h
  | answers =>
      simp only [answered]
      split <;> exact h
  | _ => exact h

theorem stopped_of_reach {k : Nat} (h : k ∈ m.stopped) (hreach : Reach step allowed m m') : k ∈ m'.stopped :=
  hreach.invariant h fun _ _ _ hk _ hstep => stopped_of_move hk (moves_of_step hstep)

/-! ## Reads -/

theorem Sound.counter_pos (h : m.Sound) {thread number i : Nat} {o : StreamObject} {call : StreamRead}
    (hat : m.calls.At thread number (.polling i o call)) (hstop : o.number ∈ m.stopped) :
    0 < m.counter o.members.stopAllOperationsEventFd := by
  obtain ⟨eventFd, hfd, hpos⟩ := h.posted _ hstop
  have hpolled : m.eventFds[o.number]? = some o.members.stopAllOperationsEventFd := h.fits hat
  rw [hpolled] at hfd
  cases hfd
  exact hpos

theorem step_answer {thread number i : Nat} {o : StreamObject} {call : StreamRead} {answer : Answer}
    (hat : m.calls.At thread number (.polling i o call)) :
    m.step (.answer thread answer) =
      if m.MayAnswer o call answer then some (m.answered thread number i o call answer) else none := by
  simp only [step, Calls.call?_eq_some.mpr hat]

/-- With the counter positive a round neither waits nor times out. -/
theorem broughtOrThrew_answered {thread number i : Nat} {o : StreamObject} {call : StreamRead}
    (hat : m.calls.At thread number (.polling i o call))
    (hpos : 0 < m.counter o.members.stopAllOperationsEventFd) (answer : Answer) :
    BroughtOrThrew m (m.answered thread number i o call answer) thread number i call := by
  cases answer with
  | pollFails errno => exact .inr ⟨_, .pollFailed errno, rfl⟩
  | readFails errno => exact .inr ⟨_, .readFailed errno, rfl⟩
  | readable available =>
      simp only [answered, StreamRead.round]
      by_cases hnil : ((m.sockets o.members.streamFileDescriptor).read
          (call.maxBytesToRead - call.stored.length) available).1 = []
      · rw [if_pos hnil]
        exact .inr ⟨_, .closed, rfl⟩
      · rw [if_neg hnil]
        exact .inl ⟨_, hnil, hat.goOn_same _ _⟩
  | quiet =>
      simp only [answered, StreamRead.round, if_pos hpos]
      exact .inr ⟨_, .terminated, rfl⟩

end Streams

end SocketWrapper
