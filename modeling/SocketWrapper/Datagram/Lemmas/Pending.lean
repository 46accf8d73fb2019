import SocketWrapper.Datagram.Lemmas.Moved
import SocketWrapper.Datagram.Readers

/-!
# What the calls have still to copy

As long as no datagram is received over another one that it differs from, every call finds its own in the
front of the buffer.
-/

namespace SocketWrapper.Descriptors

open FlatMemory Transition

variable {buffer bytes datagram : List Byte}

/-! ## The buffer -/

theorem store_zero : store buffer 0 datagram = datagram ++ buffer.drop datagram.length := by
  simp [store]

/-- A datagram in the front of the buffer is still there after another one that agrees with it. -/
theorem take_store_of_agree (hbytes : buffer.take bytes.length = bytes)
    (h : bytes <+: datagram ∨ datagram <+: bytes) :
    (store buffer 0 datagram).take bytes.length = bytes := by
  rw [store_zero]
  rcases h with ⟨rest, rfl⟩ | ⟨rest, rfl⟩
  · rw [List.append_assoc, List.take_left']
    rfl
  · rw [List.length_append, List.take_length_add_append]
    rw [List.length_append, List.take_add] at hbytes
    have hfront := List.append_inj_right' hbytes (by
      have hlen := congrArg List.length hbytes
      simp only [List.length_append, List.length_take, List.length_drop] at hlen ⊢
      omega)
    rw [hfront]

/-- It is not, after one that differs. -/
theorem agree_of_take_store (h : (store buffer 0 datagram).take bytes.length = bytes) :
    bytes <+: datagram ∨ datagram <+: bytes := by
  rw [store_zero] at h
  have hbytes : bytes <+: datagram ++ buffer.drop datagram.length := h ▸ List.take_prefix _ _
  exact List.prefix_or_prefix_of_prefix hbytes (List.prefix_append _ _)

namespace DatagramReaders

variable {m m' : DatagramReaders}

/-! ## The steps -/

/-- A step of the machine, with datagrams that fit into the buffer. -/
inductive Moves (m : DatagramReaders) : Action → DatagramReaders → Prop
  | throws {thread errno : Nat} {timeoutMs : Int} {answer : PollAnswer} :
      Moves m (.poll thread timeoutMs answer errno) m
  | polls {thread errno : Nat} {timeoutMs : Int} {answer : PollAnswer} :
      Moves m (.poll thread timeoutMs answer errno) { m with calls := m.calls.enter thread .polled }
  | receives {thread errno number : Nat} {datagram : List Byte} {queued : List (List Byte)} :
      m.calls.At thread number .polled → m.queued = datagram :: queued →
      Moves m (.recvmsg thread errno) { m with
        object := { m.object with buffer := store m.object.buffer 0 datagram }
        queued := queued
        received := m.received ++ [datagram]
        calls := m.calls.goOn thread number (.received datagram.length m.received.length) }
  | fails {thread errno : Nat} :
      Moves m (.recvmsgFails thread errno) { m with calls := m.calls.leave thread }
  | copies {thread number readResult datagram : Nat} :
      m.calls.At thread number (.received readResult datagram) →
      Moves m (.copy thread) { m with
        calls := m.calls.leave thread
        completions := m.completions ++ [⟨datagram, m.object.copyOut readResult⟩] }

theorem moves_of_step {a : Action} (hfits : ∀ d ∈ m.queued, d.length ≤ m.object.buffer.length)
    (h : m.step a = some m') : Moves m a m' := by
  cases a with
  | poll thread timeoutMs answer errno =>
      simp only [step] at h
      split at h
      · split at h
        · cases h
          exact .throws
        · cases h
          exact .polls
      · cases h
  | recvmsg thread errno =>
      simp only [step] at h
      split at h
      · rename_i number datagram queued hthread hqueued
        have hle := hfits datagram (by simp [hqueued])
        rw [UdpDatagram.receive_of_le hle] at h
        simp only [List.length_append, List.length_singleton, Nat.add_sub_cancel] at h
        cases h
        exact .receives hthread hqueued
      · cases h
  | recvmsgFails thread errno =>
      simp only [step] at h
      split at h
      · cases h
        exact .fails
      · cases h
  | copy thread =>
      simp only [step] at h
      split at h
      · rename_i hthread
        cases h
        exact .copies hthread
      · cases h

/-! ## The invariant -/

/-- Every call has still in the buffer what it is to copy. -/
structure Intact (m : DatagramReaders) : Prop where
  own : m.EachItsOwn
  fits : ∀ d ∈ m.queued, d.length ≤ m.object.buffer.length
  pending : ∀ {t n readResult i}, m.calls.At t n (.received readResult i) →
    ∃ bytes, m.received[i]? = some bytes ∧ readResult = bytes.length ∧
      m.object.buffer.take bytes.length = bytes
  distinct : ∀ {t t' n n' r r' i}, m.calls.At t n (.received r i) → m.calls.At t' n' (.received r' i) →
    t = t'
  uncopied : ∀ {t n r i}, m.calls.At t n (.received r i) → ∀ c ∈ m.completions, c.datagram ≠ i

theorem intact_start (object : UdpDatagram) (threads : Nat) {queued : List (List Byte)}
    (hfits : ∀ d ∈ queued, d.length ≤ object.buffer.length) : Intact (start object threads queued) where
  own := ⟨nofun, List.nodup_nil⟩
  fits := hfits
  pending h := absurd h Calls.not_at_start
  distinct h := absurd h Calls.not_at_start
  uncopied h := absurd h Calls.not_at_start

theorem Intact.lt_received (h : Intact m) {t n r i : Nat} (hat : m.calls.At t n (.received r i)) :
    i < m.received.length := by
  obtain ⟨bytes, hbytes, -⟩ := h.pending hat
  exact (List.getElem?_eq_some_iff.mp hbytes).1

theorem Intact.polls (h : Intact m) (thread : Nat) :
    Intact { m with calls := m.calls.enter thread .polled } := by
  have hold {t n r i : Nat} (hat : (m.calls.enter thread .polled).At t n (.received r i)) :
      m.calls.At t n (.received r i) :=
    ((Calls.of_enter hat).resolve_left fun heq => by cases heq.2.2).2
  exact ⟨⟨h.own.bytes, h.own.once⟩, h.fits, fun hat => h.pending (hold hat),
    fun h₁ h₂ => h.distinct (hold h₁) (hold h₂), fun hat => h.uncopied (hold hat)⟩

theorem Intact.leaves (h : Intact m) (thread : Nat) : Intact { m with calls := m.calls.leave thread } :=
  ⟨⟨h.own.bytes, h.own.once⟩, h.fits, fun hat => h.pending (Calls.of_leave hat).2,
    fun h₁ h₂ => h.distinct (Calls.of_leave h₁).2 (Calls.of_leave h₂).2,
    fun hat => h.uncopied (Calls.of_leave hat).2⟩

theorem Intact.receives (h : Intact m) {thread number errno : Nat} {queued : List (List Byte)}
    (hqueued : m.queued = datagram :: queued) (hspoils : m.SpoilsNothing (.recvmsg thread errno)) :
    Intact { m with
      object := { m.object with buffer := store m.object.buffer 0 datagram }
      queued := queued
      received := m.received ++ [datagram]
      calls := m.calls.goOn thread number (.received datagram.length m.received.length) } := by
  have hle : datagram.length ≤ m.object.buffer.length := h.fits datagram (by simp [hqueued])
  have hin : 0 + datagram.length ≤ m.object.buffer.length := by omega
  refine ⟨⟨fun c hc => ?_, h.own.once⟩, fun d hd => ?_, fun hat => ?_, fun h₁ h₂ => ?_, fun hat c hc => ?_⟩
  · have hbytes := h.own.bytes c hc
    rwa [List.getElem?_append_left (List.getElem?_eq_some_iff.mp hbytes).1]
  · rw [length_store hin]
    exact h.fits d (hqueued ▸ List.mem_cons_of_mem _ hd)
  · rcases Calls.of_goOn hat with ⟨-, -, heq⟩ | ⟨hne, hold⟩
    · cases heq
      exact ⟨datagram, by simp, rfl, UdpDatagram.take_store_datagram hle⟩
    · obtain ⟨bytes, hbytes, hlen, htake⟩ := h.pending hold
      have hagree := hspoils datagram (by simp [hqueued]) _ (Calls.mem_others.mpr ⟨_, _, hne, hold⟩)
        bytes hbytes
      refine ⟨bytes, ?_, hlen, take_store_of_agree htake hagree⟩
      rw [List.getElem?_append_left (List.getElem?_eq_some_iff.mp hbytes).1]
      exact hbytes
  · rcases Calls.of_goOn h₁ with ⟨ht₁, -, heq₁⟩ | ⟨-, hold₁⟩
    · cases heq₁
      rcases Calls.of_goOn h₂ with ⟨ht₂, -, -⟩ | ⟨-, hold₂⟩
      · rw [ht₁, ht₂]
      · exact absurd (h.lt_received hold₂) (Nat.lt_irrefl _)
    · rcases Calls.of_goOn h₂ with ⟨-, -, heq₂⟩ | ⟨-, hold₂⟩
      · cases heq₂
        exact absurd (h.lt_received hold₁) (Nat.lt_irrefl _)
      · exact h.distinct hold₁ hold₂
  · rcases Calls.of_goOn hat with ⟨-, -, heq⟩ | ⟨-, hold⟩
    · cases heq
      exact Nat.ne_of_lt (List.getElem?_eq_some_iff.mp (h.own.bytes c hc)).1
    · exact h.uncopied hold c hc

theorem Intact.copies (h : Intact m) {thread number readResult i : Nat}
    (hat : m.calls.At thread number (.received readResult i)) :
    Intact { m with
      calls := m.calls.leave thread
      completions := m.completions ++ [⟨i, m.object.copyOut readResult⟩] } := by
  obtain ⟨bytes, hbytes, rfl, htake⟩ := h.pending hat
  refine ⟨⟨fun c hc => ?_, ?_⟩, h.fits, fun h' => h.pending (Calls.of_leave h').2,
    fun h₁ h₂ => h.distinct (Calls.of_leave h₁).2 (Calls.of_leave h₂).2, fun h' c hc => ?_⟩
  · rcases List.mem_append.mp hc with hold | hnew
    · exact h.own.bytes c hold
    · obtain rfl := List.mem_singleton.mp hnew
      rw [UdpDatagram.copyOut, htake]
      exact hbytes
  · rw [List.map_append, List.nodup_append]
    refine ⟨h.own.once, List.nodup_singleton _, ?_⟩
    rintro a ha b hb rfl
    obtain ⟨c, hc, rfl⟩ := List.mem_map.mp ha
    exact h.uncopied hat c hc (List.mem_singleton.mp hb)
  · obtain ⟨hne, hold⟩ := Calls.of_leave h'
    rcases List.mem_append.mp hc with hbefore | hnew
    · exact h.uncopied hold c hbefore
    · obtain rfl := List.mem_singleton.mp hnew
      rintro rfl
      exact hne (h.distinct hold hat)

theorem Intact.step {a : Action} (h : Intact m) (ha : m.SpoilsNothing a)
    (hstep : m.step a = some m') : Intact m' := by
  cases moves_of_step h.fits hstep with
  | throws => exact h
  | polls => exact h.polls _
  | receives _ hqueued => exact h.receives hqueued ha
  | fails => exact h.leaves _
  | copies hat => exact h.copies hat

theorem Intact.of_reach {object : UdpDatagram} {threads : Nat} {queued : List (List Byte)}
    (hfits : ∀ d ∈ queued, d.length ≤ object.buffer.length)
    (h : Reach DatagramReaders.step (fun m a => m.SpoilsNothing a) (start object threads queued) m) :
    Intact m :=
  h.invariant (intact_start object threads hfits) fun _ _ _ hm ha hstep => hm.step ha hstep

/-! ## A datagram that spoils another -/

theorem step_copy {thread number readResult datagram : Nat}
    (hat : m.calls.At thread number (.received readResult datagram)) :
    m.step (.copy thread) = some { m with
      calls := m.calls.leave thread
      completions := m.completions ++ [⟨datagram, m.object.copyOut readResult⟩] } := by
  simp [DatagramReaders.step, hat]

/-- The call whose datagram is overwritten copies something else. -/
theorem Intact.spoiled {a : Action} (h : Intact m) (ha : ¬ m.SpoilsNothing a)
    (hstep : m.step a = some m') :
    ∃ m'', Reach DatagramReaders.step (fun _ _ => True) m' m'' ∧ ¬ m''.EachItsOwn := by
  cases moves_of_step h.fits hstep with
  | throws => exact absurd trivial ha
  | polls => exact absurd trivial ha
  | fails => exact absurd trivial ha
  | copies => exact absurd trivial ha
  | @receives thread errno number datagram queued hat hqueued =>
      simp only [SpoilsNothing, hqueued, List.head?_cons, Option.mem_some_iff, forall_eq', not_forall] at ha
      obtain ⟨call, hother, hdiffers⟩ := ha
      obtain ⟨other, n, hne, hcall⟩ := Calls.mem_others.mp hother
      cases call with
      | polled => exact absurd trivial hdiffers
      | received readResult i =>
          obtain ⟨bytes, hbytes, rfl, -⟩ := h.pending hcall
          simp only [MayFollow, hbytes, Option.mem_some_iff, forall_eq'] at hdiffers
          have hkept := hcall.goOn_other (n := number)
            (k := .received datagram.length m.received.length) hne
          refine ⟨_, .single trivial (step_copy hkept), fun hown => ?_⟩
          have hgiven := hown.bytes ⟨i, _⟩ (List.mem_append_right _ (List.mem_singleton.mpr rfl))
          simp only at hgiven
          rw [List.getElem?_append_left (List.getElem?_eq_some_iff.mp hbytes).1, hbytes] at hgiven
          exact hdiffers (agree_of_take_store (Option.some.inj hgiven).symm)

end DatagramReaders

end SocketWrapper.Descriptors
