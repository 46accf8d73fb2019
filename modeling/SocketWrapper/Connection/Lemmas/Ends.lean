import SocketWrapper.Connection.Lemmas.Fed
import SocketWrapper.Writers.Lemmas.Blocks

/-!
# What a step of a connection does to its ends

In every state an end is where its threads lead on a connection whose peer sends what the other end has
written.
-/

namespace SocketWrapper

open ConditionalBufferedStream Transition

@[simp] theorem Side.other_ne (side : Side) : side.other ≠ side := by cases side <;> decide
@[simp] theorem Side.ne_other (side : Side) : side ≠ side.other := (Side.other_ne side).symm
@[simp] theorem Side.other_other (side : Side) : side.other.other = side := by cases side <;> rfl

theorem Side.eq_or_eq_other (side x : Side) : x = side ∨ x = side.other := by
  cases side <;> cases x <;> simp [Side.other]

namespace Connection

variable {S : Side → Setup} {c c' : Connection} {side x : Side} {m : Machine} {w : Writers}

/-! ## Setting one end -/

@[simp] theorem ends_setMachine : (c.setMachine side m).ends side = { c.ends side with machine := m } := by
  simp [setMachine]

theorem ends_setMachine_of_ne (h : x ≠ side) : (c.setMachine side m).ends x = c.ends x := by
  simp [setMachine, h]

@[simp] theorem writers_setMachine : ((c.setMachine side m).ends x).writers = (c.ends x).writers := by
  by_cases h : x = side
  · subst h
    rw [ends_setMachine]
  · rw [ends_setMachine_of_ne h]

@[simp] theorem ends_setWriters : (c.setWriters side w).ends side = { c.ends side with writers := w } := by
  simp [setWriters]

theorem ends_setWriters_of_ne (h : x ≠ side) : (c.setWriters side w).ends x = c.ends x := by
  simp [setWriters, h]

@[simp] theorem machine_setWriters : ((c.setWriters side w).ends x).machine = (c.ends x).machine := by
  by_cases h : x = side
  · subst h
    rw [ends_setWriters]
  · rw [ends_setWriters_of_ne h]

/-! ## The moves -/

/-- The bytes that the kernel has taken between two states of the writers. -/
def newBytes (w w' : Writers) : List Byte := (w'.wire.drop w.wire.length).map Prod.snd

/-- The step of the threads that write which an action stands for. -/
def Action.ofWriters : Action → Option (Side × Writers.Action)
  | .write side thread data => some (side, .callBuffered thread data)
  | .attempt side thread answer => some (side, .attempt thread answer)
  | .giveUp side thread errno => some (side, .giveUp thread errno)
  | .poll _ _ => none
  | .other _ _ => none

inductive Moves (S : Side → Setup) (c : Connection) : Action → Connection → Prop
  | writes {a : Action} {side : Side} {wa : Writers.Action} {w : Writers} :
      a.ofWriters = some (side, wa) → c.closed side = false → (c.ends side).writers.step wa = some w →
      Moves S c a ((c.setWriters side w).setMachine side.other
        ((c.ends side.other).machine.fed ((newBytes (c.ends side).writers w).map .inl)))
  | polls {side : Side} {answer : Answer} {m : Machine} :
      (c.ends side).machine.worker = .reading → c.CanFind side answer →
      ((c.ends side).machine.fed [.inr answer]).step (S side) .worker = some m →
      Moves S c (.poll side answer) (c.setMachine side m)
  | other {side : Side} {a : SocketWrapper.Action} {m : Machine} :
      (a = .worker → (c.ends side).machine.worker ≠ .reading) →
      (c.ends side).machine.step (S side) a = some m → Moves S c (.other side a) (c.setMachine side m)

theorem moves_of_writes {a : Action} {wa : Writers.Action} (ha : a.ofWriters = some (side, wa))
    (h : c.writes side wa = some c') : Moves S c a c' := by
  simp only [Connection.writes] at h
  split at h
  · cases h
  · rename_i hopen
    obtain ⟨w, hw, rfl⟩ := Option.map_eq_some_iff.mp h
    exact .writes ha (by simpa using hopen) hw

theorem moves_of_step {a : Action} (h : c.step S a = some c') : Moves S c a c' := by
  cases a with
  | write side thread data => exact moves_of_writes rfl h
  | attempt side thread answer => exact moves_of_writes rfl h
  | giveUp side thread errno => exact moves_of_writes rfl h
  | poll side answer =>
      simp only [Connection.step] at h
      split at h
      · rename_i hw
        split at h
        · rename_i hfind
          obtain ⟨m, hm, rfl⟩ := Option.map_eq_some_iff.mp h
          exact .polls hw hfind hm
        · cases h
      · cases h
  | other side a =>
      cases a with
      | worker =>
          simp only [Connection.step] at h
          split at h
          · cases h
          · rename_i hw
            obtain ⟨m, hm, rfl⟩ := Option.map_eq_some_iff.mp h
            exact .other (fun _ => hw) hm
      | _ =>
          obtain ⟨m, hm, rfl⟩ := Option.map_eq_some_iff.mp h
          exact .other (by simp) hm

/-! ## What one step does to one end -/

theorem wire_of_step {wa : Writers.Action} {w w' : Writers} (h : w.step wa = some w') :
    w.wire <+: w'.wire := by
  cases Writers.move_of_step h with
  | calls => exact List.prefix_rfl
  | fails => exact List.prefix_rfl
  | returns => exact List.prefix_append _ _
  | continues => exact List.prefix_append _ _
  | givesUp => exact List.prefix_rfl

theorem sent_append {wa : Writers.Action} {w w' : Writers} (h : w.step wa = some w') :
    w'.wire.map Prod.snd = w.wire.map Prod.snd ++ newBytes w w' := by
  obtain ⟨new, hnew⟩ := wire_of_step h
  rw [newBytes, ← hnew, List.drop_left, List.map_append]

@[simp] theorem closed_setMachine : (c.setMachine side m).closed side = m.halted := by
  simp [closed]

theorem closed_setMachine_of_ne (h : x ≠ side) : (c.setMachine side m).closed x = c.closed x := by
  simp [closed, ends_setMachine_of_ne h]

@[simp] theorem sent_setMachine : (c.setMachine side m).sent x = c.sent x := by simp [sent]

/-- Between its steps an end has no answer of a poll left over. -/
def Settled (c : Connection) : Prop :=
  ∀ side, (c.ends side).machine.stream.stream.stream.answers = []

theorem Settled.setMachine (h : c.Settled) (hm : m.stream.stream.stream.answers = []) :
    (c.setMachine side m).Settled := by
  intro x
  by_cases hx : x = side
  · subst hx
    simpa using hm
  · rw [ends_setMachine_of_ne hx]
    exact h x

theorem answers_fed (is : List Input) :
    (m.fed is).stream.stream.stream.answers = m.stream.stream.stream.answers ++ Input.answers is := rfl

theorem Settled.fed (h : c.Settled) (side : Side) (answer : Answer) :
    ((c.ends side).machine.fed [.inr answer]).stream.stream.stream.answers = [answer] := by
  rw [answers_fed, h side]
  rfl

theorem Settled.moves {a : Action} (h : c.Settled) (hmove : Moves S c a c') : c'.Settled := by
  cases hmove with
  | @writes _ side _ w _ _ _ =>
      have hwriters : (c.setWriters side w).Settled := fun x => by
        rw [machine_setWriters]
        exact h x
      refine hwriters.setMachine ?_
      rw [answers_fed, h side.other, Input.answers_inl, List.append_nil]
  | @polls side answer m hw hfind hstep =>
      exact h.setMachine (poll_fed (m := (c.ends side).machine.fed [.inr answer]) hw (h.fed _ answer)
        (decided_nil _ _) hstep).2
  | @other side a m hw hstep =>
      refine h.setMachine ?_
      rw [(socket_of_step hw hstep).2]
      exact h side

variable {allowed : Connection → Action → Prop} {size writers consumers : Side → Nat}

theorem settled_start (size writers consumers : Side → Nat) : (start S size writers consumers).Settled :=
  fun _ => rfl

theorem Settled.of_reach (h : Reach (step S) allowed (start S size writers consumers) c) : c.Settled :=
  h.invariant (settled_start _ _ _) fun _ _ _ hsettled _ hstep => hsettled.moves (moves_of_step hstep)

/-! ## An end and what comes to it -/

/-- After the other end is gone it sends nothing more. -/
def Ahead (x : Side) (c : Connection) (is : List Input) : Prop :=
  c.closed x.other = true → Input.bytes is = []

theorem decided_of_canFind {answer : Answer} {is : List Input} (hfind : c.CanFind x answer)
    (hahead : Ahead x c is) :
    Decided ((c.ends x).machine.fed [.inr answer]).stream.stream.stream is answer := by
  have hunread : ((c.ends x).machine.fed [.inr answer]).stream.stream.stream.socket.unread = c.unread x :=
    List.append_nil _
  cases answer with
  | readable available =>
      rcases hfind with hlt | ⟨-, hclosed⟩
      · exact .inl (hunread ▸ hlt)
      · exact .inr (hahead hclosed)
  | _ => trivial

/-- A step of the connection gives an end some input, and its machine goes on with that. -/
theorem Moves.feeds {a : Action} {P : SocketWrapper.Action → Prop} (h : Moves S c a c')
    (hsettled : c.Settled) (x : Side) (hworker : P .worker) (hP : ∀ b, a = .other x b → P b) :
    ∃ new, c'.sent x.other = c.sent x.other ++ Input.bytes new ∧ ∀ is, Ahead x c' is →
      Ahead x c (new ++ is) ∧ Reach (Machine.step (S x)) (fun _ b => P b)
        ((c.ends x).machine.fed (new ++ is)) ((c'.ends x).machine.fed is) := by
  cases h with
  | @writes _ side wa w _ hopen hw =>
      rcases Side.eq_or_eq_other side x with rfl | rfl
      · refine ⟨[], ?_, fun is hahead => ⟨?_, ?_⟩⟩
        · simp [sent, ends_setWriters_of_ne (Side.other_ne x)]
        · intro hclosed
          exact hahead (by simpa [closed] using hclosed)
        · rw [ends_setMachine_of_ne (Side.ne_other x), ends_setWriters]
          exact .refl
      · refine ⟨(newBytes (c.ends side).writers w).map .inl, ?_, fun is hahead => ⟨?_, ?_⟩⟩
        · simp [sent, sent_append hw]
        · intro hclosed
          simp [hopen] at hclosed
        · rw [machine_fed_append, ends_setMachine]
          exact .refl
  | @polls side answer m hw hfind hstep =>
      rcases Side.eq_or_eq_other side x with rfl | rfl
      · refine ⟨[.inr answer], ?_, fun is hahead => ⟨?_, ?_⟩⟩
        · simp
          rfl
        · intro hclosed
          exact hahead (by rwa [closed_setMachine_of_ne (Side.other_ne x)])
        · have hahead' : Ahead x c is := fun hclosed =>
            hahead (by rwa [closed_setMachine_of_ne (Side.other_ne x)])
          rw [machine_fed_append, ends_setMachine]
          exact .single hworker (poll_fed (m := (c.ends x).machine.fed [.inr answer]) hw
            (hsettled.fed _ answer) (decided_of_canFind hfind hahead') hstep).1
      · refine ⟨[], by simp, fun is hahead => ⟨?_, ?_⟩⟩
        · intro hclosed
          rw [Side.other_other] at hclosed
          have hopen : c.closed side = false := (move_of_step hstep).1
          simp [hopen] at hclosed
        · rw [ends_setMachine_of_ne (Side.other_ne side)]
          exact .refl
  | @other side a m hw hstep =>
      rcases Side.eq_or_eq_other side x with rfl | rfl
      · refine ⟨[], by simp, fun is hahead => ⟨?_, ?_⟩⟩
        · intro hclosed
          exact hahead (by rwa [closed_setMachine_of_ne (Side.other_ne x)])
        · rw [ends_setMachine]
          exact .single (hP a rfl) (step_fed hw hstep)
      · refine ⟨[], by simp, fun is hahead => ⟨?_, ?_⟩⟩
        · intro hclosed
          rw [Side.other_other] at hclosed
          have hopen : c.closed side = false := (move_of_step hstep).1
          simp [hopen] at hclosed
        · rw [ends_setMachine_of_ne (Side.other_ne side)]
          exact .refl

/-- An end is a machine that is fed what the other end writes and the answers to its polls. -/
theorem feeds {P : SocketWrapper.Action → Prop} (hworker : P .worker)
    (hP : ∀ c b, allowed c (.other x b) → P b) :
    Fed.Feeds (Machine.step (S x)) (fun _ b => P b) (step S) allowed (start S size writers consumers)
      (fun c => (c.ends x).machine) Machine.fed (fun c is => Input.bytes is = c.sent x.other)
      (Ahead x) where
  start := rfl
  move c a c' hreach ha hstep := by
    obtain ⟨new, hsent, hgoes⟩ := (moves_of_step hstep).feeds (Settled.of_reach hreach) x hworker
      (fun b hb => hP c b (hb ▸ ha))
    refine ⟨new, fun is htold => ?_, hgoes⟩
    rw [Input.bytes_append, htold, hsent]

theorem connected_fed (S : Setup) (size consumers : Nat) (is : List Input) :
    (Machine.connected S size [] [] consumers).fed is =
      .connected S size (Input.bytes is) (Input.answers is) consumers := rfl

theorem end_reach {P : SocketWrapper.Action → Prop} (hworker : P .worker)
    (hP : ∀ c b, allowed c (.other x b) → P b)
    (h : Reach (step S) allowed (start S size writers consumers) c) :
    ∃ answers, Reach (Machine.step (S x)) (fun _ b => P b)
      (.connected (S x) (size x) (c.sent x.other) answers (consumers x)) (c.ends x).machine := by
  obtain ⟨is, hsent, -, hrun⟩ := (feeds hworker hP).reach h (fun _ => rfl) machine_fed_nil
  have hstart : ((start S size writers consumers).ends x).machine.fed is = _ :=
    connected_fed (S x) (size x) (consumers x) is
  rw [hstart, hsent] at hrun
  exact ⟨_, hrun⟩

end Connection

end SocketWrapper
